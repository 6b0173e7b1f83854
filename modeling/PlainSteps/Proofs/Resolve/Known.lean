import PlainSteps.Proofs.Domain.Registered
import PlainSteps.Proofs.Resolve.Maintained
import PlainSteps.Proofs.Template.Captures

/-!
# Known domains

A template that declares an unknown domain is refused when its step is registered. What is
registered therefore gives captures of known domains only, and no step fails for want of a domain
when it runs, whoever defined it and wherever its line stands.

* `StepRegistry.ReadAgainst`: the forms of all steps have been read against some known domains.
* `StepRegistry.Extends`: a registry to which definitions have been added.
* `Matcher.knows_of_match?`: the captures of a form that has been read declare known domains.
* `register_eq_unknownDomain`: a template that declares another is refused.
* `populate_ne_noCoercer`: no step of a resolved feature lacks a domain.

Proof-only: no module that runs imports this one.
-/

namespace PlainSteps

open FeatureStep

variable {σ : Type}

/-! ## Templates -/

theorem Template.unknownDomain?_eq_none_iff {domains : DomainRegistry} {schema : List Placeholder} :
    unknownDomain? domains.names schema = none ↔ ∀ p ∈ schema, domains.Knows p.domain := by
  simp only [unknownDomain?, List.findSome?_eq_none_iff, Option.map_eq_none_iff,
    List.find?_eq_none, DomainRegistry.Knows, ← DomainRegistry.mem_names_iff]
  simp

theorem Template.unknownDomain?_of_compile {known : List String} {text : String} {t : Template}
    (h : compile (some known) text = .ok t) : unknownDomain? known t.schema = none := by
  have read := read_of_compile h
  unfold compile at h
  obtain ⟨t', read', h⟩ := ok_of_bind h
  obtain rfl := Except.ok.inj (read.symm.trans read')
  split at h
  · cases h
  · next nothing => exact nothing

/-- A template that declares a domain with an unknown member is refused. -/
theorem Template.compile_eq_unknownDomain {domains : DomainRegistry} {text : String} {t : Template}
    (read : Template.read text = .ok t) (unknown : ∃ p ∈ t.schema, ¬ domains.Knows p.domain) :
    ∃ label member, domains.lookup member = none ∧
      compile (some domains.names) text = .error (.unknownDomain label member) := by
  have faulty : unknownDomain? domains.names t.schema ≠ none := fun none => by
    obtain ⟨p, hp, unknown⟩ := unknown
    exact unknown (unknownDomain?_eq_none_iff.1 none p hp)
  obtain ⟨fault, found⟩ := Option.ne_none_iff_exists'.1 faulty
  obtain ⟨p, -, found'⟩ := List.exists_of_findSome?_eq_some found
  obtain ⟨member, first, rfl⟩ := Option.map_eq_some_iff.1 found'
  refine ⟨p.label, member, ?_, ?_⟩
  · have absent : member ∉ domains.names := by simpa using List.find?_some first
    rw [DomainRegistry.mem_names_iff] at absent
    exact Option.not_isSome_iff_eq_none.1 absent
  · rw [compile, read]
    simp only [bind, Except.bind, Option.bind_some, found]
    rfl

/-! ## Captures -/

theorem Template.mem_zipWith_capture {schema : List Placeholder} {ws : List Written} {c : Capture}
    (h : c ∈ List.zipWith Written.capture schema ws) : ∃ p ∈ schema, c.domain = p.domain := by
  rw [List.mem_iff_getElem] at h
  obtain ⟨i, _, rfl⟩ := h
  rw [List.getElem_zipWith]
  exact ⟨_, List.getElem_mem _, rfl⟩

/-- The captures of a template that has been compiled declare known domains. -/
theorem Template.knows_of_captures? {domains : DomainRegistry} {text : String} {t : Template}
    (compiled : compile (some domains.names) text = .ok t) {line : String}
    {captures : List Capture} (h : t.captures? line = some captures) :
    ∀ c ∈ captures, domains.Knows c.domain := by
  have known := unknownDomain?_eq_none_iff.1 (unknownDomain?_of_compile compiled)
  obtain ⟨tokens, -, matcher, schema⟩ := read_eq_ok (read_of_compile compiled)
  rcases captures?_eq matcher schema line with ⟨-, nothing, -⟩ | ⟨ws, -, -, given⟩
  · cases nothing.symm.trans h
  · obtain rfl := Option.some.inj (given.symm.trans h)
    intro c hc
    obtain ⟨p, hp, same⟩ := mem_zipWith_capture hc
    rw [same]
    exact known p hp

theorem Pattern.domain_of_captures? {p : Pattern} {line : String} {captures : List Capture}
    (h : p.captures? line = some captures) : ∀ c ∈ captures, c.domain = Domain.string := by
  obtain ⟨found, -, rfl⟩ := Option.map_eq_some_iff.1 h
  intro c hc
  obtain ⟨group, -, given⟩ := List.mem_filterMap.1 hc
  unfold capture? at given
  cases name : group.name with
  | none =>
    rw [name] at given
    cases given
  | some n =>
    rw [name] at given
    cases place : found.lookup group with
    | none =>
      rw [place] at given
      cases given
    | some ends =>
      rw [place] at given
      cases given
      rfl

/-- The captures of a form that has been read declare known domains. -/
theorem Matcher.knows_of_match? {domains : DomainRegistry} (texts : domains.Knows Domain.string)
    {form : StepForm} {m : Matcher} (read : ofForm domains.names form = .ok m) {line : String}
    {captures : List Capture} (h : m.match? line = some captures) :
    ∀ c ∈ captures, domains.Knows c.domain := by
  cases form with
  | exact text =>
    obtain rfl := Except.ok.inj read
    change (if _ then some [] else none) = some captures at h
    split at h
    · cases h
      exact List.forall_mem_nil _
    · cases h
  | pattern text =>
    obtain ⟨p, -, rfl⟩ := ok_of_map read
    intro c hc
    rw [Pattern.domain_of_captures? h c hc]
    exact texts
  | template text =>
    obtain ⟨t, compiled, rfl⟩ := ok_of_map read
    exact Template.knows_of_captures? compiled h

/-! ## Registries -/

namespace StepRegistry

/-- The forms of all steps have been read against some known domains. -/
structure ReadAgainst (known : List String) (r : StepRegistry σ) : Prop where
  domains : r.domains = known
  forms : ∀ s ∈ r.steps, Matcher.ofForm known s.definition.form = .ok s.matcher

/-- A registry to which definitions have been added. -/
inductive Extends (start : StepRegistry σ) : StepRegistry σ → Prop
  | refl : Extends start start
  | register {r r' : StepRegistry σ} {stepper : String} {d : StepDefinition σ}
    (h : Extends start r) (added : r.register stepper d = .ok r') : Extends start r'

theorem ReadAgainst.register {known : List String} {r r' : StepRegistry σ} {stepper : String}
    {d : StepDefinition σ} (h : r.ReadAgainst known) (added : r.register stepper d = .ok r') :
    r'.ReadAgainst known := by
  obtain ⟨step, read, rfl⟩ := register_eq_ok_iff.1 added
  refine ⟨h.domains, List.forall_mem_append.2 ⟨h.forms, List.forall_mem_singleton.2 ?_⟩⟩
  rw [read.definition, ← h.domains]
  exact read.matcher

theorem ReadAgainst.extends {known : List String} {r r' : StepRegistry σ}
    (h : r.ReadAgainst known) (more : r.Extends r') : r'.ReadAgainst known := by
  induction more with
  | refl => exact h
  | register _ added ih => exact ih.register added

theorem forms_of_isReading {known : List String} {ds : List (String × StepDefinition σ)}
    {steps : List (RegisteredStep σ)} (read : List.Forall₂ (IsReading known) ds steps) :
    ∀ s ∈ steps, Matcher.ofForm known s.definition.form = .ok s.matcher := by
  induction read with
  | nil => exact List.forall_mem_nil _
  | cons first _ ih =>
    refine List.forall_mem_cons.2 ⟨?_, ih⟩
    rw [first.definition]
    exact first.matcher

theorem readAgainst_ofSteppers {steppers : List (Stepper σ)} {domains : DomainRegistry}
    {r : StepRegistry σ} (h : ofSteppers steppers domains = .ok r) :
    r.ReadAgainst domains.names := by
  rw [ofSteppers_eq_foldlM] at h
  obtain ⟨steps, read, rfl⟩ := register_foldlM_iff.1 h
  exact ⟨rfl, forms_of_isReading read⟩

/-- A template that declares a domain with an unknown member is refused, whatever has been
registered before. -/
theorem ReadAgainst.register_eq_unknownDomain {domains : DomainRegistry} {r : StepRegistry σ}
    (h : r.ReadAgainst domains.names) (stepper : String) {d : StepDefinition σ} {text : String}
    {t : Template} (form : d.form = .template text) (read : Template.read text = .ok t)
    (unknown : ∃ p ∈ t.schema, ¬ domains.Knows p.domain) :
    ∃ label member, domains.lookup member = none ∧
      r.register stepper d =
        .error ⟨qualifiedName stepper d.name, .unknownDomain label member⟩ := by
  obtain ⟨label, member, absent, refused⟩ := Template.compile_eq_unknownDomain read unknown
  refine ⟨label, member, absent, ?_⟩
  rw [StepRegistry.register, form, Matcher.ofForm, h.domains, refused]
  rfl

end StepRegistry

/-! ## Steps -/

/-- The captures of actions that a registry or one that extends it finds declare known domains. -/
theorem StepAction.FoundBy.knows {domains : DomainRegistry} {registry : StepRegistry σ}
    (texts : domains.Knows Domain.string) (read : registry.ReadAgainst domains.names)
    {action : StepAction σ} (found : action.FoundBy fun r => registry.Extends r.registry) :
    ∀ c ∈ action.captures, domains.Knows c.domain := by
  cases found with
  | found extends_ found =>
    obtain ⟨step, hstep, captures, given, rfl⟩ := exists_step_of_findAction found
    exact Matcher.knows_of_match? texts ((read.extends extends_).forms step hstep) given
  | unresolved message => exact List.forall_mem_nil _

theorem keptByDefining_extends (registry : StepRegistry σ) :
    Resolver.KeptByDefining fun r : Resolver σ => registry.Extends r.registry := by
  intro r r' stepper source d extends_ defined
  unfold Resolver.define at defined
  simp only at defined
  split at defined
  · cases defined
    exact extends_
  · split at defined
    · next added =>
      cases defined
      exact extends_.register added
    · cases defined

/-- No step lacks a domain when it runs. In a registry of steppers, and whatever lines have defined
since, a template that declares an unknown domain is refused when it is registered; and of the steps
to which features resolve, those of statements included, none fails because a domain of its terms
is not registered, unless the domain is a union of registered domains. -/
theorem populate_ne_noCoercer {steppers : List (Stepper σ)} {domains : DomainRegistry}
    {registry : StepRegistry σ}
    (registered : DomainRegistry.initial.registerAll (steppers.flatMap (·.domains)) = .ok domains)
    (compiled : StepRegistry.ofSteppers steppers domains = .ok registry)
    {r : Resolver σ} (extended : registry.Extends r.registry) :
    (∀ (stepper : String) (d : StepDefinition σ) (text : String) (t : Template),
      d.form = .template text → Template.read text = .ok t →
      (∃ p ∈ t.schema, ¬ domains.Knows p.domain) →
      ∃ label member, domains.lookup member = none ∧ r.registry.register stepper d =
        .error ⟨qualifiedName stepper d.name, .unknownDomain label member⟩) ∧
    ∀ (hooks : List (Stepper σ)) (library : SourceLibrary) (features : List ExpandedFeature)
      (store store' : σ) (answer : Except ResolveError (List (ResolvedFeature σ)))
      (r' : Resolver σ),
      ((do
        resolveBackgrounds hooks library
        resolveFeatures hooks library features : Resolving σ _).run.run r).start store =
          (.ok (answer, r'), store') →
      registry.Extends r'.registry ∧
      ∀ resolved, answer = .ok resolved → ∀ step ∈ (topSteps resolved).flatMap all,
        ∀ (world : World) (env : Table String) (label : String),
          (∀ domain, populate world domains env step.head.action.captures ≠
            .error (.domain (.noCoercer label domain))) ∧
          ∀ key, populate world domains env step.head.action.captures =
              .error (.domain (.noUnionCoercer label key)) →
            domains.lookup key = none ∧ ∃ c ∈ step.head.action.captures,
              Domain.isUnion c.domain = true ∧ key = Domain.unionKey c.domain ∧
              domains.Knows c.domain := by
  have texts := DomainRegistry.knows_string registered
  have read := StepRegistry.readAgainst_ofSteppers compiled
  constructor
  · intro stepper d text t form reads unknown
    exact (read.extends extended).register_eq_unknownDomain stepper form reads unknown
  · intro hooks library features store store' answer r' ran
    have kept := keptByDefining_extends registry
    have resolving := (resolveBackgrounds_maintains kept hooks library).bind fun _ _ =>
      resolveFeatures_maintains kept hooks library features
    obtain ⟨extended', found⟩ := resolving r store answer r' store' extended ran
    refine ⟨extended', fun resolved same step hstep world env label => ?_⟩
    have known := (found resolved same step hstep).knows texts read
    constructor
    · intro domain failed
      obtain ⟨c, hc, raw, stored, failed⟩ := populate_eq_domain failed
      refine DomainRegistry.Knows.coerce_ne_noCoercer ?_ label domain failed
      exact known c hc
    · intro key failed
      obtain ⟨c, hc, raw, stored, failed⟩ := populate_eq_domain failed
      obtain ⟨union, same, absent⟩ := DomainRegistry.coerce_eq_noUnionCoercer failed
      exact ⟨absent, c, hc, union, same, known c hc⟩

/-- The tokens of a template that declares a number. -/
def sleepTokens : List Template.Token :=
  [.literal "sleep ".toList, .slot 6 "n" (some "number")]

/-- This template. -/
def sleepTemplate : Template :=
  ⟨"sleep \x7bn:number\x7d", Template.matcherOf sleepTokens, Template.slots sleepTokens⟩

/-- A step with this template. -/
def sleepStep : StepDefinition Unit where
  name := "sleep"
  form := .template sleepTemplate.text
  action _ := return .ok .passed

/-- A stepper that offers the step. -/
def sleepStepper : Stepper Unit := { name := "Test", steps := [sleepStep] }

/-- The registry of this stepper. -/
def sleepRegistry : StepRegistry Unit :=
  ⟨[⟨"Test", sleepStep, .template sleepTemplate⟩], DomainRegistry.initial.names⟩

theorem ofSteppers_sleepStepper :
    StepRegistry.ofSteppers [sleepStepper] .initial = .ok sleepRegistry := by
  have scanned : Template.tokens sleepTemplate.text = .ok sleepTokens := by decide +kernel
  have compiled : Template.compile (some DomainRegistry.initial.names) sleepTemplate.text =
      .ok sleepTemplate :=
    Template.compile_of_tokens scanned (by decide) (by decide) (by decide +kernel)
  have read : Matcher.ofForm DomainRegistry.initial.names sleepStep.form =
      .ok (.template sleepTemplate) := by
    rw [sleepStep, Matcher.ofForm, compiled]
    rfl
  exact ofSteppers_eq_ok [.template sleepTemplate] (.cons read .nil)

/-- What resolving a feature of one line gives. -/
def resolvedSleep :=
  ((do
    resolveBackgrounds [] ⟨[], []⟩
    resolveFeatures [] ⟨[], []⟩ [⟨"a.feature", "", [⟨⟨"a.feature", 1⟩, "sleep 5"⟩]⟩] :
      Resolving Unit _).run.run ⟨sleepRegistry, []⟩).start ()

/-- The term of the line declares a domain, which is registered. -/
theorem populate_resolvedSleep : ∃ resolved r' store',
    resolvedSleep = (.ok (.ok resolved, r'), store') ∧
    (topSteps resolved).map (·.head.action.captures) = [[⟨"n", "5", .fallthrough, "number"⟩]] ∧
    ∀ step ∈ (topSteps resolved).flatMap all, ∀ (world : World) (label domain : String),
      populate world .initial ∅ step.head.action.captures ≠
        .error (.domain (.noCoercer label domain)) := by
  have evaluated : (match resolvedSleep.1 with
      | .ok (.ok resolved, _) => decide ((topSteps resolved).map (·.head.action.captures) =
        [[⟨"n", "5", .fallthrough, "number"⟩]])
      | _ => false) = true := by decide +kernel
  split at evaluated
  · next resolved r' h =>
    have given : resolvedSleep = (.ok (.ok resolved, r'), ()) := Prod.ext h (Subsingleton.elim _ _)
    have registered : DomainRegistry.initial.registerAll ([sleepStepper].flatMap (·.domains)) =
        .ok .initial := rfl
    have resolving := (populate_ne_noCoercer registered ofSteppers_sleepStepper
      (r := ⟨sleepRegistry, []⟩) .refl).2 _ _ _ _ _ _ _ given
    refine ⟨resolved, r', (), given, of_decide_eq_true evaluated, ?_⟩
    exact fun step hstep world label => (resolving.2 resolved rfl step hstep world ∅ label).1
  · exact nomatch evaluated

end PlainSteps
