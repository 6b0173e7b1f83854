import PlainSteps.Proofs.Resolve.Addresses
import PlainSteps.Proofs.Resolve.Order

/-!
# Definitions that steps come from

Where the steppers do not crash when they are offered lines, resolving returns, and each step that
it gives comes from a definition that a stepper offers or that a line has contributed.

* `Resolving.Keeps`: a computation returns, and keeps a property of the registered definitions.
* `Stepper.Offers`: what holds of all definitions of a stepper.
* `ofSteppers_all`: it holds of those that are registered first.
* `resolveAll_keeps`: it holds of those from which steps come.

Proof-only: no module that runs imports this one.
-/

namespace PlainSteps

variable {σ α β : Type}

/-! ## Computations that resolve -/

/-- A property holds of all registered definitions. -/
def StepRegistry.All (p : StepDefinition σ → Prop) (r : StepRegistry σ) : Prop :=
  ∀ s ∈ r.steps, p s.definition

/-- From where a property holds of all registered definitions, a computation returns there; of its
value, if it gives one, another property holds. -/
def Resolving.Keeps (p : StepDefinition σ → Prop) (x : Resolving σ α) (post : α → Prop) : Prop :=
  ∀ (r : Resolver σ) (store : σ), r.registry.All p → ∃ answer r' store',
    (x.run.run r).start store = (.ok (answer, r'), store') ∧ r'.registry.All p ∧
      ∀ a, answer = .ok a → post a

/-- The answer of a computation for the lines of a background, which names it in a failure. -/
def answerInBackground (path : String) :
    Except ResolveError α × Resolver σ → Effect σ (Except ResolveError α × Resolver σ)
  | (.ok a, r) => pure (.ok a, r)
  | (.error e, r) => pure (.error (.background path e), r)

theorem run_inBackground (path : String) (x : Resolving σ α) (r : Resolver σ) :
    (inBackground path x).run.run r = x.run.run r >>= answerInBackground path := by
  unfold inBackground
  refine bind_congr (m := Effect σ) fun q => ?_
  obtain ⟨answer, _⟩ := q
  cases answer <;> rfl

/-- Lines of a background that do not crash: the background is named in a failure. -/
theorem cases_of_start_inBackground {path : String} {x : Resolving σ α} {r r' : Resolver σ}
    {store store' : σ} {answer : Except ResolveError α}
    (ran : ((inBackground path x).run.run r).start store = (.ok (answer, r'), store')) :
    ∃ first, (x.run.run r).start store = (.ok (first, r'), store') ∧
      ∀ a, answer = .ok a → first = .ok a := by
  rw [run_inBackground] at ran
  obtain ⟨⟨first, mid⟩, store₁, ran₁, ran₂⟩ := Effect.ok_of_start_bind ran
  cases first with
  | ok a =>
    cases ran₂
    exact ⟨.ok a, ran₁, fun _ same => same⟩
  | error e =>
    cases ran₂
    exact ⟨.error e, ran₁, nofun⟩

/-- A computation on the store leaves the resolver as it is. -/
theorem start_lift {e : Effect σ α} {a : α} {store store' : σ}
    (ran : e.start store = (.ok a, store')) (r : Resolver σ) :
    ((liftM e : Resolving σ α).run.run r).start store = (.ok (.ok a, r), store') := by
  show ((e >>= fun a => pure (a, r)) >>= fun q => pure (Except.ok q.1, q.2)).start store = _
  rw [Effect.start_bind, Effect.start_bind, ran]
  rfl

/-- A computation on the store that does not crash gives its value and leaves the resolver. -/
theorem ok_of_start_lift {e : Effect σ α} {r r' : Resolver σ} {store store' : σ}
    {answer : Except ResolveError α}
    (ran : ((liftM e : Resolving σ α).run.run r).start store = (.ok (answer, r'), store')) :
    ∃ a, e.start store = (.ok a, store') ∧ answer = .ok a ∧ r' = r := by
  obtain ⟨_, _, ran₁, ran₂⟩ := Effect.ok_of_start_bind ran
  obtain ⟨a, _, ran₃, ran₄⟩ := Effect.ok_of_start_bind ran₁
  cases ran₄
  cases ran₂
  exact ⟨a, ran₃, rfl, rfl⟩

namespace Resolving.Keeps

variable {p : StepDefinition σ → Prop} {x : Resolving σ α} {post : α → Prop}

theorem pure {a : α} (h : post a) : (Pure.pure a : Resolving σ α).Keeps p post :=
  fun r store all => ⟨.ok a, r, store, rfl, all, fun _ same => Except.ok.inj same ▸ h⟩

theorem fail (e : ResolveError) : (throw e : Resolving σ α).Keeps p post :=
  fun r store all => ⟨.error e, r, store, rfl, all, fun _ none => nomatch none⟩

theorem bind {f : α → Resolving σ β} {post' : β → Prop} (h : x.Keeps p post)
    (hf : ∀ a, post a → (f a).Keeps p post') : (x >>= f).Keeps p post' := by
  intro r store all
  obtain ⟨answer, mid, store₁, ran, all₁, holds⟩ := h r store all
  cases answer with
  | error e =>
    refine ⟨.error e, mid, store₁, ?_, all₁, fun _ none => nomatch none⟩
    rw [ExceptT.run_bind, StateT.run_bind, Effect.start_bind, ran]
    rfl
  | ok a =>
    obtain ⟨answer, r', store', then_, all', holds'⟩ := hf a (holds a rfl) mid store₁ all₁
    exact ⟨answer, r', store', (start_bind_ok ran f).trans then_, all', holds'⟩

/-- The registry as it is. -/
theorem get : (MonadState.get : Resolving σ (Resolver σ)).Keeps p fun r => r.registry.All p :=
  fun r store all => ⟨.ok r, r, store, rfl, all, fun _ same => Except.ok.inj same ▸ all⟩

theorem set {r : Resolver σ} (h : r.registry.All p) :
    (MonadState.set r : Resolving σ PUnit).Keeps p fun _ => True :=
  fun _ store _ => ⟨.ok _, r, store, rfl, h, fun _ _ => trivial⟩

/-- A computation on the store that returns. -/
theorem lift {e : Effect σ α} (h : ∀ store, ∃ a store', e.start store = (.ok a, store') ∧ post a) :
    (liftM e : Resolving σ α).Keeps p post := by
  intro r store all
  obtain ⟨a, store', ran, holds⟩ := h store
  exact ⟨.ok a, r, store', start_lift ran r, all, fun _ same => Except.ok.inj same ▸ holds⟩

theorem background (path : String) (h : x.Keeps p post) :
    (inBackground path x).Keeps p post := by
  intro r store all
  obtain ⟨answer, r', store', ran, all', holds⟩ := h r store all
  rw [run_inBackground, Effect.start_bind, ran]
  cases answer with
  | ok a => exact ⟨.ok a, r', store', rfl, all', holds⟩
  | error e =>
    exact ⟨.error (.background path e), r', store', rfl, all', fun _ none => nomatch none⟩

theorem forM {γ : Type} {xs : List γ} {f : γ → Resolving σ PUnit}
    (h : ∀ c ∈ xs, (f c).Keeps p fun _ => True) : (xs.forM f).Keeps p fun _ => True := by
  induction xs with
  | nil => exact .pure trivial
  | cons c rest ih =>
    refine (h c List.mem_cons_self).bind fun _ _ => ?_
    exact ih fun d hd => h d (List.mem_cons_of_mem c hd)

end Resolving.Keeps

/-! ## Lines -/

/-- A stepper does not crash when it is told of features and offered lines, and a property holds of
all definitions that it offers or contributes. -/
structure Stepper.Offers (s : Stepper σ) (p : StepDefinition σ → Prop) : Prop where
  startResolution (path : String) : (s.startResolution path).Returns
  resolveLine (line : String) (location : SourceLocation) : (s.resolveLine line location).Returns
  steps : ∀ d ∈ s.steps, p d
  contributed (line : String) (location : SourceLocation) (store store' : σ)
    (definitions : List (StepDefinition σ))
    (h : (s.resolveLine line location).start store = (.ok (.define definitions), store')) :
    ∀ d ∈ definitions, p d

variable {p : StepDefinition σ → Prop}

theorem StepRegistry.All.register {r r' : StepRegistry σ} {stepper : String}
    {d : StepDefinition σ} (h : r.All p) (hd : p d) (registered : r.register stepper d = .ok r') :
    r'.All p := by
  obtain ⟨step, read, rfl⟩ := register_eq_ok_iff.1 registered
  intro s hs
  rcases List.mem_append.1 hs with hs | hs
  · exact h s hs
  · rw [List.mem_singleton.1 hs, read.definition]
    exact hd

theorem all_of_isReading {known : List String} {ds : List (String × StepDefinition σ)}
    {steps : List (RegisteredStep σ)} (read : List.Forall₂ (IsReading known) ds steps)
    (h : ∀ d ∈ ds, p d.2) : ∀ s ∈ steps, p s.definition := by
  induction read with
  | nil => exact List.forall_mem_nil _
  | cons first _ ih =>
    obtain ⟨own, others⟩ := List.forall_mem_cons.1 h
    exact List.forall_mem_cons.2 ⟨first.definition ▸ own, ih others⟩

/-- A property of all definitions of the steppers holds of all that are registered first. -/
theorem ofSteppers_all {steppers : List (Stepper σ)} {domains : DomainRegistry}
    {r : StepRegistry σ} (h : ∀ s ∈ steppers, ∀ d ∈ s.steps, p d)
    (registered : StepRegistry.ofSteppers steppers domains = .ok r) : r.All p := by
  rw [ofSteppers_eq_foldlM] at registered
  obtain ⟨steps, read, rfl⟩ := register_foldlM_iff.1 registered
  refine all_of_isReading read fun d hd => ?_
  obtain ⟨s, hs, hd⟩ := List.mem_flatMap.1 hd
  obtain ⟨own, hown, rfl⟩ := List.mem_map.1 hd
  exact h s hs own hown

theorem defineStep_keeps {stepper : String} {source : SourceLocation} {d : StepDefinition σ}
    (hd : p d) : (defineStep stepper source d).Keeps p fun _ => True := by
  unfold defineStep
  refine .bind .get fun r all => ?_
  cases defined : r.define stepper source d with
  | error e => exact .fail _
  | ok r' =>
    refine .set ?_
    unfold Resolver.define at defined
    simp only at defined
    split at defined
    · cases defined
      exact all
    · split at defined
      · next registry registered =>
        cases defined
        exact all.register hd registered
      · cases defined

theorem offerLine_keeps {steppers : List (Stepper σ)} (h : ∀ s ∈ steppers, s.Offers p)
    (line : SourcedLine) : (offerLine steppers line).Keeps p fun _ => True := by
  induction steppers with
  | nil =>
    rw [offerLine]
    exact .pure trivial
  | cons s rest ih =>
    rw [offerLine]
    have offers := h s List.mem_cons_self
    have offered : (liftM (s.resolveLine line.text line.source) :
        Resolving σ (LineDisposition σ)).Keeps p fun disposition =>
          ∀ definitions, disposition = .define definitions → ∀ d ∈ definitions, p d := by
      refine .lift fun store => ?_
      obtain ⟨a, store', ran⟩ := offers.resolveLine line.text line.source store
      refine ⟨a, store', ran, fun definitions same => ?_⟩
      subst same
      exact offers.contributed _ _ _ _ _ ran
    refine offered.bind fun disposition defines => ?_
    cases disposition with
    | proceed => exact ih fun t ht => h t (List.mem_cons_of_mem s ht)
    | consumed => exact .pure trivial
    | define definitions =>
      exact (Resolving.Keeps.forM fun d hd => defineStep_keeps (defines definitions rfl d hd)).bind
        fun _ _ => .pure trivial

/-! ## Steps -/

/-- A property holds of the definition from which a step comes. -/
def StepAction.ComesFrom (a : StepAction σ) (p : StepDefinition σ → Prop) : Prop :=
  ∃ d, a.definition? = some d ∧ p d

theorem mem_of_chooseCandidate {cs : List (Candidate σ)} {c : Candidate σ}
    (h : chooseCandidate cs = some c) : c ∈ cs := by
  have only {cs : List (Candidate σ)} (h : only? cs = some c) : c ∈ cs := by
    cases cs with
    | nil => cases h
    | cons d cs =>
      cases cs with
      | nil => exact List.mem_singleton.2 (Option.some.inj h).symm
      | cons e cs => cases h
  rw [chooseCandidate_eq] at h
  rcases Option.or_eq_some_iff.1 h with h | ⟨-, h⟩
  · exact List.mem_of_mem_filter (only h)
  · have left : c ∈ withoutFallbacks cs := List.mem_of_mem_filter (only h)
    unfold withoutFallbacks at left
    split at left
    · exact List.mem_of_mem_filter left
    · exact left

/-- The action of a line is that of a registered step, with the captures that the line gives it. -/
theorem exists_step_of_findAction {r : StepRegistry σ} {text : String} {location : SourceLocation}
    {action : StepAction σ} (h : findAction r text location = .ok action) :
    ∃ step ∈ r.steps, ∃ captures, step.matcher.match? text = some captures ∧
      action = .resolved step.stepper step.definition captures := by
  unfold findAction at h
  simp only at h
  split at h
  · cases h
  · split at h
    · next c chosen =>
      cases h
      obtain ⟨step, hstep, found⟩ := List.mem_filterMap.1 (mem_of_chooseCandidate chosen)
      obtain ⟨captures, matched, rfl⟩ := Option.map_eq_some_iff.1 found
      exact ⟨step, hstep, captures, matched, rfl⟩
    · cases h

theorem findAction_comesFrom {r : StepRegistry σ} (all : r.All p) {text : String}
    {location : SourceLocation} {action : StepAction σ}
    (h : findAction r text location = .ok action) : action.ComesFrom p := by
  obtain ⟨step, hstep, captures, -, rfl⟩ := exists_step_of_findAction h
  exact ⟨step.definition, rfl, all step hstep⟩

theorem resolveAction_keeps (line : SourcedLine) :
    (resolveAction (σ := σ) line).Keeps p fun action => action.ComesFrom p := by
  unfold resolveAction
  refine .bind .get fun r all => ?_
  cases found : findAction r.registry line.text line.source with
  | error e => exact .fail e
  | ok action => exact .pure (findAction_comesFrom all found)

section Steppers

variable {steppers : List (Stepper σ)} (h : ∀ s ∈ steppers, s.Offers p)

include h

theorem checkLine_keeps (line : SourcedLine) : (checkLine steppers line).Keeps p fun _ => True := by
  unfold checkLine
  refine (offerLine_keeps h line).bind fun taken _ => ?_
  split
  · exact .pure trivial
  · split
    · exact .pure trivial
    · exact (resolveAction_keeps line).bind fun _ _ => .pure trivial

theorem resolveBackgrounds_keeps (library : SourceLibrary) :
    (resolveBackgrounds steppers library).Keeps p fun _ => True :=
  .forM fun b _ => .background b.path (.forM fun line _ => checkLine_keeps h line)

theorem resolveLines_keeps (library : SourceLibrary) (feature position : Nat)
    (lines : List SourcedLine) : (resolveLines steppers library feature position lines).Keeps p
      fun steps => ∀ step ∈ steps, step.head.action.ComesFrom p := by
  induction lines generalizing position with
  | nil =>
    rw [resolveLines]
    exact .pure (List.forall_mem_nil _)
  | cons line rest ih =>
    rw [resolveLines]
    refine (offerLine_keeps h line).bind fun taken _ => ?_
    split
    · exact ih position
    · refine (resolveAction_keeps line).bind fun action comes => .bind .get fun r _ => ?_
      refine (ih _).bind fun steps hSteps => .pure (List.forall_mem_cons.2 ⟨?_, hSteps⟩)
      rw [buildStep_head]
      exact comes

theorem resolveFrom_keeps (library : SourceLibrary) (index : Nat)
    (features : List ExpandedFeature) : (resolveFrom steppers library index features).Keeps p
      fun resolved => ∀ f ∈ resolved, ∀ step ∈ f.steps, step.head.action.ComesFrom p := by
  induction features generalizing index with
  | nil =>
    rw [resolveFrom]
    exact .pure (List.forall_mem_nil _)
  | cons feature rest ih =>
    rw [resolveFrom]
    have first : (resolveFeature steppers library (SeqPath.next index) feature).Keeps p
        fun f => ∀ step ∈ f.steps, step.head.action.ComesFrom p := by
      unfold resolveFeature
      refine .bind (.forM fun s hs => .lift fun store => ?_) fun _ _ => ?_
      · obtain ⟨a, store', ran⟩ := (h s hs).startResolution feature.path store
        exact ⟨a, store', ran, trivial⟩
      · exact (resolveLines_keeps h library _ 0 feature.lines).bind fun steps hSteps => .pure hSteps
    refine first.bind fun f hf => (ih _).bind fun resolved hResolved => .pure ?_
    exact List.forall_mem_cons.2 ⟨hf, hResolved⟩

/-- Resolving returns, and a property of all definitions that the steppers offer or contribute holds
of those from which the steps come. -/
theorem resolveAll_keeps (library : SourceLibrary) (features : List ExpandedFeature) :
    (do
      resolveBackgrounds steppers library
      resolveFeatures steppers library features : Resolving σ _).Keeps p
      fun resolved => ∀ f ∈ resolved, ∀ step ∈ f.steps, step.head.action.ComesFrom p :=
  (resolveBackgrounds_keeps h library).bind fun _ _ => resolveFrom_keeps h library 0 features

end Steppers

end PlainSteps
