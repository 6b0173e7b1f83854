import PlainSteps.Proofs.Resolve.Offered

/-!
# Definitions that lines make

Lines are offered to the steppers wherever they stand, so that a stepper that defines steps in a
line does so once more each time the line comes up. A definition is added the first time only: the
resolver holds its name and the place of its line.

* `Contribution`: a definition that a stepper makes in a line; `Contribution.key`.
* `IsFirsts`: those of a list of contributions that come first under their keys.
* `Resolver.HasFirsts`: what a resolver has of the contributions up to now.
* `Resolver.addAll_hasFirsts`, `Resolver.addAll_eq_self`: what adding contributions gives, and that
  nothing is added of which the keys are there.
* `Resolving.Contributes`: all that a computation does to the resolver is to add contributions in
  turn.
* `ResolverCall.runAll_registry`: what is registered after calls to a resolver, and that nothing is
  added when the same lines come up again.

Proof-only: no module that runs imports this one.
-/

namespace PlainSteps

variable {σ α β : Type}

/-! ## Contributions -/

/-- A definition that a stepper makes in a line. -/
structure Contribution (σ : Type) where
  stepper : String
  /-- The place of the line. -/
  source : SourceLocation
  definition : StepDefinition σ

/-- The name of the step and the place of the line. -/
def Contribution.key (c : Contribution σ) : String × SourceLocation :=
  (qualifiedName c.stepper c.definition.name, c.source)

/-- Those of some contributions that come first under their keys, in order. -/
structure IsFirsts (all firsts : List (Contribution σ)) : Prop where
  sublist : firsts.Sublist all
  /-- There is just one under each key. -/
  once : ∀ c ∈ all, (firsts.map (·.key)).count c.key = 1
  /-- It is the first one. -/
  first : ∀ before c after, all = before ++ c :: after → c.key ∉ before.map (·.key) → c ∈ firsts

namespace IsFirsts

variable {all firsts : List (Contribution σ)} {c : Contribution σ}

theorem nil : IsFirsts ([] : List (Contribution σ)) [] where
  sublist := .slnil
  once := List.forall_mem_nil _
  first before c after same := by simp at same

theorem mem_keys_iff (h : IsFirsts all firsts) {key : String × SourceLocation} :
    key ∈ firsts.map (·.key) ↔ key ∈ all.map (·.key) := by
  refine ⟨fun mem => (h.sublist.map _).subset mem, fun mem => ?_⟩
  obtain ⟨c, hc, rfl⟩ := List.mem_map.1 mem
  exact List.count_pos_iff.1 (h.once c hc ▸ Nat.one_pos)

/-- The first under a key of all but the last is that of all. -/
theorem mem_of_concat (h : IsFirsts all firsts) {before after : List (Contribution σ)}
    {d : Contribution σ} (same : all ++ [c] = before ++ d :: after)
    (new : d.key ∉ before.map (·.key)) : d ∈ firsts ∨ d = c ∧ before = all := by
  rcases List.eq_nil_or_concat after with rfl | ⟨rest, e, rfl⟩
  · obtain ⟨rfl, rfl⟩ := List.append_singleton_inj.1 same
    exact .inr ⟨rfl, rfl⟩
  · rw [List.concat_eq_append, ← List.cons_append, ← List.append_assoc] at same
    exact .inl (h.first before d rest (List.append_singleton_inj.1 same).1 new)

/-- One more under a key that is there. -/
theorem concat_old (h : IsFirsts all firsts) (old : c.key ∈ firsts.map (·.key)) :
    IsFirsts (all ++ [c]) firsts where
  sublist := h.sublist.trans (List.sublist_append_left all [c])
  once := by
    refine List.forall_mem_append.2 ⟨h.once, List.forall_mem_singleton.2 ?_⟩
    obtain ⟨d, hd, same⟩ := List.mem_map.1 (h.mem_keys_iff.1 old)
    exact same ▸ h.once d hd
  first before d after same new := by
    rcases h.mem_of_concat same new with mem | ⟨rfl, rfl⟩
    · exact mem
    · exact absurd (h.mem_keys_iff.1 old) new

/-- One under a new key. -/
theorem concat_new (h : IsFirsts all firsts) (new : c.key ∉ firsts.map (·.key)) :
    IsFirsts (all ++ [c]) (firsts ++ [c]) where
  sublist := h.sublist.append (.refl [c])
  once := by
    rw [List.map_append, List.map_singleton]
    refine List.forall_mem_append.2 ⟨fun d hd => ?_, List.forall_mem_singleton.2 ?_⟩
    · have other : c.key ≠ d.key := fun same =>
        new (same ▸ h.mem_keys_iff.2 (List.mem_map_of_mem hd))
      rw [List.count_append, h.once d hd, List.count_singleton, beq_false_of_ne other]
      rfl
    · rw [List.count_append, List.count_eq_zero.2 new, List.count_singleton_self]
  first before d after same fresh := by
    rcases h.mem_of_concat same fresh with mem | ⟨rfl, -⟩
    · exact List.mem_append_left _ mem
    · exact List.mem_append_right _ List.mem_cons_self

end IsFirsts

/-! ## Adding contributions -/

namespace Resolver

/-- Adds a contribution. -/
def add (r : Resolver σ) (c : Contribution σ) : Except RegistryError (Resolver σ) :=
  r.define c.stepper c.source c.definition

/-- Adds contributions in turn. -/
def addAll (r : Resolver σ) (cs : List (Contribution σ)) : Except RegistryError (Resolver σ) :=
  cs.foldlM add r

/-- After these contributions, what was registered is followed by the first of them under each key,
with their forms read. -/
def HasFirsts (registry : StepRegistry σ) (cs : List (Contribution σ)) (r : Resolver σ) : Prop :=
  ∃ firsts steps, IsFirsts cs firsts ∧
    List.Forall₂ (IsReading registry.domains) (firsts.map fun c => (c.stepper, c.definition))
      steps ∧
    r = ⟨{ registry with steps := registry.steps ++ steps }, firsts.map (·.key)⟩

theorem add_eq (r : Resolver σ) (c : Contribution σ) : r.add c =
    if c.key ∈ r.defined then .ok r
    else match r.registry.register c.stepper c.definition with
      | .ok registry => .ok ⟨registry, r.defined ++ [c.key]⟩
      | .error e => .error e := rfl

theorem HasFirsts.add {registry : StepRegistry σ} {cs : List (Contribution σ)} {r r' : Resolver σ}
    {c : Contribution σ} (h : HasFirsts registry cs r) (added : r.add c = .ok r') :
    HasFirsts registry (cs ++ [c]) r' := by
  obtain ⟨firsts, steps, isFirsts, readings, rfl⟩ := h
  rw [add_eq] at added
  split at added
  · next old =>
    cases added
    exact ⟨firsts, steps, isFirsts.concat_old old, readings, rfl⟩
  · next new =>
    split at added
    · next registered =>
      cases added
      obtain ⟨step, read, rfl⟩ := register_eq_ok_iff.1 registered
      refine ⟨firsts ++ [c], steps ++ [step], isFirsts.concat_new new, ?_, ?_⟩
      · rw [List.map_append]
        exact List.rel_append readings (.cons read .nil)
      · simp
    · cases added

theorem HasFirsts.addAll {registry : StepRegistry σ} {cs more : List (Contribution σ)}
    {r r' : Resolver σ} (h : HasFirsts registry cs r) (added : r.addAll more = .ok r') :
    HasFirsts registry (cs ++ more) r' := by
  induction more generalizing cs r with
  | nil =>
    cases added
    rwa [List.append_nil]
  | cons c more ih =>
    obtain ⟨mid, first, rest⟩ := ok_of_bind added
    rw [List.append_cons]
    exact ih (h.add first) rest

theorem addAll_hasFirsts {registry : StepRegistry σ} {cs : List (Contribution σ)} {r : Resolver σ}
    (added : (⟨registry, []⟩ : Resolver σ).addAll cs = .ok r) : HasFirsts registry cs r := by
  have start : HasFirsts registry [] ⟨registry, []⟩ := ⟨[], [], .nil, .nil, by simp⟩
  exact start.addAll added

/-- Contributions are added no more where their keys are there. -/
theorem addAll_eq_self {r : Resolver σ} {cs : List (Contribution σ)}
    (old : ∀ c ∈ cs, c.key ∈ r.defined) : r.addAll cs = .ok r := by
  induction cs with
  | nil => rfl
  | cons c cs ih =>
    obtain ⟨own, others⟩ := List.forall_mem_cons.1 old
    have same : r.add c = .ok r := if_pos own
    rw [addAll, List.foldlM_cons, same]
    exact ih others

end Resolver

/-! ## Steppers whose answers depend on the line only -/

/-- Steppers that do not crash when they are offered a line give these answers, whatever the
store. -/
def Deterministic (steppers : List (Stepper σ))
    (answer : Stepper σ → SourcedLine → LineDisposition σ) : Prop :=
  ∀ s ∈ steppers, ∀ (line : SourcedLine) (store : σ) (disposition : LineDisposition σ)
    (store' : σ), (s.resolveLine line.text line.source).start store = (.ok disposition, store') →
      disposition = answer s line

/-- The contributions of the first stepper that deals with a line. -/
def contributions (answer : Stepper σ → SourcedLine → LineDisposition σ) (line : SourcedLine) :
    List (Stepper σ) → List (Contribution σ)
  | [] => []
  | s :: rest =>
    match answer s line with
    | .proceed => contributions answer line rest
    | .consumed => []
    | .define definitions => definitions.map (⟨s.name, line.source, ·⟩)

/-! ## Computations that add contributions -/

/-- A computation that does not crash has added some of these contributions to the resolver, in
turn and from the first on, and all of them where it gives a value. -/
def Resolving.Contributes (x : Resolving σ α) (cs : List (Contribution σ)) : Prop :=
  ∀ (r : Resolver σ) (store : σ) (answer : Except ResolveError α) (r' : Resolver σ) (store' : σ),
    (x.run.run r).start store = (.ok (answer, r'), store') →
      ∃ front, front <+: cs ∧ r.addAll front = .ok r' ∧ ∀ a, answer = .ok a → front = cs

namespace Resolving.Contributes

variable {x : Resolving σ α} {cs : List (Contribution σ)}

theorem pure (a : α) : (Pure.pure a : Resolving σ α).Contributes [] := by
  intro r store answer r' store' ran
  cases ran
  exact ⟨[], List.nil_prefix, rfl, fun _ _ => rfl⟩

theorem fail (e : ResolveError) : (throw e : Resolving σ α).Contributes cs := by
  intro r store answer r' store' ran
  cases ran
  exact ⟨[], List.nil_prefix, rfl, nofun⟩

theorem get : (MonadState.get : Resolving σ (Resolver σ)).Contributes [] := by
  intro r store answer r' store' ran
  cases ran
  exact ⟨[], List.nil_prefix, rfl, fun _ _ => rfl⟩

theorem bind {f : α → Resolving σ β} {more : List (Contribution σ)} (h : x.Contributes cs)
    (hf : ∀ a, (f a).Contributes more) : (x >>= f).Contributes (cs ++ more) := by
  intro r store answer r' store' ran
  rcases Resolving.cases_of_start_bind ran with ⟨e, ran₁, rfl⟩ | ⟨a, mid, store₁, ran₁, ran₂⟩
  · obtain ⟨front, start, added, -⟩ := h r store _ r' store' ran₁
    exact ⟨front, start.trans (List.prefix_append cs more), added, nofun⟩
  · obtain ⟨front, -, added, all⟩ := h r store _ mid store₁ ran₁
    obtain rfl := all a rfl
    obtain ⟨front', start', added', all'⟩ := hf a mid store₁ answer r' store' ran₂
    refine ⟨front ++ front', (List.prefix_append_right_inj front).2 start', ?_, fun b hb => ?_⟩
    · rw [Resolver.addAll, List.foldlM_append]
      show r.addAll front >>= (·.addAll front') = .ok r'
      rw [added]
      exact added'
    · rw [all' b hb]

/-- After a computation that adds nothing. -/
theorem after {f : α → Resolving σ β} (h : x.Contributes []) (hf : ∀ a, (f a).Contributes cs) :
    (x >>= f).Contributes cs := h.bind hf

/-- Before a computation that adds nothing. -/
theorem before {f : α → Resolving σ β} (h : x.Contributes cs) (hf : ∀ a, (f a).Contributes []) :
    (x >>= f).Contributes cs := List.append_nil cs ▸ h.bind hf

/-- A computation on the store, and what is done with its value. -/
theorem lift_bind {e : Effect σ α} {f : α → Resolving σ β}
    (h : ∀ a store store', e.start store = (.ok a, store') → (f a).Contributes cs) :
    (liftM e >>= f : Resolving σ β).Contributes cs := by
  intro r store answer r' store' ran
  rcases Resolving.cases_of_start_bind ran with ⟨_, ran₁, -⟩ | ⟨a, mid, store₁, ran₁, ran₂⟩
  · obtain ⟨_, -, none, -⟩ := ok_of_start_lift ran₁
    cases none
  · obtain ⟨a, ran₃, same, rfl⟩ := ok_of_start_lift ran₁
    cases same
    exact h a store store₁ ran₃ _ store₁ answer r' store' ran₂

theorem lift (e : Effect σ α) : (liftM e : Resolving σ α).Contributes [] := by
  intro r store answer r' store' ran
  obtain ⟨_, -, -, rfl⟩ := ok_of_start_lift ran
  exact ⟨[], List.nil_prefix, rfl, fun _ _ => rfl⟩

theorem background (path : String) (h : x.Contributes cs) :
    (inBackground path x).Contributes cs := by
  intro r store answer r' store' ran
  obtain ⟨first, ran₁, same⟩ := cases_of_start_inBackground ran
  obtain ⟨front, start, added, all⟩ := h r store first r' store' ran₁
  exact ⟨front, start, added, fun a ok => all a (same a ok)⟩

theorem forM {γ : Type} {xs : List γ} {f : γ → Resolving σ PUnit}
    {made : γ → List (Contribution σ)} (h : ∀ c ∈ xs, (f c).Contributes (made c)) :
    (xs.forM f).Contributes (xs.flatMap made) := by
  induction xs with
  | nil => exact .pure PUnit.unit
  | cons c rest ih =>
    rw [List.flatMap_cons]
    exact (h c List.mem_cons_self).bind fun _ => ih fun d hd => h d (List.mem_cons_of_mem c hd)

end Resolving.Contributes

theorem defineStep_contributes (stepper : String) (source : SourceLocation)
    (d : StepDefinition σ) : (defineStep stepper source d).Contributes [⟨stepper, source, d⟩] := by
  intro r store answer r' store' ran
  unfold defineStep at ran
  rcases Resolving.cases_of_start_bind ran with ⟨_, ran₁, -⟩ | ⟨_, _, store₁, ran₁, ran₂⟩
  · cases ran₁
  · cases ran₁
    cases added : r.define stepper source d with
    | ok mid =>
      rw [added] at ran₂
      cases ran₂
      refine ⟨_, List.prefix_refl _, ?_, fun _ _ => rfl⟩
      have one : r.add ⟨stepper, source, d⟩ = .ok r' := added
      rw [Resolver.addAll, List.foldlM_cons, one]
      rfl
    | error e =>
      rw [added] at ran₂
      cases ran₂
      exact ⟨[], List.nil_prefix, rfl, nofun⟩

section Deterministic

variable {steppers : List (Stepper σ)} {answer : Stepper σ → SourcedLine → LineDisposition σ}
  (deterministic : Deterministic steppers answer)

include deterministic

theorem offerLine_contributes (line : SourcedLine) :
    (offerLine steppers line).Contributes (contributions answer line steppers) := by
  induction steppers with
  | nil =>
    rw [offerLine]
    exact .pure false
  | cons s rest ih =>
    rw [offerLine]
    obtain ⟨own, others⟩ := List.forall_mem_cons.1 deterministic
    refine .lift_bind fun disposition store store' ran => ?_
    rw [own line store disposition store' ran, contributions]
    cases answer s line with
    | proceed => exact ih others
    | consumed => exact .pure true
    | define definitions =>
      refine .before ?_ fun _ => .pure true
      dsimp only
      rw [List.map_eq_flatMap]
      exact .forM fun d _ => defineStep_contributes s.name line.source d

omit deterministic in
theorem resolveAction_contributes (line : SourcedLine) :
    (resolveAction (σ := σ) line).Contributes [] := by
  unfold resolveAction
  refine .after .get fun r => ?_
  split
  · exact .pure _
  · exact .fail _

theorem checkLine_contributes (line : SourcedLine) :
    (checkLine steppers line).Contributes (contributions answer line steppers) := by
  unfold checkLine
  refine (offerLine_contributes deterministic line).before fun taken => ?_
  split
  · exact .pure ()
  · split
    · exact .pure ()
    · exact (resolveAction_contributes line).after fun _ => .pure ()

theorem resolveBackgrounds_contributes (library : SourceLibrary) :
    (resolveBackgrounds steppers library).Contributes
      ((library.backgrounds.flatMap (·.lines)).flatMap fun line =>
        contributions answer line steppers) := by
  rw [List.flatMap_assoc]
  exact .forM fun b _ => .background b.path
    (.forM fun line _ => checkLine_contributes deterministic line)

theorem resolveLines_contributes (library : SourceLibrary) (feature position : Nat)
    (lines : List SourcedLine) :
    (resolveLines steppers library feature position lines).Contributes
      (lines.flatMap fun line => contributions answer line steppers) := by
  induction lines generalizing position with
  | nil =>
    rw [resolveLines]
    exact .pure []
  | cons line rest ih =>
    rw [resolveLines, List.flatMap_cons]
    refine (offerLine_contributes deterministic line).bind fun taken => ?_
    split
    · exact ih position
    · refine (resolveAction_contributes line).after fun action => .after .get fun r => ?_
      exact (ih _).before fun steps => .pure _

theorem resolveFrom_contributes (library : SourceLibrary) (index : Nat)
    (features : List ExpandedFeature) :
    (resolveFrom steppers library index features).Contributes
      ((features.flatMap (·.lines)).flatMap fun line => contributions answer line steppers) := by
  induction features generalizing index with
  | nil =>
    rw [resolveFrom]
    exact .pure []
  | cons feature rest ih =>
    rw [resolveFrom, List.flatMap_cons, List.flatMap_append]
    have first : (resolveFeature steppers library (SeqPath.next index) feature).Contributes
        (feature.lines.flatMap fun line => contributions answer line steppers) := by
      unfold resolveFeature
      have told : (steppers.forM fun s =>
          (s.startResolution feature.path : Effect σ Unit) : Resolving σ Unit).Contributes [] := by
        have none : steppers.flatMap (fun _ => ([] : List (Contribution σ))) = [] :=
          List.flatMap_eq_nil_iff.2 fun _ _ => rfl
        rw [← none]
        exact .forM fun s _ => .lift (s.startResolution feature.path)
      exact told.after fun _ =>
        (resolveLines_contributes deterministic library _ 0 feature.lines).before fun _ => .pure _
    exact first.bind fun _ => (ih _).before fun _ => .pure _

end Deterministic

/-! ## Calls to a resolver -/

/-- A call to a resolver: to check the backgrounds of its library, or to resolve features. -/
inductive ResolverCall where
  | backgrounds
  | features (fs : List ExpandedFeature)

namespace ResolverCall

/-- The lines that are offered in a call. -/
def lines (library : SourceLibrary) : ResolverCall → List SourcedLine
  | backgrounds => library.backgrounds.flatMap (·.lines)
  | features fs => fs.flatMap (·.lines)

/-- Makes a call. -/
def run (steppers : List (Stepper σ)) (library : SourceLibrary) : ResolverCall → Resolving σ Unit
  | backgrounds => resolveBackgrounds steppers library
  | features fs => discard (resolveFeatures steppers library fs)

/-- Makes calls in turn, up to the first that fails. -/
def runAll (steppers : List (Stepper σ)) (library : SourceLibrary) (calls : List ResolverCall) :
    Resolving σ Unit := calls.forM (run steppers library)

/-- What steppers contribute in the lines of calls. -/
def allContributions (answer : Stepper σ → SourcedLine → LineDisposition σ)
    (steppers : List (Stepper σ)) (library : SourceLibrary) (calls : List ResolverCall) :
    List (Contribution σ) :=
  (calls.flatMap (lines library)).flatMap fun line => contributions answer line steppers

variable {steppers : List (Stepper σ)} {answer : Stepper σ → SourcedLine → LineDisposition σ}

theorem run_contributes (deterministic : Deterministic steppers answer) (library : SourceLibrary)
    (call : ResolverCall) : (call.run steppers library).Contributes
      ((call.lines library).flatMap fun line => contributions answer line steppers) := by
  cases call with
  | backgrounds => exact resolveBackgrounds_contributes deterministic library
  | features fs =>
    exact (resolveFrom_contributes deterministic library 0 fs).before fun _ => .pure ()

theorem runAll_contributes (deterministic : Deterministic steppers answer)
    (library : SourceLibrary) (calls : List ResolverCall) :
    (runAll steppers library calls).Contributes
      (allContributions answer steppers library calls) := by
  rw [allContributions, List.flatMap_assoc]
  exact .forM fun call _ => run_contributes deterministic library call

/-- After calls that succeed, the first steps of the registry are followed by a step for each name
and place of what lines contribute, for the first such contribution and in their order, however
often a line comes up. Calls with no other lines then leave the resolver as it is, also where they
fail. -/
theorem runAll_registry (deterministic : Deterministic steppers answer) (library : SourceLibrary)
    (registry : StepRegistry σ) (calls : List ResolverCall) (store : σ) (r : Resolver σ)
    (store' : σ) (ran : ((runAll steppers library calls).run.run ⟨registry, []⟩).start store =
      (.ok (.ok (), r), store')) :
    (∃ firsts steps, IsFirsts (allContributions answer steppers library calls) firsts ∧
      List.Forall₂ (IsReading registry.domains)
        (firsts.map fun c => (c.stepper, c.definition)) steps ∧
      r = ⟨{ registry with steps := registry.steps ++ steps }, firsts.map (·.key)⟩) ∧
    ∀ (again : List ResolverCall) (before : σ) (outcome : Except ResolveError Unit)
      (r' : Resolver σ) (after : σ),
      again.flatMap (lines library) ⊆ calls.flatMap (lines library) →
      ((runAll steppers library again).run.run r).start before = (.ok (outcome, r'), after) →
        r' = r := by
  obtain ⟨all, -, added, whole⟩ := runAll_contributes deterministic library calls _ _ _ _ _ ran
  obtain rfl := whole () rfl
  have made := Resolver.addAll_hasFirsts added
  refine ⟨made, fun again before outcome r' after inside ran' => ?_⟩
  obtain ⟨front, start, added', -⟩ :=
    runAll_contributes deterministic library again _ _ _ _ _ ran'
  obtain ⟨firsts, steps, isFirsts, -, rfl⟩ := made
  have old : ∀ c ∈ front, c.key ∈ firsts.map (·.key) := by
    intro c hc
    obtain ⟨line, hl, hc⟩ := List.mem_flatMap.1 (start.subset hc)
    exact isFirsts.mem_keys_iff.2
      (List.mem_map_of_mem (List.mem_flatMap.2 ⟨line, inside hl, hc⟩))
  exact Except.ok.inj (added'.symm.trans (Resolver.addAll_eq_self old))

end ResolverCall

/-- A step that is named as it is written. -/
def namedStep (name : String) : StepDefinition Unit where
  name
  form := .exact name
  action _ := return .ok .passed

/-- What the stepper of waves does with a line. -/
def introduceWaves (line : SourcedLine) : LineDisposition Unit :=
  if line.text = "there are waves" then .define [namedStep "wave", namedStep "splash"]
  else .proceed

/-- A stepper that only has the steps that it defines in lines. -/
def waveStepper : Stepper Unit where
  name := "sea"
  steps := []
  resolveLine text source := return introduceWaves ⟨source, text⟩

theorem deterministic_waveStepper : Deterministic [waveStepper] fun _ => introduceWaves := by
  refine List.forall_mem_singleton.2 fun line store disposition store' ran => ?_
  cases ran
  rfl

/-- A background in which there are waves. -/
def waveLibrary : SourceLibrary := ⟨[⟨"sea.feature", "there are waves", ""⟩], []⟩

/-- A feature in which the line of the background comes up twice. -/
def waveFeature : ExpandedFeature where
  path := "a.feature"
  base := ""
  lines := [⟨⟨"sea.feature", 1⟩, "there are waves"⟩, ⟨⟨"a.feature", 2⟩, "wave"⟩,
    ⟨⟨"sea.feature", 1⟩, "there are waves"⟩, ⟨⟨"a.feature", 4⟩, "splash"⟩]

/-- The calls of a run. -/
def waveCalls : List ResolverCall := [.backgrounds, .features [waveFeature]]

/-- The outcome of these calls, and the resolver after them. -/
def runWaves? (r : Resolver Unit) : Option (Except ResolveError Unit × Resolver Unit) :=
  (((ResolverCall.runAll [waveStepper] waveLibrary waveCalls).run.run r).start ()).1.toOption

/-- The resolver after these calls to an empty one. -/
def waveResolver : Resolver Unit := ((runWaves? ⟨⟨[], []⟩, []⟩).map (·.2)).getD ⟨⟨[], []⟩, []⟩

theorem exists_of_runWaves? {r : Resolver Unit} (h : (runWaves? r).map (·.1.isOk) = some true) :
    ∃ r', runWaves? r = some (.ok (), r') ∧
      ((ResolverCall.runAll [waveStepper] waveLibrary waveCalls).run.run r).start () =
        (.ok (.ok (), r'), ()) := by
  unfold runWaves? at *
  generalize ((ResolverCall.runAll [waveStepper] waveLibrary waveCalls).run.run r).start () = q at *
  obtain ⟨_ | ⟨_ | _, r'⟩, _⟩ := q
  · cases h
  · cases h
  · exact ⟨r', rfl, rfl⟩

/-- Two steps are contributed three times each, and registered once. The same calls again add
nothing. -/
theorem ResolverCall.runAll_registry_waves : ∃ r,
    ((runAll [waveStepper] waveLibrary waveCalls).run.run ⟨⟨[], []⟩, []⟩).start () =
      (.ok (.ok (), r), ()) ∧
    (allContributions (fun _ => introduceWaves) [waveStepper] waveLibrary waveCalls).length = 6 ∧
    (∃ firsts, IsFirsts
        (allContributions (fun _ => introduceWaves) [waveStepper] waveLibrary waveCalls) firsts ∧
      firsts.map (·.key) =
        [("sea.wave", ⟨"sea.feature", 1⟩), ("sea.splash", ⟨"sea.feature", 1⟩)]) ∧
    r.registry.steps.map (·.name) = ["sea.wave", "sea.splash"] ∧
    ((runAll [waveStepper] waveLibrary waveCalls).run.run r).start () =
      (.ok (.ok (), r), ()) := by
  obtain ⟨r, found, ran⟩ := exists_of_runWaves? (r := ⟨⟨[], []⟩, []⟩) (by decide +kernel)
  have same : waveResolver = r := by
    rw [waveResolver, found]
    rfl
  have defined : r.defined =
      [("sea.wave", ⟨"sea.feature", 1⟩), ("sea.splash", ⟨"sea.feature", 1⟩)] := by
    rw [← same]
    decide +kernel
  have registered : r.registry.steps.map (·.name) = ["sea.wave", "sea.splash"] := by
    rw [← same]
    decide +kernel
  obtain ⟨r', -, ran'⟩ := exists_of_runWaves? (r := waveResolver) (by decide +kernel)
  rw [same] at ran'
  obtain ⟨⟨firsts, steps, isFirsts, -, made⟩, still⟩ :=
    runAll_registry deterministic_waveStepper waveLibrary ⟨[], []⟩ waveCalls () r () ran
  obtain rfl := still waveCalls () _ r' () (List.Subset.refl _) ran'
  refine ⟨r', ran, by decide +kernel, ⟨firsts, isFirsts, ?_⟩, registered, ran'⟩
  rw [← defined, made]

end PlainSteps
