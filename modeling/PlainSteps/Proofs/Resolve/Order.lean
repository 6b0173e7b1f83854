import Mathlib.Data.List.Perm.Basic
import PlainSteps.Proofs.Effect
import PlainSteps.Resolve.Statement

/-!
# The order of registration

Which step a line gets depends on what is registered, and not on the order of registration.

* `StepRegistry.candidates_cons_of_none`, `StepRegistry.candidates_cons_of_some`: the candidates, step
  by step.
* `chooseCandidate_eq`, `chooseCandidate_perm`: the choice among candidates, and that their order
  does not matter for it.
* `SameFinding`: two answers to what a line resolves to that differ at most in the order in which
  they name candidates.
* `register_foldlM_iff`: what registering several definitions gives.
* `findAction_sameFinding`: the order of registered steps, of definitions and of steppers does not
  matter.

Proof-only: no module that runs imports this one.
-/

namespace PlainSteps

variable {σ : Type}

/-! ## Candidates -/

namespace StepRegistry

variable {stepper : String} {d : StepDefinition σ} {m : Matcher} {line : String}
  {captures : List Capture} {steps : List (RegisteredStep σ)} {domains : List String}

/-- A step that does not match a line is no candidate. -/
theorem candidates_cons_of_none (h : m.match? line = none) :
    candidates ⟨⟨stepper, d, m⟩ :: steps, domains⟩ line = candidates ⟨steps, domains⟩ line :=
  List.filterMap_cons_none (congrArg (Option.map _) h)

/-- A step that matches a line comes before the candidates among the steps after it. -/
theorem candidates_cons_of_some (h : m.match? line = some captures) :
    candidates ⟨⟨stepper, d, m⟩ :: steps, domains⟩ line =
      ⟨⟨stepper, d, m⟩, captures⟩ :: candidates ⟨steps, domains⟩ line :=
  List.filterMap_cons_some (congrArg (Option.map _) h)

theorem candidates_nil : candidates (σ := σ) ⟨[], domains⟩ line = [] := rfl

end StepRegistry

/-! ## Choosing among candidates -/

/-- The only item of a list, if there is just one. -/
def only? {α : Type} : List α → Option α
  | [a] => some a
  | _ => none

theorem only?_perm {α : Type} {xs ys : List α} (h : xs.Perm ys) : only? xs = only? ys := by
  cases xs with
  | nil => rw [h.nil_eq]
  | cons a xs =>
    cases xs with
    | nil => rw [List.singleton_perm.1 h]
    | cons b xs =>
      obtain ⟨c, d, ys, rfl⟩ : ∃ c d more, ys = c :: d :: more := by
        have length := h.length_eq
        cases ys with
        | nil => cases length
        | cons c ys =>
          cases ys with
          | nil => cases length
          | cons d ys => exact ⟨c, d, ys, rfl⟩
      rfl

/-- The choice is the only unique candidate or else the only one that no other makes give way. -/
theorem chooseCandidate_eq (cs : List (Candidate σ)) :
    chooseCandidate cs = (only? (cs.filter (·.step.definition.unique))).or
      (only? (withoutPrecluded (withoutFallbacks cs))) := by
  unfold chooseCandidate
  generalize cs.filter (·.step.definition.unique) = unique
  generalize withoutPrecluded (withoutFallbacks cs) = left
  rcases unique with _ | ⟨c, _ | ⟨c', unique⟩⟩ <;> rcases left with _ | ⟨d, _ | ⟨d', left⟩⟩ <;> rfl

theorem withoutFallbacks_perm {cs cs' : List (Candidate σ)} (h : cs.Perm cs') :
    (withoutFallbacks cs).Perm (withoutFallbacks cs') := by
  unfold withoutFallbacks
  rw [List.Perm.any_eq h]
  split
  · exact h.filter _
  · exact h

theorem withoutPrecluded_perm {cs cs' : List (Candidate σ)} (h : cs.Perm cs') :
    (withoutPrecluded cs).Perm (withoutPrecluded cs') := by
  have precluded : (cs.flatMap (·.step.definition.precludes)).Perm
      (cs'.flatMap (·.step.definition.precludes)) := h.flatMap fun c _ => .refl _
  have same : (fun c : Candidate σ =>
      !(cs.flatMap (·.step.definition.precludes)).contains c.step.name) =
        fun c => !(cs'.flatMap (·.step.definition.precludes)).contains c.step.name := by
    funext c
    rw [precluded.contains_eq]
  unfold withoutPrecluded
  simp only
  rw [same]
  exact h.filter _

/-- The order of candidates does not matter for the choice among them. -/
theorem chooseCandidate_perm {cs cs' : List (Candidate σ)} (h : cs.Perm cs') :
    chooseCandidate cs = chooseCandidate cs' := by
  rw [chooseCandidate_eq, chooseCandidate_eq, only?_perm (h.filter _),
    only?_perm (withoutPrecluded_perm (withoutFallbacks_perm h))]

/-! ## Finding the action of a line -/

/-- Two answers to what a line resolves to that differ at most in the order in which they name
candidates. -/
inductive SameFinding (text : String) (location : SourceLocation) :
    Except ResolveError (StepAction σ) → Except ResolveError (StepAction σ) → Prop
  | resolved (action : StepAction σ) : SameFinding text location (.ok action) (.ok action)
  | noStep :
    SameFinding text location (.error (.noStep text location)) (.error (.noStep text location))
  | ambiguous {names names' : List String} (h : names.Perm names') :
    SameFinding text location (.error (.ambiguous text location names))
      (.error (.ambiguous text location names'))

/-- The order of registered steps does not matter. -/
theorem findAction_perm {r r' : StepRegistry σ} (h : r.steps.Perm r'.steps) (text : String)
    (location : SourceLocation) :
    SameFinding text location (findAction r text location) (findAction r' text location) := by
  have candidates : (r.candidates text).Perm (r'.candidates text) := h.filterMap _
  unfold findAction
  simp only
  rw [candidates.isEmpty_eq, chooseCandidate_perm candidates]
  split
  · exact .noStep
  · cases chooseCandidate (r'.candidates text) with
    | some c => exact .resolved _
    | none => exact .ambiguous (candidates.map _)

/-! ## Registering definitions -/

/-- The definitions of steppers, each with the name of its stepper. -/
def definitionsOf (steppers : List (Stepper σ)) : List (String × StepDefinition σ) :=
  steppers.flatMap fun s => s.steps.map (s.name, ·)

/-- A step is a definition of a stepper with its form read against some domains. -/
structure IsReading (known : List String) (d : String × StepDefinition σ)
    (step : RegisteredStep σ) : Prop where
  stepper : step.stepper = d.1
  definition : step.definition = d.2
  matcher : Matcher.ofForm known d.2.form = .ok step.matcher

theorem register_eq_ok_iff {r r' : StepRegistry σ} {stepper : String} {d : StepDefinition σ} :
    r.register stepper d = .ok r' ↔
      ∃ step, IsReading r.domains (stepper, d) step ∧
        r' = { r with steps := r.steps ++ [step] } := by
  unfold StepRegistry.register
  constructor
  · intro h
    split at h
    · next matcher read =>
      cases h
      exact ⟨⟨stepper, d, matcher⟩, ⟨rfl, rfl, read⟩, rfl⟩
    · cases h
  · rintro ⟨⟨_, _, matcher⟩, ⟨rfl, rfl, read⟩, rfl⟩
    rw [read]

/-- Registering definitions in turn adds the steps that they are read as. -/
theorem register_foldlM_iff {r r' : StepRegistry σ} {ds : List (String × StepDefinition σ)} :
    ds.foldlM (fun r d => r.register d.1 d.2) r = .ok r' ↔
      ∃ steps, List.Forall₂ (IsReading r.domains) ds steps ∧
        r' = { r with steps := r.steps ++ steps } := by
  induction ds generalizing r with
  | nil =>
    simp only [List.foldlM_nil, List.forall₂_nil_left_iff, exists_eq_left, List.append_nil]
    exact ⟨fun h => (Except.ok.inj h).symm, fun h => congrArg Except.ok h.symm⟩
  | cons d ds ih =>
    rw [List.foldlM_cons]
    constructor
    · intro h
      obtain ⟨mid, first, h⟩ := ok_of_bind h
      obtain ⟨step, read, rfl⟩ := register_eq_ok_iff.1 first
      obtain ⟨steps, others, rfl⟩ := ih.1 h
      exact ⟨step :: steps, .cons read others, by simp⟩
    · rintro ⟨_, _ | ⟨read, others⟩, rfl⟩
      rw [register_eq_ok_iff.2 ⟨_, read, rfl⟩]
      exact ih.2 ⟨_, others, by simp⟩

theorem ofSteppers_eq_foldlM (steppers : List (Stepper σ)) (domains : DomainRegistry) :
    StepRegistry.ofSteppers steppers domains =
      (definitionsOf steppers).foldlM (fun r d => r.register d.1 d.2) (.empty domains) := by
  unfold StepRegistry.ofSteppers
  generalize StepRegistry.empty domains = r
  induction steppers generalizing r with
  | nil => rfl
  | cons s steppers ih =>
    have own : r.registerStepper s =
        (s.steps.map (s.name, ·)).foldlM (fun r d => r.register d.1 d.2) r := by
      rw [List.foldlM_map]
      rfl
    rw [List.foldlM_cons, definitionsOf, List.flatMap_cons, List.foldlM_append, ← own]
    exact congrArg (r.registerStepper s >>= ·) (funext ih)

/-- Definitions with matchers for their forms. -/
def withMatchers (ds : List (String × StepDefinition σ)) (ms : List Matcher) :
    List (RegisteredStep σ) := ds.zipWith (fun d m => ⟨d.1, d.2, m⟩) ms

/-- Steppers are registered where all forms are read, each step with what its form is read as. -/
theorem ofSteppers_eq_ok {steppers : List (Stepper σ)} {domains : DomainRegistry}
    (ms : List Matcher) (read : List.Forall₂
      (fun d m => Matcher.ofForm domains.names d.2.form = .ok m) (definitionsOf steppers) ms) :
    StepRegistry.ofSteppers steppers domains =
      .ok ⟨withMatchers (definitionsOf steppers) ms, domains.names⟩ := by
  have readings : List.Forall₂ (IsReading domains.names) (definitionsOf steppers)
      (withMatchers (definitionsOf steppers) ms) := by
    generalize definitionsOf steppers = ds at read
    induction read with
    | nil => exact .nil
    | cons own _ ih => exact .cons ⟨rfl, rfl, own⟩ ih
  rw [ofSteppers_eq_foldlM]
  exact register_foldlM_iff.2 ⟨_, readings, rfl⟩

/-- Definitions in another order are registered as well, as the same steps in another order. -/
theorem ofSteppers_perm {steppers steppers' : List (Stepper σ)} {domains : DomainRegistry}
    {r : StepRegistry σ} (h : (definitionsOf steppers).Perm (definitionsOf steppers'))
    (registered : StepRegistry.ofSteppers steppers domains = .ok r) :
    ∃ r', StepRegistry.ofSteppers steppers' domains = .ok r' ∧ r.steps.Perm r'.steps := by
  rw [ofSteppers_eq_foldlM] at registered
  obtain ⟨steps, read, rfl⟩ := register_foldlM_iff.1 registered
  obtain ⟨steps', read', same⟩ := List.perm_comp_forall₂ h.symm read
  have registered' := register_foldlM_iff.2 ⟨steps', read', rfl⟩
  rw [← ofSteppers_eq_foldlM] at registered'
  exact ⟨_, registered', same.symm.append_left _⟩

/-- The action of a line depends on the steps that are registered, and not on their order: not on
that of the registry, nor on that in which steppers and their definitions were registered. -/
theorem findAction_sameFinding (text : String) (location : SourceLocation) :
    (∀ r r' : StepRegistry σ, r.steps.Perm r'.steps →
      SameFinding text location (findAction r text location) (findAction r' text location)) ∧
    ∀ (steppers steppers' : List (Stepper σ)) (domains : DomainRegistry) (r : StepRegistry σ),
      (definitionsOf steppers).Perm (definitionsOf steppers') →
      StepRegistry.ofSteppers steppers domains = .ok r →
      ∃ r', StepRegistry.ofSteppers steppers' domains = .ok r' ∧
        SameFinding text location (findAction r text location) (findAction r' text location) := by
  refine ⟨fun r r' h => findAction_perm h text location, ?_⟩
  intro steppers steppers' domains r h registered
  obtain ⟨r', registered', steps⟩ := ofSteppers_perm h registered
  exact ⟨r', registered', findAction_perm steps text location⟩

/-- A stepper with one step, which opens a door. -/
def doorStepper (name : String) (unique : Bool) : Stepper Unit where
  name
  steps := [{ name := "open", form := .exact "open the door", unique,
              action := fun _ => return .ok .passed }]

/-- Two steppers offer the step of a line, and the unique one is chosen in either order. -/
theorem findAction_doors : ∃ r r' : StepRegistry Unit,
    StepRegistry.ofSteppers [doorStepper "Doors" false, doorStepper "Keys" true] .initial = .ok r ∧
    StepRegistry.ofSteppers [doorStepper "Keys" true, doorStepper "Doors" false] .initial = .ok r' ∧
    SameFinding "Given open the door" ⟨"f.feature", 1⟩
      (findAction r "Given open the door" ⟨"f.feature", 1⟩)
      (findAction r' "Given open the door" ⟨"f.feature", 1⟩) ∧
    (findAction r "Given open the door" ⟨"f.feature", 1⟩).toOption.map (·.qualifiedName) =
      some "Keys.open" := by
  obtain ⟨r', registered', same⟩ :=
    (findAction_sameFinding "Given open the door" ⟨"f.feature", 1⟩).2
      [doorStepper "Doors" false, doorStepper "Keys" true]
      [doorStepper "Keys" true, doorStepper "Doors" false] .initial _ (List.Perm.swap _ _ _) rfl
  exact ⟨_, r', rfl, registered', same, by decide +kernel⟩

end PlainSteps
