import PlainSteps.Proofs.Resolve.Order

/-!
# Fallbacks give way

A fallback that is not unique is out of the choice as soon as another candidate is there. What it
precludes then does not count, so that adding it changes no line that has a proper step.

* `StepDefinition.GivesWay`: the definitions that are fallbacks and not unique.
* `chooseCandidate_insert`: such a candidate does not change a choice among others.
* `findAction_insert`: such a step does not change what lines with other candidates resolve to,
  wherever in the registry it stands and whatever it precludes.

Proof-only: no module that runs imports this one.
-/

namespace PlainSteps

variable {σ : Type}

/-- A definition that is a fallback and not unique. -/
structure StepDefinition.GivesWay (d : StepDefinition σ) : Prop where
  fallback : d.fallback = true
  common : d.unique = false

/-- Among these candidates is one that is no fallback. -/
def HasProper (cs : List (Candidate σ)) : Prop := ∃ c ∈ cs, c.step.definition.fallback = false

/-! ## Choosing among candidates -/

theorem withoutFallbacks_of_hasProper {cs : List (Candidate σ)} (h : HasProper cs) :
    withoutFallbacks cs = cs.filter (! ·.step.definition.fallback) := by
  obtain ⟨c, mem, proper⟩ := h
  exact if_pos (List.any_eq_true.2 ⟨c, mem, by rw [proper]; rfl⟩)

section Insert

variable {before after : List (Candidate σ)} {c : Candidate σ}

theorem HasProper.insert (h : HasProper (before ++ after)) : HasProper (before ++ c :: after) := by
  obtain ⟨d, mem, proper⟩ := h
  refine ⟨d, ?_, proper⟩
  rcases List.mem_append.1 mem with mem | mem
  · exact List.mem_append_left _ mem
  · exact List.mem_append_right _ (List.mem_cons_of_mem c mem)

/-- A candidate that gives way does not change the choice among others, of which one is proper. -/
theorem chooseCandidate_insert (h : HasProper (before ++ after))
    (gives : c.step.definition.GivesWay) :
    chooseCandidate (before ++ c :: after) = chooseCandidate (before ++ after) := by
  have unique : (before ++ c :: after).filter (·.step.definition.unique) =
      (before ++ after).filter (·.step.definition.unique) := by
    rw [List.filter_append, List.filter_cons_of_neg (by simp [gives.common]), ← List.filter_append]
  -- Fallbacks are dropped before it is asked what candidates preclude.
  have proper : withoutFallbacks (before ++ c :: after) = withoutFallbacks (before ++ after) := by
    rw [withoutFallbacks_of_hasProper h.insert, withoutFallbacks_of_hasProper h,
      List.filter_append, List.filter_cons_of_neg (by simp [gives.fallback]), ← List.filter_append]
  rw [chooseCandidate_eq, chooseCandidate_eq, unique, proper]

end Insert

/-! ## Finding the action of a line -/

theorem findAction_eq_ok_iff {r : StepRegistry σ} {text : String} {location : SourceLocation}
    {action : StepAction σ} :
    findAction r text location = .ok action ↔ ∃ c, chooseCandidate (r.candidates text) = some c ∧
      action = .resolved c.step.stepper c.step.definition c.captures := by
  unfold findAction
  simp only
  split
  · next empty =>
    rw [List.isEmpty_iff.1 empty]
    exact iff_of_false (fun h => nomatch h) fun ⟨_, h, _⟩ => nomatch h
  · cases chooseCandidate (r.candidates text) with
    | some c =>
      constructor
      · intro h
        exact ⟨c, rfl, (Except.ok.inj h).symm⟩
      · rintro ⟨_, same, rfl⟩
        rw [← Option.some.inj same]
    | none => exact iff_of_false (fun h => nomatch h) fun ⟨_, h, _⟩ => nomatch h

section Insert

variable {r r' : StepRegistry σ} {before after : List (RegisteredStep σ)}
  {added : RegisteredStep σ}

/-- The candidates of a line after a step has been added are those before, and possibly one of the
step. -/
theorem candidates_insert (steps : r.steps = before ++ after)
    (steps' : r'.steps = before ++ added :: after) (text : String) :
    r'.candidates text = r.candidates text ∨ ∃ front rest captures,
      r.candidates text = front ++ rest ∧
      r'.candidates text = front ++ ⟨added, captures⟩ :: rest := by
  unfold StepRegistry.candidates
  rw [steps, steps', List.filterMap_append, List.filterMap_append]
  cases found : added.matcher.match? text with
  | none => exact .inl (by rw [List.filterMap_cons_none (by rw [found]; rfl)])
  | some captures =>
    refine .inr ⟨_, _, captures, rfl, ?_⟩
    rw [List.filterMap_cons_some (by rw [found]; rfl)]

/-- A step that gives way does not change what a line with a proper candidate resolves to. -/
theorem findAction_insert_iff (steps : r.steps = before ++ after)
    (steps' : r'.steps = before ++ added :: after) (gives : added.definition.GivesWay)
    {text : String} (proper : HasProper (r.candidates text)) (location : SourceLocation)
    (action : StepAction σ) :
    findAction r' text location = .ok action ↔ findAction r text location = .ok action := by
  rw [findAction_eq_ok_iff, findAction_eq_ok_iff]
  rcases candidates_insert steps steps' text with same | ⟨front, rest, captures, old, new⟩
  · rw [same]
  · rw [old] at proper
    rw [old, new, chooseCandidate_insert proper gives]

end Insert

/-! ## Registering definitions -/

/-- Definitions are registered without one of them as well, and the steps are the same but for the
one that this definition makes. -/
theorem ofSteppers_without {steppers steppers' : List (Stepper σ)} {domains : DomainRegistry}
    {before after : List (String × StepDefinition σ)} {d : String × StepDefinition σ}
    {r' : StepRegistry σ} (offered : definitionsOf steppers = before ++ after)
    (offered' : definitionsOf steppers' = before ++ d :: after)
    (registered : StepRegistry.ofSteppers steppers' domains = .ok r') :
    ∃ r front step rest, StepRegistry.ofSteppers steppers domains = .ok r ∧
      r.steps = front ++ rest ∧ r'.steps = front ++ step :: rest ∧ step.definition = d.2 := by
  rw [ofSteppers_eq_foldlM, offered', List.foldlM_append] at registered
  obtain ⟨_, first, second⟩ := ok_of_bind registered
  obtain ⟨front, readFront, rfl⟩ := register_foldlM_iff.1 first
  rw [List.foldlM_cons] at second
  obtain ⟨_, own, third⟩ := ok_of_bind second
  obtain ⟨step, readStep, rfl⟩ := register_eq_ok_iff.1 own
  obtain ⟨rest, readRest, rfl⟩ := register_foldlM_iff.1 third
  have read : List.Forall₂ (IsReading domains.names) (before ++ after) (front ++ rest) :=
    List.rel_append readFront readRest
  have registered' := (register_foldlM_iff (r := .empty domains)).2 ⟨_, read, rfl⟩
  rw [← offered, ← ofSteppers_eq_foldlM] at registered'
  exact ⟨_, front, step, rest, registered', rfl, by simp [StepRegistry.empty],
    readStep.definition⟩

/-- A step that is a fallback and not unique takes no line from a proper step and makes none
ambiguous, whatever its form is, whatever it precludes, and wherever it stands: among the steps of a
registry, or among the definitions that are registered. A line with a proper candidate resolves to
an action with it exactly if it resolves to that action without it. -/
theorem findAction_insert {r : StepRegistry σ} {text : String}
    (proper : HasProper (r.candidates text)) (location : SourceLocation) (action : StepAction σ) :
    (∀ before added after, r.steps = before ++ after → added.definition.GivesWay →
      (findAction { r with steps := before ++ added :: after } text location = .ok action ↔
        findAction r text location = .ok action)) ∧
    ∀ (steppers steppers' : List (Stepper σ)) (domains : DomainRegistry) (r' : StepRegistry σ)
      (before after : List (String × StepDefinition σ)) (d : String × StepDefinition σ),
      StepRegistry.ofSteppers steppers domains = .ok r →
      StepRegistry.ofSteppers steppers' domains = .ok r' →
      definitionsOf steppers = before ++ after → definitionsOf steppers' = before ++ d :: after →
      d.2.GivesWay →
      (findAction r' text location = .ok action ↔ findAction r text location = .ok action) := by
  constructor
  · intro before added after steps gives
    exact findAction_insert_iff steps rfl gives proper location action
  · intro steppers steppers' domains r' before after d registered registered' offered offered' gives
    obtain ⟨r₀, front, step, rest, again, steps, steps', own⟩ :=
      ofSteppers_without offered offered' registered'
    obtain rfl := Except.ok.inj (again.symm.trans registered)
    exact findAction_insert_iff steps steps' (own ▸ gives) proper location action

/-- A stepper whose only step is a fallback for the line that opens a door, and precludes the step
of the stepper for doors. -/
def guessStepper : Stepper Unit where
  name := "Guesses"
  steps := [{ name := "open", form := .exact "open the door", fallback := true,
              precludes := ["Doors.open"], action := fun _ => return .ok .passed }]

/-- The fallback is registered before the proper step, matches the same line and precludes the
proper step, which still is what the line resolves to. -/
theorem findAction_insert_doors : ∃ r r' : StepRegistry Unit,
    StepRegistry.ofSteppers [doorStepper "Doors" false] .initial = .ok r ∧
    StepRegistry.ofSteppers [guessStepper, doorStepper "Doors" false] .initial = .ok r' ∧
    HasProper (r.candidates "Given open the door") ∧
    (r'.candidates "Given open the door").length = 2 ∧
    ∃ action, findAction r "Given open the door" ⟨"f.feature", 1⟩ = .ok action ∧
      findAction r' "Given open the door" ⟨"f.feature", 1⟩ = .ok action ∧
      action.qualifiedName = "Doors.open" := by
  obtain ⟨r, registered, candidate, found⟩ : ∃ r : StepRegistry Unit,
      StepRegistry.ofSteppers [doorStepper "Doors" false] .initial = .ok r ∧
      ((r.candidates "Given open the door").any (! ·.step.definition.fallback)) = true ∧
      (findAction r "Given open the door" ⟨"f.feature", 1⟩).toOption.map (·.qualifiedName) =
        some "Doors.open" := ⟨_, rfl, by decide +kernel, by decide +kernel⟩
  obtain ⟨r', registered', both⟩ : ∃ r' : StepRegistry Unit,
      StepRegistry.ofSteppers [guessStepper, doorStepper "Doors" false] .initial = .ok r' ∧
      (r'.candidates "Given open the door").length = 2 := ⟨_, rfl, by decide +kernel⟩
  obtain ⟨action, resolved, name⟩ : ∃ action,
      findAction r "Given open the door" ⟨"f.feature", 1⟩ = .ok action ∧
      action.qualifiedName = "Doors.open" := by
    cases resolved : findAction r "Given open the door" ⟨"f.feature", 1⟩ with
    | ok action =>
      rw [resolved] at found
      exact ⟨action, rfl, Option.some.inj found⟩
    | error e =>
      rw [resolved] at found
      cases found
  have proper : HasProper (r.candidates "Given open the door") := by
    obtain ⟨c, mem, proper⟩ := List.any_eq_true.1 candidate
    exact ⟨c, mem, by simpa using proper⟩
  have same := (findAction_insert proper ⟨"f.feature", 1⟩ action).2 [doorStepper "Doors" false]
    [guessStepper, doorStepper "Doors" false] .initial r' [] _ _ registered registered' rfl rfl
    ⟨rfl, rfl⟩
  exact ⟨r, r', registered, registered', proper, both, action, resolved, same.2 resolved, name⟩

end PlainSteps
