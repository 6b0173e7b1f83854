import PlainSteps.Proofs.Effect
import PlainSteps.Run.Execute

/-!
# Steps that pass

A step whose terms have no values changes nothing. Otherwise it does what its action does, and its
result is what the action ends with. In a feature, a step that comes after steps that all pass runs
from the session that they leave, and its result is reported in its place.

* `start_executeStep_of_fault`, `start_executeStep_of_values`: what a step does.
* `Passes`: steps that pass in turn take a session to another.
* `Passes.reported`: the step after them in a feature.

Proof-only: no module that runs imports this one.
-/

namespace PlainSteps

variable {σ : Type} {ctx : RunContext σ}

/-! ## One step -/

/-- What the action of a step sees, once its terms have values. -/
def FeatureStep.context (step : FeatureStep σ) (ctx : RunContext σ) (vars : Variables) :
    ActionContext σ :=
  { step := step.head.view, vars, domains := ctx.domains, config := ctx.config,
    runStatement := fun label => executeStatement ctx label step.nested }

theorem executeStep_eq (ctx : RunContext σ) (step : FeatureStep σ) :
    executeStep ctx step = (invoke ctx step.head fun label =>
      executeStatement ctx label step.nested) >>= fun answer =>
        pure (step.head.result answer.1 answer.2) := by
  cases step
  rw [executeStep]
  rfl

section Step

variable {step : FeatureStep σ} {d : StepDefinition σ}
  (resolved : step.head.action.kind = .defined d) {s : Session σ}

include resolved

/-- A step whose terms have no values fails and changes nothing. -/
theorem start_executeStep_of_fault {e : PopulateError}
    (fault : populate s.world ctx.domains ctx.config.env step.head.action.captures = .error e) :
    (executeStep ctx step).start s =
      (.ok (step.head.result ∅ (.failed step.head.action.qualifiedName e.message)), s) := by
  rw [executeStep_eq, invoke, resolved]
  simp only [Effect.start_bind, Effect.start_readWorld, fault]
  rfl

/-- A step whose terms have values does what its action does. -/
theorem start_executeStep_of_values {vars : Variables} {s' : Session σ}
    {answer : Except Crash (Except Fault ActionOutcome)}
    (values : populate s.world ctx.domains ctx.config.env step.head.action.captures = .ok vars)
    (ran : (d.action (step.context ctx vars)).start s = (answer, s')) :
    (executeStep ctx step).start s =
      (.ok (step.head.result vars (settle step.head.action.qualifiedName answer)), s') := by
  rw [FeatureStep.context] at ran
  rw [executeStep_eq, invoke, resolved]
  simp only [Effect.start_bind, Effect.start_readWorld, values, Effect.start_attempt, ran]
  rfl

end Step

/-! ## Steps in turn -/

/-- Steps that pass in turn take a session to another. -/
inductive Passes (ctx : RunContext σ) : List (FeatureStep σ) → Session σ → Session σ → Prop
  | nil (s : Session σ) : Passes ctx [] s s
  | cons {step : FeatureStep σ} {rest : List (FeatureStep σ)} {s mid s' : Session σ}
    {r : StepResult} (ran : (executeStep ctx step).start s = (.ok r, mid)) (ok : r.ok = true)
    (h : Passes ctx rest mid s') : Passes ctx (step :: rest) s s'

/-- The result of the first step of a feature is reported first. -/
theorem head?_of_executeSteps {step : FeatureStep σ} {rest : List (FeatureStep σ)}
    {s s' : Session σ} {p : Progress}
    (ran : (executeSteps ctx (step :: rest)).start s = (.ok p, s')) :
    ∃ r mid, (executeStep ctx step).start s = (.ok r, mid) ∧ p.steps.head? = some r := by
  rw [executeSteps] at ran
  obtain ⟨r, mid, first, ran⟩ := Effect.ok_of_start_bind ran
  refine ⟨r, mid, first, ?_⟩
  by_cases ok : r.ok = true
  · rw [if_pos ok] at ran
    obtain ⟨more, _, -, ran⟩ := Effect.ok_of_start_bind ran
    obtain ⟨rfl, -⟩ := Effect.eq_of_start_pure ran
    rfl
  · rw [if_neg ok] at ran
    obtain ⟨hook, _, -, ran⟩ := Effect.ok_of_start_bind ran
    cases hook with
    | some failure =>
      obtain ⟨rfl, -⟩ := Effect.eq_of_start_pure ran
      rfl
    | none =>
      cases scored : r.failureScore.filter fun _ => ctx.config.continueOnScore with
      | none =>
        simp only [scored] at ran
        obtain ⟨rfl, -⟩ := Effect.eq_of_start_pure ran
        rfl
      | some score =>
        simp only [scored] at ran
        obtain ⟨more, _, -, ran⟩ := Effect.ok_of_start_bind ran
        obtain ⟨rfl, -⟩ := Effect.eq_of_start_pure ran
        rfl

/-- In a feature, the step after steps that pass runs from the session that they leave, and its
result is reported in its place. -/
theorem Passes.reported {before rest : List (FeatureStep σ)} {step : FeatureStep σ}
    {s mid s' : Session σ} {p : Progress} (h : Passes ctx before s mid)
    (ran : (executeSteps ctx (before ++ step :: rest)).start s = (.ok p, s')) :
    ∃ r mid', (executeStep ctx step).start mid = (.ok r, mid') ∧
      p.steps[before.length]? = some r := by
  induction h generalizing p s' with
  | nil s =>
    obtain ⟨r, mid', first, reported⟩ := head?_of_executeSteps ran
    exact ⟨r, mid', first, List.head?_eq_getElem? ▸ reported⟩
  | cons first ok _ ih =>
    rw [List.cons_append, executeSteps] at ran
    obtain ⟨r, mid', again, ran⟩ := Effect.ok_of_start_bind ran
    rw [first] at again
    cases again
    rw [if_pos ok] at ran
    obtain ⟨more, _, others, ran⟩ := Effect.ok_of_start_bind ran
    obtain ⟨rfl, -⟩ := Effect.eq_of_start_pure ran
    exact ih others

end PlainSteps
