import PlainSteps.Step.Tree

/-!
# Steps for structure and control

The stepper `haibun`: titles of features and scenarios, prose, fixed outcomes, negation of a
statement, and pauses.

* `Builtin.structureStepper`: the stepper.
* `Builtin.negate`: the outcome of a negated statement.
-/

namespace PlainSteps.Builtin

variable {σ : Type}

/-- The title of a feature. -/
def featureStep : StepDefinition σ where
  name := "feature"
  form := .pattern "^Feature:\\s*(?P<feature>.+)$"
  unique := true
  action c := do
    match c.text? "feature" with
    | some title =>
      Session.changeWorld fun w => { w with featureTitle := some title }
    | none => pure ()
    return .ok .passed

/-- The title of a scenario. -/
def scenarioStep : StepDefinition σ where
  name := "scenario"
  form := .pattern "^Scenario:\\s*(?P<scenario>.+)$"
  unique := true
  action c := do
    match c.text? "scenario" with
    | some title =>
      Session.changeWorld fun w => { w with scenarioTitle := some title }
    | none => pure ()
    return .ok .passed

/-- Any line that ends like a sentence, where nothing else matches. -/
def proseStep : StepDefinition σ where
  name := "prose"
  form := .pattern "^.+[.!?:]$"
  fallback := true
  action _ := return .ok .passed

/-- A step that passes for the result `ok` only. -/
def endsWithStep : StepDefinition σ where
  name := "endsWith"
  form := .template "ends with \x7bresult\x7d"
  action c := do
    let result := (c.text? "result").getD ""
    return .ok (if result = "ok" then .passed else .failed ("ends with " ++ result))

/-- The outcome of a negated statement: it passes if and only if the last step that ran was
resolved and failed. -/
def negate (results : List StepResult) : ActionOutcome :=
  match results.getLast? with
  | none => .failed "statement has no steps"
  | some last =>
    if last.actions.any (·.name == unresolvedName) then
      .failed ("statement did not resolve: " ++ last.failureMessage.getD last.text)
    else if last.ok then .failed "statement passed"
    else .passed

/-- A step that passes where its statement fails. -/
def notStep : StepDefinition σ where
  name := "not"
  form := .template "not \x7bwhat:statement\x7d"
  unique := true
  action c := return .ok (negate (← c.runStatement "what"))

/-- The option that bounds pauses. -/
def pauseLimit : String := "PAUSE_LIMIT_MS"

/-- The outcome of a pause, for the text of its length and the text of the limit. -/
def pauseOutcome (text : String) (limit : Option String) : ActionOutcome :=
  match readWhole? text with
  | none => .failed ("pause needs a whole number of milliseconds, got " ++ text)
  | some ms =>
    let limit := (limit.bind readWhole?).getD (Number.twoTo 64 - 1)
    if limit < ms then
      .failed ("pause of " ++ toString ms ++ "ms exceeds the " ++ toString limit ++ "ms limit")
    else .passed

/-- A pause up to a limit. -/
def pauseStep : StepDefinition σ where
  name := "pause"
  form := .template "pause for \x7bms:number\x7dms"
  action c := return .ok (pauseOutcome ((c.text? "ms").getD "") (c.option? pauseLimit))

/-- The stepper for structure and control. -/
def structureStepper : Stepper σ where
  name := "haibun"
  steps := [featureStep, scenarioStep, proseStep, endsWithStep, notStep, pauseStep]
  options := [⟨pauseLimit, false, some "60000"⟩]

end PlainSteps.Builtin
