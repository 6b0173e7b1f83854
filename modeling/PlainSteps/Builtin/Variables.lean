import PlainSteps.Builtin.Structure

/-!
# Steps for shared variables

The stepper `vars`: steps that set, compare and show shared variables. A step names a variable by
the term as it is written, whatever its form; a term in angle brackets names a credential.

* `Builtin.variablesStepper`: the stepper.
* `Builtin.steppers`: all steppers that come with the library.
-/

namespace PlainSteps.Builtin

variable {σ : Type}

/-- The shared variable that the term of `what` names. -/
def variableKey? (c : ActionContext σ) : Option String :=
  (c.term? "what").map fun term =>
    if c.origin? "what" = some .credential then credentialKey term else term

/-- The value of `value`, to be stored with its domain and origin. -/
def valueToStore? (c : ActionContext σ) : Option StoredValue :=
  (c.vars.get? "value").map fun v => ⟨v.value, some v.domain, v.origin⟩

/-- Sets a shared variable. -/
def setVariable (key : String) (value : StoredValue) : Effect (Session σ) Unit :=
  Session.changeWorld (·.set key value)

/-- Sets the variable that the line names; where it must be new, a value there stays. -/
def storeValue (c : ActionContext σ) (onlyNew : Bool) : Effect (Session σ) ActionOutcome := do
  match variableKey? c, valueToStore? c with
  | some key, some value =>
    if onlyNew && ((← Session.readWorld).get? key).isSome then return .passed
    setVariable key value
    return .passed
  | _, _ => return .failed "nothing to set"

/-- Sets a variable. -/
def setStep : StepDefinition σ where
  name := "set"
  form := .template "set \x7bwhat\x7d to \x7bvalue\x7d"
  action c := return .ok (← storeValue c false)

/-- Sets a variable that is not set. -/
def setEmptyStep : StepDefinition σ where
  name := "setEmpty"
  form := .template "set empty \x7bwhat\x7d to \x7bvalue\x7d"
  precludes := ["vars.set"]
  action c := return .ok (← storeValue c true)

/-- Reads the text of `value` by a domain that the line names, and sets a variable to it. -/
def storeAs (c : ActionContext σ) : Effect (Session σ) ActionOutcome := do
  match variableKey? c, c.text? "domain", c.text? "value" with
  | some key, some domain, some raw =>
    let origin := (c.origin? "value").getD .quoted
    match c.domains.coerce ⟨"value", origin, raw, domain, none⟩ with
    | .ok read =>
      setVariable key ⟨read.value, some read.domain, origin⟩
      return .passed
    | .error e => return .failed e.message
  | _, _, _ => return .failed "nothing to set"

/-- Sets a variable to a value of a domain. -/
def setAsStep : StepDefinition σ where
  name := "setAs"
  form := .template "set \x7bwhat\x7d as \x7bdomain\x7d to \x7bvalue\x7d"
  precludes := ["vars.set"]
  action c := return .ok (← storeAs c)

/-- Whether a variable has a value, as text. -/
def compareVariable (key expected : String) : Option StoredValue → ActionOutcome
  | some stored =>
    if stored.value.display = expected then .passed
    else .failed (key ++ " is " ++ stored.value.display ++ ", expected " ++ expected)
  | none => .failed (key ++ " is not set")

/-- Compares a variable with a value. -/
def isStep : StepDefinition σ where
  name := "is"
  form := .template "\x7bwhat\x7d is \x7bvalue\x7d"
  action c := do
    match variableKey? c with
    | none => return .ok (.failed "no variable named")
    | some key =>
      let expected := (c.text? "value").getD ""
      return .ok (compareVariable key expected ((← Session.readWorld).get? key))

/-- Passes where a variable is set. -/
def isSetStep : StepDefinition σ where
  name := "isSet"
  form := .template "\x7bwhat\x7d is set"
  precludes := ["vars.is"]
  action c := do
    let world ← Session.readWorld
    if ((variableKey? c).bind world.get?).isSome then return .ok .passed
    return .ok (.failed ((c.term? "what").getD "?" ++ " is not set"))

/-- A variable as it is shown. -/
def shownVariable (key : String) : Option StoredValue → String
  | some stored =>
    key ++ " = " ++ stored.value.display ++ " (" ++ stored.domain.getD "unknown" ++ ")"
  | none => key ++ " is not set"

/-- Shows a variable. -/
def showStep : StepDefinition σ where
  name := "show"
  form := .template "show var \x7bwhat\x7d"
  action c := do
    match variableKey? c with
    | none => return .ok (.failed "no variable named")
    | some key =>
      let message := shownVariable key ((← Session.readWorld).get? key)
      return .ok { ActionOutcome.passed with topics := [.trace message] }

/-- The stepper for shared variables. -/
def variablesStepper : Stepper σ where
  name := "vars"
  steps := [setStep, setEmptyStep, setAsStep, isStep, isSetStep, showStep]

/-- The steppers that come with the library. -/
def steppers : List (Stepper σ) := [structureStepper, variablesStepper]

end PlainSteps.Builtin
