import PlainSteps.Config
import PlainSteps.Effect
import PlainSteps.Outcome

/-!
# Steppers

A stepper is a named bundle of step definitions, domains, options and hooks. `σ` is the type of the
store that the steppers of a run share.

* `StepForm`: how a definition matches lines.
* `ActionContext`, `BuildContext`: what an action and a build handler may see.
* `StepDefinition`: a step that a stepper offers.
* `LineDisposition`: what a stepper does with a line before it is resolved.
* `Stepper`: the bundle.
-/

namespace PlainSteps

/-- How a definition matches lines. -/
inductive StepForm where
  /-- By equality, up to opening words, blanks and the first letter. -/
  | exact (text : String)
  /-- By a regular expression, whose named groups become captures. -/
  | pattern (text : String)
  /-- By a template. -/
  | template (text : String)
  deriving DecidableEq, Repr

/-- The text of a form. -/
def StepForm.text : StepForm → String
  | .exact t | .pattern t | .template t => t

/-- The step that an action runs for. The steps of its statements are left out: they are fixed
before anything runs, so that the place and the address of a step already tell an action which they
are; only by running them does it learn more. -/
structure StepView where
  /-- The text of the line. -/
  text : String
  seqPath : SeqPath
  source : SourceLocation
  /-- The name of the stepper that offers the step. -/
  stepper : String
  captures : List Capture

/-- The capture of a label. -/
def StepView.capture? (s : StepView) (label : String) : Option Capture :=
  s.captures.find? (·.label == label)

/-- What an action may see. -/
structure ActionContext (σ : Type) where
  step : StepView
  vars : Variables
  domains : DomainRegistry
  config : RunConfig
  /-- Runs the steps of the statement of a label, up to the first that fails. -/
  runStatement : String → Effect (Session σ) (List StepResult)

namespace ActionContext

variable {σ : Type}

/-- The value of a label. -/
def value? (c : ActionContext σ) (label : String) : Option Value :=
  (c.vars.get? label).map (·.value)

/-- The value of a label, as text. -/
def text? (c : ActionContext σ) (label : String) : Option String :=
  (c.value? label).map (·.display)

/-- The numeric value of a label. -/
def number? (c : ActionContext σ) (label : String) : Option Number :=
  (c.value? label).bind (·.number?)

/-- The term of a label, as the line writes it. -/
def term? (c : ActionContext σ) (label : String) : Option String :=
  (c.step.capture? label).map (·.term)

/-- The origin of a label. -/
def origin? (c : ActionContext σ) (label : String) : Option Origin :=
  (c.step.capture? label).map (·.origin)

/-- An option of the stepper that offers the step. -/
def option? (c : ActionContext σ) (name : String) : Option String :=
  c.config.option c.step.stepper name

end ActionContext

/-- What a build handler may see. -/
structure BuildContext where
  step : StepView
  vars : Variables
  /-- The directory of the feature. -/
  workspace : String

/-- The value of a label, as text. -/
def BuildContext.text? (c : BuildContext) (label : String) : Option String :=
  (c.vars.get? label).map (·.value.display)

/-- Work that is left for the end of a run; it is given a workspace. -/
abbrev Finalizer (σ : Type) : Type := String → Effect (Session σ) (Except Fault Unit)

/-- A step that a stepper offers. -/
structure StepDefinition (σ : Type) where
  name : String
  form : StepForm
  /-- Wins where it is the only such candidate. -/
  unique : Bool := false
  /-- Gives way to candidates that are not fallbacks. -/
  fallback : Bool := false
  /-- The qualified names of steps that give way to this one. -/
  precludes : List String := []
  /-- The place that is reported instead of that of the line. -/
  source : Option SourceLocation := none
  action : ActionContext σ → Effect (Session σ) (Except Fault ActionOutcome)
  /-- Runs before the steps, where building is enabled. -/
  build : Option (BuildContext → Effect (Session σ) (Except Fault (Option (Finalizer σ)))) := none

/-- What a stepper does with a line before it is resolved. -/
inductive LineDisposition (σ : Type) where
  /-- The line is resolved. -/
  | proceed
  /-- The line is dealt with and yields no step. -/
  | consumed
  /-- The line is dealt with, and contributes definitions. -/
  | define (definitions : List (StepDefinition σ))

/-- An option that a stepper reads. -/
structure StepperOption where
  name : String
  required : Bool
  default : Option String
  deriving DecidableEq, Repr

/-- A bundle of steps, domains, options and hooks. -/
structure Stepper (σ : Type) where
  name : String
  steps : List (StepDefinition σ)
  domains : List DomainDefinition := []
  /-- Domains that some stepper has to register. -/
  requiredDomains : List String := []
  options : List StepperOption := []
  /-- Is told of each feature before it is resolved. -/
  startResolution : (path : String) → Effect σ Unit := fun _ => pure ()
  /-- Is offered each line before it is resolved. -/
  resolveLine : (line : String) → SourceLocation → Effect σ (LineDisposition σ) :=
    fun _ _ => pure .proceed
  /-- Is told of each step that fails. -/
  onFailure : StepResult → Effect (Session σ) (Except Fault Unit) := fun _ => pure (.ok ())
  /-- Is told of the end of each feature. -/
  endFeature : Effect (Session σ) (Except Fault Unit) := pure (.ok ())
  /-- Is told of the end of the run. -/
  close : Effect (Session σ) (Except Fault Unit) := pure (.ok ())

/-- The names of a stepper and of one of its actions, with a point between them. -/
def qualifiedName (stepper action : String) : String := stepper ++ "." ++ action

end PlainSteps
