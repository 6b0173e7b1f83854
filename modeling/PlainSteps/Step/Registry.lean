import PlainSteps.Step.Pattern
import PlainSteps.Step.Stepper
import PlainSteps.Template.Basic

/-!
# The registry of steps

The definitions of all steppers, each with its form read, against the domains of the run.

* `Matcher`: a form that has been read, and `Matcher.match?`, the captures that a line gives it.
* `StepRegistry.register`: adds a definition.
* `StepRegistry.candidates`: the steps that match a line.
-/

namespace PlainSteps

/-- A form that has been read. -/
inductive Matcher where
  | exact (normalized : List Char)
  | pattern (p : Pattern)
  | template (t : Template)

namespace Matcher

/-- Reads a form, whose placeholders may declare known domains only. -/
def ofForm (known : List String) : StepForm → Except PatternError Matcher
  | .exact text => .ok (.exact (Phrase.normalize text.toList))
  | .pattern text => (Pattern.read text).map .pattern
  | .template text => (Template.compile (some known) text).map .template

/-- The captures that a line gives; `none` where it does not match. -/
def match? (m : Matcher) (line : String) : Option (List Capture) :=
  match m with
  | .exact normalized => if Phrase.normalize line.toList = normalized then some [] else none
  | .pattern p => p.captures? line
  | .template t => t.captures? line

end Matcher

/-- Why a definition is refused. -/
structure RegistryError where
  /-- The qualified name of the step. -/
  step : String
  cause : PatternError
  deriving DecidableEq, Repr

/-- The message for a refused definition. -/
def RegistryError.message (e : RegistryError) : String :=
  "step " ++ backquoted e.step ++ " is invalid: " ++ e.cause.message

/-- A definition with its form read, and the stepper that offers it. -/
structure RegisteredStep (σ : Type) where
  stepper : String
  definition : StepDefinition σ
  matcher : Matcher

/-- The names of the stepper and of the action. -/
def RegisteredStep.name {σ : Type} (s : RegisteredStep σ) : String :=
  qualifiedName s.stepper s.definition.name

/-- A step that matches a line, with the captures. -/
structure Candidate (σ : Type) where
  step : RegisteredStep σ
  captures : List Capture

/-- The steps of a run. -/
structure StepRegistry (σ : Type) where
  steps : List (RegisteredStep σ)
  /-- The names of the domains of the run. -/
  domains : List String

namespace StepRegistry

variable {σ : Type}

/-- The registry without steps, for the domains of a run. -/
def empty (domains : DomainRegistry) : StepRegistry σ := ⟨[], domains.names⟩

/-- Adds a definition of a stepper. -/
def register (r : StepRegistry σ) (stepper : String) (d : StepDefinition σ) :
    Except RegistryError (StepRegistry σ) :=
  match Matcher.ofForm r.domains d.form with
  | .ok matcher => .ok { r with steps := r.steps ++ [⟨stepper, d, matcher⟩] }
  | .error cause => .error ⟨qualifiedName stepper d.name, cause⟩

/-- Adds all definitions of a stepper. -/
def registerStepper (r : StepRegistry σ) (s : Stepper σ) : Except RegistryError (StepRegistry σ) :=
  s.steps.foldlM (fun r d => r.register s.name d) r

/-- The registry of all definitions of some steppers, in order. -/
def ofSteppers (steppers : List (Stepper σ)) (domains : DomainRegistry) :
    Except RegistryError (StepRegistry σ) :=
  steppers.foldlM registerStepper (empty domains)

/-- The steps that match a line, in the order of their registration. -/
def candidates (r : StepRegistry σ) (line : String) : List (Candidate σ) :=
  r.steps.filterMap fun step => (step.matcher.match? line).map fun captures => ⟨step, captures⟩

end StepRegistry

end PlainSteps
