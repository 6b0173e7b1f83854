import PlainSteps.Step.Stepper

/-!
# Trees of steps

A line that has been resolved is a step; the statements among its terms are resolved to steps of
its own.

* `StepAction`: what a line was resolved to.
* `FeatureStep`, `NestedStatement`: a step and the steps of its statements.
* `ResolvedFeature`: the steps of a feature.
-/

namespace PlainSteps

/-- What a step does. -/
inductive ActionKind (σ : Type) where
  | defined (definition : StepDefinition σ)
  /-- The line was not resolved, for the reason given; such a step fails. -/
  | unresolved (message : String)

/-- What a line was resolved to. -/
structure StepAction (σ : Type) where
  stepper : String
  name : String
  captures : List Capture
  kind : ActionKind σ

namespace StepAction

variable {σ : Type}

/-- The action of a step that a definition offers. -/
def resolved (stepper : String) (d : StepDefinition σ) (captures : List Capture) : StepAction σ :=
  ⟨stepper, d.name, captures, .defined d⟩

/-- The action of a line that was not resolved. -/
def unresolved (message : String) : StepAction σ :=
  ⟨"haibun", "unresolved", [], .unresolved message⟩

/-- The names of the stepper and of the action. -/
def qualifiedName (a : StepAction σ) : String := PlainSteps.qualifiedName a.stepper a.name

/-- The definition, unless the line was not resolved. -/
def definition? (a : StepAction σ) : Option (StepDefinition σ) :=
  match a.kind with
  | .defined d => some d
  | .unresolved _ => none

/-- Why the line was not resolved. -/
def unresolvedMessage? (a : StepAction σ) : Option String :=
  match a.kind with
  | .defined _ => none
  | .unresolved message => some message

end StepAction

/-- The name of the action of a line that was not resolved. -/
def unresolvedName : String := qualifiedName "haibun" "unresolved"

/-- What is known of a step apart from the steps of its statements. -/
structure StepHead (σ : Type) where
  source : SourceLocation
  /-- The text of the line. -/
  text : String
  seqPath : SeqPath
  action : StepAction σ

mutual

/-- A step and its statements. -/
inductive FeatureStep (σ : Type) where
  | mk (head : StepHead σ) (nested : List (NestedStatement σ))

/-- The steps of the statement of a label. -/
inductive NestedStatement (σ : Type) where
  | mk (label : String) (steps : List (FeatureStep σ))

end

namespace NestedStatement

variable {σ : Type}

/-- The label of the placeholder that holds the statement. -/
def label : NestedStatement σ → String
  | .mk label _ => label

/-- The steps of the statement. -/
def steps : NestedStatement σ → List (FeatureStep σ)
  | .mk _ steps => steps

end NestedStatement

namespace FeatureStep

variable {σ : Type}

/-- What is known of a step apart from the steps of its statements. -/
def head : FeatureStep σ → StepHead σ
  | .mk head _ => head

/-- The statements of a step. -/
def nested : FeatureStep σ → List (NestedStatement σ)
  | .mk _ nested => nested

/-- The step of a line that was not resolved. -/
def unresolved (text : String) (source : SourceLocation) (seqPath : SeqPath) (message : String) :
    FeatureStep σ :=
  .mk ⟨source, text, seqPath, .unresolved message⟩ []

end FeatureStep

/-- What an action sees of its step. -/
def StepHead.view {σ : Type} (h : StepHead σ) : StepView :=
  ⟨h.text, h.seqPath, h.source, h.action.stepper, h.action.captures⟩

/-- A feature whose lines are all resolved. -/
structure ResolvedFeature (σ : Type) where
  path : String
  /-- The directory under which the feature was found. -/
  base : String
  steps : List (FeatureStep σ)

end PlainSteps
