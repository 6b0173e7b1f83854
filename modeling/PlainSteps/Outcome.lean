import PlainSteps.SeqPath
import PlainSteps.Source.Basic
import PlainSteps.Variables

/-!
# Outcomes

What the actions, steps and features of a run result in.

* `Topic`: what an action attaches to its outcome.
* `ActionOutcome`: what an action reports; `ActionResult`, the same with its name.
* `StepResult`, `FeatureResult`: the results of a line and of a feature.
* `ScoredFailure`: a failure after which a run went on.
-/

namespace PlainSteps

/-- What an action attaches to its outcome. -/
inductive Topic where
  | artifact (name content : String)
  | diagnostic (kind message : String) (detail : Option String)
  | trace (message : String)
  | extension (value : Json)
  deriving Repr

/-- What an action reports. -/
structure ActionOutcome where
  ok : Bool
  message : Option String
  /-- A score lets a run go on after a failure, where that is enabled. -/
  score : Option Number
  topics : List Topic
  deriving Repr

namespace ActionOutcome

/-- Success. -/
def passed : ActionOutcome := ⟨true, none, none, []⟩

/-- Failure with a message. -/
def failed (message : String) : ActionOutcome := ⟨false, some message, none, []⟩

end ActionOutcome

/-- What an action resulted in. -/
structure ActionResult where
  /-- The names of the stepper and of the action, with a point between them. -/
  name : String
  ok : Bool
  message : Option String
  score : Option Number
  topics : List Topic
  deriving Repr

/-- The result of an action of the given name. -/
def ActionOutcome.named (o : ActionOutcome) (name : String) : ActionResult :=
  ⟨name, o.ok, o.message, o.score, o.topics⟩

/-- The diagnostic kind of the faults and crashes of an action. -/
def actionThrew : String := "ActionThrew"

namespace ActionResult

/-- The result of an action that could not be run. -/
def failed (name message : String) : ActionResult := ⟨name, false, some message, none, []⟩

/-- The result of an action that ended in a fault or a crash. -/
def threw (name message : String) (detail : Option String) : ActionResult :=
  ⟨name, false, some message, none, [.diagnostic actionThrew message detail]⟩

end ActionResult

/-- What a line resulted in. -/
structure StepResult where
  ok : Bool
  /-- The text of the line. -/
  text : String
  seqPath : SeqPath
  source : SourceLocation
  actions : List ActionResult
  /-- Milliseconds from the start of the run to that of the step. -/
  startMs : Nat
  durationMs : Nat
  vars : Variables
  deriving Repr

namespace StepResult

/-- The first action that failed. -/
def failedAction? (r : StepResult) : Option ActionResult := r.actions.find? (! ·.ok)

/-- The message of the first action that failed. -/
def failureMessage (r : StepResult) : Option String := r.failedAction?.bind (·.message)

/-- The score of the first action that failed. -/
def failureScore (r : StepResult) : Option Number := r.failedAction?.bind (·.score)

end StepResult

/-- What a feature resulted in. -/
structure FeatureResult where
  path : String
  /-- The title that the feature has set. -/
  title : Option String
  ok : Bool
  steps : List StepResult
  deriving Repr

/-- A failure after which a run went on. -/
structure ScoredFailure where
  score : Number
  message : Option String
  action : String
  seqPath : SeqPath
  deriving Repr

end PlainSteps
