import PlainSteps.Run.Basic

/-!
# Splits

Each choice of environment variants makes a run of its own, with its own steppers and world.

* `SplitOutcome`: the result of a run, or the crash that ended it.
* `SplitResult`: the outcomes of all splits.
* `runSplits`: runs all splits, in the order of their tags.
-/

namespace PlainSteps

/-- What a split comes to. -/
inductive SplitOutcome where
  | settled (result : RunResult)
  /-- The run crashed. -/
  | rejected (reason : String)
  deriving Repr

/-- A split and what it comes to. -/
structure SplitRun where
  tag : String
  outcome : SplitOutcome
  deriving Repr

/-- Whether a split has run and passed. -/
def SplitRun.ok (s : SplitRun) : Bool :=
  match s.outcome with
  | .settled result => result.ok
  | .rejected _ => false

/-- What all splits come to. -/
structure SplitResult where
  ok : Bool
  runs : List SplitRun
  deriving Repr

/-- The outcome of a run that may have crashed. -/
def SplitOutcome.ofRun : Except Crash RunResult → SplitOutcome
  | .ok result => .settled result
  | .error crash => .rejected crash.message

/-- The splits and what they come to. -/
def SplitResult.ofRuns (runs : List SplitRun) : SplitResult := ⟨runs.all (·.ok), runs⟩

/-- Runs one split from a store; its outcome, and the store after it. -/
def runSplit {σ : Type} (steppers : List (Stepper σ)) (store : σ)
    (features backgrounds : List FeatureSource) (split : String × RunConfig) : SplitRun × σ :=
  let run : Run σ := ⟨steppers, split.2, split.1⟩
  let (answer, store) := (run.run features backgrounds).start store
  (⟨split.1, .ofRun answer⟩, store)

/-- Runs all splits of a configuration, each with the steppers for its index and from the same
store; the outcomes, and the store after each. -/
def runSplits {σ : Type} (steppers : Nat → List (Stepper σ)) (store : σ) (config : RunConfig)
    (features backgrounds : List FeatureSource) : SplitResult × List σ :=
  let runs := config.splits.zipIdx.map fun (split, index) =>
    runSplit (steppers index) store features backgrounds split
  (.ofRuns (runs.map (·.1)), runs.map (·.2))

end PlainSteps
