import PlainSteps.Run.Split

/-!
# The summary of a run

Lines of plain text: each split with its features, the steps that failed in them, the failures with
a score, the stage that failed, and the numbers of the run.

* `Report.summary`: the summary of all splits.
-/

namespace PlainSteps.Report

/-- The word for success or failure. -/
def status (ok : Bool) : String := if ok then "passed" else "failed"

/-- The lines of a feature: its title, and the steps that failed. -/
def featureLines (f : FeatureResult) : List String :=
  ("  " ++ status f.ok ++ " " ++ f.title.getD f.path) ::
    (f.steps.filter (! ·.ok)).map fun s =>
      "    " ++ s.seqPath.text ++ " " ++ s.text ++ " (" ++ s.source.text ++ "): "
        ++ s.failureMessage.getD "failed"

/-- The line of a failure with a score. -/
def scoredLine (s : ScoredFailure) : String :=
  "  scored " ++ s.score.plain .double ++ " at " ++ s.seqPath.text ++ ": "
    ++ s.message.getD s.action

/-- The lines of a run. -/
def runLines (r : RunResult) : List String :=
  r.features.flatMap featureLines ++ r.scored.map scoredLine
    ++ (r.failure.map fun f => "  " ++ f.text).toList ++ ["  " ++ r.summary.text]

/-- The lines of a split. -/
def splitLines (s : SplitRun) : List String :=
  (status s.ok ++ " [" ++ s.tag ++ "]") ::
    match s.outcome with
    | .settled r => runLines r
    | .rejected reason => ["  rejected: " ++ reason]

/-- The summary of all splits. -/
def summary (r : SplitResult) : String :=
  String.join ((r.runs.flatMap splitLines ++ [status r.ok]).map (· ++ "\n"))

end PlainSteps.Report
