import PlainSteps.Report.Summary

/-!
# The document of a run

Runs as JSON documents, in two shapes: the report, with a status at every level and sequence paths
as text; and the record, which holds the fields of the results as they are.

* `Report.document`: the report of all splits.
* `Report.runDocument`: the report of one run.
* `Report.record`: the record of all splits.
-/

namespace PlainSteps.Report

/-- A topic, with its type in front. -/
def topicJson : Topic → Json
  | .artifact name content =>
    .object [("type", .text "artifact"), ("name", .text name), ("content", .text content)]
  | .diagnostic kind message detail =>
    .object [("type", .text "diagnostic"), ("kind", .text kind), ("message", .text message),
      ("detail", .ofText? detail)]
  | .trace message => .object [("type", .text "trace"), ("message", .text message)]
  | .extension value => .object [("type", .text "extension"), ("value", value)]

/-- The result of an action. -/
def actionJson (a : ActionResult) : Json :=
  .object [("name", .text a.name), ("ok", .bool a.ok), ("message", .ofText? a.message),
    ("score", .ofNumber? a.score), ("topics", .array (a.topics.map topicJson))]

/-- A term with its value. -/
def populatedJson (v : PopulatedValue) : Json :=
  .object [("label", .text v.label), ("term", .text v.term), ("origin", .text v.origin.name),
    ("domain", .text v.domain), ("value", v.value.toJson)]

/-- The values of the terms of a line. -/
def variablesJson (vs : Variables) : Json :=
  .object (vs.entries.map fun (label, v) => (label, populatedJson v))

/-- A stage that has failed. -/
def stageFailureJson (f : StageFailure) : Json :=
  .object [("stage", .text f.stage.name), ("message", .text f.message)]

/-! ## The report -/

/-- A step in a report. -/
def stepDocument (s : StepResult) : Json :=
  .object [("seq_path", .text s.seqPath.text), ("in", .text s.text),
    ("source", .text s.source.text), ("status", .text (status s.ok)),
    ("start_ms", .int s.startMs), ("duration_ms", .int s.durationMs),
    ("actions", .array (s.actions.map actionJson)), ("variables", variablesJson s.vars)]

/-- A feature in a report. -/
def featureDocument (f : FeatureResult) : Json :=
  .object [("path", .text f.path), ("title", .ofText? f.title), ("status", .text (status f.ok)),
    ("steps", .array (f.steps.map stepDocument))]

/-- A failure with a score in a report. -/
def scoredDocument (s : ScoredFailure) : Json :=
  .object [("seq_path", .text s.seqPath.text), ("action", .text s.action),
    ("score", .number s.score), ("message", .ofText? s.message)]

/-- The fields of a run in a report. -/
def runFields (r : RunResult) : List (String × Json) :=
  ("ok", .bool r.ok) :: (r.failure.map fun f => ("stage_failure", stageFailureJson f)).toList
    ++ [("features", .array (r.features.map featureDocument)),
      ("scored", .array (r.scored.map scoredDocument))]

/-- The report of one run. -/
def runDocument (r : RunResult) : Json := .object (runFields r)

/-- A split in a report. -/
def splitDocument (s : SplitRun) : Json :=
  .object ([("tag", .text s.tag), ("status", .text (status s.ok))]
    ++ match s.outcome with
      | .settled r => runFields r
      | .rejected reason => [("rejected", .text reason)])

/-- The report of all splits. -/
def document (r : SplitResult) : Json :=
  .object [("ok", .bool r.ok), ("status", .text (status r.ok)),
    ("splits", .array (r.runs.map splitDocument))]

/-! ## The record -/

/-- A sequence path in a record. -/
def seqPathRecord (p : SeqPath) : Json := .array (p.indices.map fun (n : Nat) => .int n)

/-- A step in a record. -/
def stepRecord (s : StepResult) : Json :=
  .object [("ok", .bool s.ok), ("in", .text s.text), ("seq_path", seqPathRecord s.seqPath),
    ("source", .object [("path", .text s.source.path), ("line", .int s.source.line)]),
    ("actions", .array (s.actions.map actionJson)), ("start_ms", .int s.startMs),
    ("duration_ms", .int s.durationMs), ("variables", variablesJson s.vars)]

/-- A feature in a record. -/
def featureRecord (f : FeatureResult) : Json :=
  .object [("path", .text f.path), ("title", .ofText? f.title), ("ok", .bool f.ok),
    ("steps", .array (f.steps.map stepRecord))]

/-- A failure with a score in a record. -/
def scoredRecord (s : ScoredFailure) : Json :=
  .object [("score", .number s.score), ("message", .ofText? s.message),
    ("action", .text s.action), ("seq_path", seqPathRecord s.seqPath)]

/-- The outcome of a split in a record. -/
def outcomeRecord : SplitOutcome → Json
  | .settled r =>
    .object [("status", .text "settled"), ("tag", .text r.tag), ("ok", .bool r.ok),
      ("features", .array (r.features.map featureRecord)),
      ("scored", .array (r.scored.map scoredRecord)),
      ("failure", (r.failure.map stageFailureJson).getD .null)]
  | .rejected reason => .object [("status", .text "rejected"), ("reason", .text reason)]

/-- The record of all splits. -/
def record (r : SplitResult) : Json :=
  .object [("ok", .bool r.ok), ("runs", .array (r.runs.map fun s =>
    .object [("tag", .text s.tag), ("outcome", outcomeRecord s.outcome)]))]

end PlainSteps.Report
