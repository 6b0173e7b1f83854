import PlainSteps.Builtin.Variables
import PlainSteps.Cli.Discovery
import PlainSteps.Cli.Settings
import PlainSteps.Report.Document

/-!
# The command

The command finds the features, runs them with the steppers of the library in every split, and
reports what they come to.

* `variableNames`: the variables that the command reads.
* `RunError`: why nothing is run.
* `run`: what the features below a path come to.
* `output`: the report as it is printed.
-/

namespace PlainSteps.Cli

/-- The variables that the command reads: those of the settings, and one for each option of its
steppers. -/
def variableNames : List String :=
  "HAIBUN_LOG_LEVEL" :: RunConfig.settingVariables
    ++ (Builtin.steppers : List (Stepper Unit)).flatMap fun s =>
      s.options.map fun o => RunConfig.optionVariable s.name o.name

/-- Why nothing is run: features or backgrounds are not found. -/
structure RunError where
  /-- What was looked for. -/
  what : String
  path : String
  cause : DiscoveryError
  deriving DecidableEq, Repr

/-- The message where nothing is run. -/
def RunError.message (e : RunError) : String :=
  "failed to discover " ++ e.what ++ " in " ++ e.path

/-- The sources below a path, for what paths lead to. -/
def discoverAs (what : String) (find : String → Option FileTree) (path : String) :
    Except RunError (List FeatureSource) :=
  (discover (find path) path).mapError fun cause => ⟨what, path, cause⟩

/-- What the features that are found come to, for what paths lead to. -/
def run (find : String → Option FileTree) (a : Arguments) (s : Settings) :
    Except RunError SplitResult := do
  let features ← discoverAs "features" find a.features
  let backgrounds ← match a.backgrounds with
    | some path => discoverAs "backgrounds" find path
    | none => .ok []
  return (runSplits (fun _ => Builtin.steppers) () s.run features backgrounds).1

/-- The report as it is printed. -/
def output (json : Bool) (r : SplitResult) : String :=
  if json then (Report.document r).pretty ++ "\n" else Report.summary r

end PlainSteps.Cli
