import PlainSteps.Cli.Basic

/-!
# The command line

The outer layer of the command: it reads the variables and the directories that the arguments name,
prints the report, and ends with a status: 0 where every split passes, 1 where one fails or nothing
can be run, 2 where arguments or settings are wrong.
-/

namespace PlainSteps.Cli

/-- The variables that the command reads, with their values. -/
def readVariables : IO (List (String × String)) :=
  variableNames.filterMapM fun name => do return (← IO.getEnv name).map fun value => (name, value)

/-- The files and directories among the entries of a directory. -/
partial def readEntries (entries : Array IO.FS.DirEntry) : IO (Table FileTree) :=
  entries.foldlM (fun t entry => do
    match (← entry.path.symlinkMetadata).type with
    | .dir =>
      return t.insert entry.fileName (.directory (← readEntries (← entry.path.readDir)))
    | .file =>
      if isFeatureFile entry.fileName then
        return t.insert entry.fileName (.file (← IO.FS.readBinFile entry.path))
      else return t
    | _ => return t) ∅

/-- What a path leads to. -/
def readTree (path : String) : IO (Option FileTree) := do
  try
    let place ← IO.FS.realPath path
    if ← place.isDir then return some (.directory (← readEntries (← place.readDir)))
    else return some (.file (← IO.FS.readBinFile place))
  catch _ => return none

/-- Runs the features that arguments name and prints the report. -/
def runCommand (a : Arguments) (s : Settings) : IO UInt32 := do
  let paths := a.features :: a.backgrounds.toList
  let trees ← paths.mapM fun path => do return (path, ← readTree path)
  match run (fun path => (trees.lookup path).join) a s with
  | .error e =>
    IO.eprintln e.message
    return 1
  | .ok result =>
    IO.print (output a.json result)
    return if result.ok then 0 else 1

/-- Runs the command and returns its status. -/
def command (args : List String) : IO UInt32 := do
  match Arguments.read args with
  | .error .helpWanted =>
    IO.print usage
    return 0
  | .error .versionWanted =>
    IO.println "haibun 0.5.0"
    return 0
  | .error e =>
    IO.eprintln e.message
    return 2
  | .ok a =>
    match (Settings.ofVariables (← readVariables)).bind (·.override a) with
    | .error e =>
      IO.eprintln e.message
      return 2
    | .ok s => runCommand a s

end PlainSteps.Cli

/-- The command. -/
def main (args : List String) : IO UInt32 := PlainSteps.Cli.command args
