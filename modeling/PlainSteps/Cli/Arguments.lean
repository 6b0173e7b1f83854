import PlainSteps.Config

/-!
# Arguments of the command line

The command takes a directory of features and flags: switches, which may be given once; options,
whose value follows as the next argument or after an equals sign; and `--`, after which nothing is
a flag.

* `LogLevel`: how much is logged.
* `Flags`, `Arguments`: the flags and all arguments that have been given.
* `ArgumentError`: what is wrong with arguments, and requests for help.
* `Arguments.read`: reads arguments.

An option is taken into account when the argument after it and its value is read. So an unknown flag
is reported before an ill-formed value in front of it.
-/

namespace PlainSteps.Cli

/-- How much is logged. -/
inductive LogLevel where
  | trace
  | debug
  | info
  | warn
  | error
  deriving DecidableEq, Repr

/-- The name of a level. -/
def LogLevel.name : LogLevel → String
  | .trace => "trace"
  | .debug => "debug"
  | .info => "info"
  | .warn => "warn"
  | .error => "error"

/-- The level that a text names, in any case. -/
def LogLevel.read? (s : String) : Option LogLevel :=
  match Text.lowerText s with
  | "trace" => some .trace
  | "debug" => some .debug
  | "info" => some .info
  | "warn" | "warning" => some .warn
  | "error" => some .error
  | _ => none

/-- What is wrong with arguments, or what is asked for instead of a run. -/
inductive ArgumentError where
  /-- The directory of features is missing. -/
  | missingArgument
  /-- There is no such flag, or one argument too many. -/
  | unknownArgument
  /-- An option has no value. -/
  | missingValue
  /-- A switch has a value. -/
  | unneededValue
  /-- The value of an option cannot be read. -/
  | badValue
  /-- A flag that may be given once is given again. -/
  | repeated
  | helpWanted
  | versionWanted
  deriving DecidableEq, Repr

/-- The message for arguments that are wrong. -/
def ArgumentError.message : ArgumentError → String
  | .missingArgument => "the directory of features is missing"
  | .unknownArgument => "there is an argument that is not known"
  | .missingValue => "an option has no value"
  | .unneededValue => "a switch has a value"
  | .badValue => "the value of an option cannot be read"
  | .repeated => "an argument is given more than once"
  | .helpWanted | .versionWanted => ""

/-- How the command is called. -/
def usage : String :=
  "Usage: haibun [OPTIONS] <FEATURES>\n\n"
    ++ "  --backgrounds <DIR>   directory of background files for include directives\n"
    ++ "  --env <NAME=VALUE>    values for the environment, with commas between them\n"
    ++ "  --continue-on-score   keep going past failures that carry a score\n"
    ++ "  --stay                leave steppers open after the run\n"
    ++ "  --build               run build handlers before executing\n"
    ++ "  --step-delay-ms <MS>  pause between steps, in milliseconds\n"
    ++ "  --log-level <LEVEL>   trace, debug, info, warn or error\n"
    ++ "  --json                print JSON instead of a text summary\n"

/-- The flags that have been given. -/
structure Flags where
  /-- The directory of backgrounds. -/
  backgrounds : Option String := none
  /-- The lists of values for the environment. -/
  env : List String := []
  continueOnScore : Bool := false
  stay : Bool := false
  build : Bool := false
  stepDelay : Option Nat := none
  logLevel : Option LogLevel := none
  json : Bool := false
  deriving DecidableEq, Repr

/-- The arguments of a command. -/
structure Arguments extends Flags where
  /-- The directory of features. -/
  features : String
  deriving DecidableEq, Repr

/-- The options, which have a value. -/
inductive OptionFlag where
  | backgrounds
  | env
  | stepDelay
  | logLevel
  deriving DecidableEq, Repr

/-- What a long flag is. -/
inductive LongFlag where
  | option (o : OptionFlag)
  | continueOnScore
  | stay
  | build
  | json
  | help
  | version
  deriving DecidableEq, Repr

/-- The flag of a name. -/
def LongFlag.ofName? (name : String) : Option LongFlag :=
  match name with
  | "backgrounds" => some (.option .backgrounds)
  | "env" => some (.option .env)
  | "step-delay-ms" => some (.option .stepDelay)
  | "log-level" => some (.option .logLevel)
  | "continue-on-score" => some .continueOnScore
  | "stay" => some .stay
  | "build" => some .build
  | "json" => some .json
  | "help" => some .help
  | "version" => some .version
  | _ => none

/-- An option that has been read: it still waits for its value, or for being taken into account. -/
inductive Pending where
  | none
  | waiting (o : OptionFlag)
  | read (o : OptionFlag) (value : String)
  deriving DecidableEq, Repr

/-- A value for something that may be given once. -/
def once {α : Type} (value : α) : Option α → Except ArgumentError (Option α)
  | none => .ok (some value)
  | some _ => .error .repeated

/-- A switch that may be given once. -/
def switchOn (on : Bool) : Except ArgumentError Bool := if on then .error .repeated else .ok true

/-- A value that can be read. -/
def valid {α : Type} : Option α → Except ArgumentError α
  | some a => .ok a
  | none => .error .badValue

namespace Flags

/-- Takes an option into account. -/
def setOption (a : Flags) (o : OptionFlag) (value : String) :
    Except ArgumentError Flags := do
  match o with
  | .backgrounds => return { a with backgrounds := ← once value a.backgrounds }
  | .env => return { a with env := a.env ++ [value] }
  | .stepDelay =>
    if a.stepDelay.isSome then throw .repeated
    return { a with stepDelay := some (← valid (readWhole? value)) }
  | .logLevel =>
    if a.logLevel.isSome then throw .repeated
    return { a with logLevel := some (← valid (LogLevel.read? value)) }

/-- Takes the option before the next argument into account. -/
def settle (a : Flags) : Pending → Except ArgumentError Flags
  | .none => .ok a
  | .waiting _ => .error .missingValue
  | .read o value => a.setOption o value

/-- Takes a long flag into account, with the value that is attached to it. -/
def longFlag (a : Flags) (flag : LongFlag) (value : Option String) :
    Except ArgumentError (Flags × Pending) := do
  match flag, value with
  | .option o, some value => return (← a.setOption o value, .none)
  | .option o, none => return (a, .waiting o)
  | .continueOnScore, none =>
    return ({ a with continueOnScore := ← switchOn a.continueOnScore }, .none)
  | .stay, none => return ({ a with stay := ← switchOn a.stay }, .none)
  | .build, none => return ({ a with build := ← switchOn a.build }, .none)
  | .json, none => return ({ a with json := ← switchOn a.json }, .none)
  | .help, none => throw .helpWanted
  | .version, none => throw .versionWanted
  | _, some _ => throw .unneededValue

/-- Whether a flag does without a value. -/
def isSwitch : LongFlag → Bool
  | .option _ => false
  | _ => true

/-- Reads an argument that starts with two hyphens, of which `body` is the rest. -/
def readLong (a : Flags) (pending : Pending) (body : List Char) :
    Except ArgumentError (Flags × Pending) := do
  let (name, value) := match Text.cut? '=' body with
    | some (name, value) => (name, some (String.ofList value))
    | none => (body, none)
  match LongFlag.ofName? (String.ofList name) with
  | none => throw .unknownArgument
  | some flag =>
    if isSwitch flag && value.isSome then throw .unneededValue
    (← a.settle pending).longFlag flag value

/-- Reads an argument that starts with one hyphen, of which `first` is the next character. -/
def readShort (a : Flags) (pending : Pending) (first : Char) :
    Except ArgumentError (Flags × Pending) := do
  if first = 'h' then
    let _ ← a.settle pending
    throw .helpWanted
  if first = 'V' then
    let _ ← a.settle pending
    throw .versionWanted
  throw .unknownArgument

end Flags

namespace Arguments

/-- Reads an argument that is no flag: the directory of features, unless that has been read. -/
def readPlain (features : Option String) (a : Flags) (pending : Pending) :
    Except ArgumentError Flags :=
  if features.isSome then .error .unknownArgument else a.settle pending

/-- Reads arguments after those that have been read; no flags, where `plain`. -/
def readFrom (features : Option String) (a : Flags) (pending : Pending) (plain : Bool) :
    List String → Except ArgumentError Arguments
  | [] => do
    let a ← a.settle pending
    match features with
    | some path => return { a with features := path }
    | none => throw .missingArgument
  | arg :: rest => do
    if plain then
      let a ← readPlain features a pending
      readFrom (some arg) a .none plain rest
    else
      match arg.toList with
      | ['-', '-'] => readFrom features a pending true rest
      | '-' :: '-' :: body =>
        let (a, pending) ← a.readLong pending body
        readFrom features a pending plain rest
      | '-' :: first :: _ =>
        let (a, pending) ← a.readShort pending first
        readFrom features a pending plain rest
      | _ =>
        match pending with
        | .waiting o => readFrom features a (.read o arg) plain rest
        | pending =>
          let a ← readPlain features a pending
          readFrom (some arg) a .none plain rest

/-- Reads arguments. -/
def read (argv : List String) : Except ArgumentError Arguments := readFrom none {} .none false argv

end Arguments

end PlainSteps.Cli
