import PlainSteps.Cli.Arguments

/-!
# Settings of the command line

The settings of a run come from variables, and arguments take precedence over them.

* `Settings.ofVariables`: the settings that variables make.
* `Settings.override`: the settings with arguments over them.
-/

namespace PlainSteps.Cli

/-- The settings of the command. -/
structure Settings where
  logLevel : LogLevel
  run : RunConfig
  deriving DecidableEq, Repr

/-- What is wrong with settings. -/
inductive SettingsError where
  | unknownLogLevel (name : String)
  | config (e : ConfigError)
  deriving DecidableEq, Repr

/-- The message for settings that are wrong. -/
def SettingsError.message : SettingsError → String
  | .unknownLogLevel name =>
    "invalid configuration: unknown log level '" ++ name
      ++ "', expected one of: trace, debug, info, warn, error"
  | .config e => e.message

namespace Settings

/-- The level that the first variable for it names. -/
def logLevelOf (vars : List (String × String)) : Except SettingsError LogLevel :=
  match vars.lookup "HAIBUN_LOG_LEVEL" with
  | none => .ok .info
  | some name =>
    match LogLevel.read? name with
    | some level => .ok level
    | none => .error (.unknownLogLevel name)

/-- The settings that variables make. -/
def ofVariables (vars : List (String × String)) : Except SettingsError Settings := do
  let level ← logLevelOf vars
  let run ← (RunConfig.ofVariables vars).mapError .config
  return ⟨level, run⟩

/-- The run settings with lists of values for the environment over them. -/
def addEnvLists (c : RunConfig) (lists : List String) : Except ConfigError RunConfig :=
  lists.foldlM (fun c list => return c.addEnv (← readPairs "--env" list)) c

/-- The settings with arguments over them. -/
def override (s : Settings) (a : Arguments) : Except SettingsError Settings := do
  let run ← (addEnvLists s.run a.env).mapError .config
  return {
    logLevel := a.logLevel.getD s.logLevel
    run :=
      { run with
        continueOnScore := run.continueOnScore || a.continueOnScore
        stay := run.stay || a.stay
        build := run.build || a.build
        stepDelay := match a.stepDelay with
          | none => run.stepDelay
          | some 0 => none
          | some ms => some ms } }

end Settings

end PlainSteps.Cli
