import PlainSteps.Number.Reader
import PlainSteps.Table
import PlainSteps.Template.Error
import PlainSteps.Text.Case
import PlainSteps.Text.Cut

/-!
# The configuration of a run

Settings come from variables whose names start with `HAIBUN_`; all other variables are ignored.

* `RunConfig`: the settings.
* `readPairs`: a list `name=value,name=value`.
* `RunConfig.ofVariables`: the settings that a list of variables makes.
* `RunConfig.option`: an option of a stepper, up to case and the difference of `-` and `_`.
* `RunConfig.splits`: one configuration for each choice of environment variants.
-/

namespace PlainSteps

/-- What a setting should have been. -/
inductive ConfigExpectation where
  | pair
  | name
  | flag
  | milliseconds
  deriving DecidableEq, Repr

/-- A setting that cannot be read. -/
structure ConfigError where
  /-- The variable or the flag of the setting. -/
  key : String
  value : String
  expected : ConfigExpectation
  deriving DecidableEq, Repr

/-- What is wrong with a setting. -/
def ConfigExpectation.reason : ConfigExpectation → String
  | .pair => "expected name=value"
  | .name => "empty name"
  | .flag => "expected a boolean such as true or 0"
  | .milliseconds => "expected a whole number of milliseconds"

/-- The message for a setting that cannot be read. -/
def ConfigError.message (e : ConfigError) : String :=
  "invalid value " ++ backquoted e.value ++ " for " ++ e.key ++ ": " ++ e.expected.reason

/-- The settings of a run. -/
structure RunConfig where
  /-- The values of names written in braces. -/
  env : Table String
  /-- The alternative values of names; each choice makes a split of its own. -/
  variants : Table (List String)
  /-- The options of steppers, each under the key that `optionKey` makes. -/
  options : Table String
  /-- Whether a run goes on after a failure that has a score. -/
  continueOnScore : Bool
  /-- The pause between steps in milliseconds. -/
  stepDelay : Option Nat
  /-- Whether features are left open at the end. -/
  stay : Bool
  /-- Whether build handlers run before the steps. -/
  build : Bool
  deriving DecidableEq, Repr

/-! ## Reading settings -/

/-- The flag that a text spells. -/
def readFlag? (s : String) : Option Bool :=
  let word := Text.trimmed s
  if ["1", "true", "TRUE", "True", "yes", "YES", "Yes", "on", "ON", "On"].contains word then
    some true
  else if ["0", "false", "FALSE", "False", "no", "NO", "No", "off", "OFF", "Off"].contains word then
    some false
  else none

/-- A whole number that fits 64 bits, in decimal digits with an optional plus sign. -/
def readWhole? (s : String) : Option Nat :=
  let digits := match s.toList with
    | '+' :: rest => rest
    | cs => cs
  if digits.isEmpty || !digits.all Char.isDigit then none
  else (some (Number.digitsValue digits)).filter (· < Number.twoTo 64)

/-- One entry of a list of pairs. -/
def readPair (key : String) (entry : List Char) : Except ConfigError (String × String) :=
  match Text.cut? '=' entry with
  | none => .error ⟨key, String.ofList entry, .pair⟩
  | some (name, value) =>
    let name := Text.trim name
    if name.isEmpty then .error ⟨key, String.ofList entry, .name⟩
    else .ok (String.ofList name, String.ofList (Text.trim value))

/-- A list of pairs with commas between them; blank entries are skipped. -/
def readPairs (key text : String) : Except ConfigError (List (String × String)) :=
  (((text.toList.splitOn ',').map Text.trim).filter (! ·.isEmpty)).mapM (readPair key)

/-- The flag that a setting spells. -/
def readFlag (key value : String) : Except ConfigError Bool :=
  match readFlag? value with
  | some b => .ok b
  | none => .error ⟨key, value, .flag⟩

/-- A pause in milliseconds, where zero means none. -/
def readDelay (key value : String) : Except ConfigError (Option Nat) :=
  match readWhole? (Text.trimmed value) with
  | some 0 => .ok none
  | some n => .ok (some n)
  | none => .error ⟨key, value, .milliseconds⟩

namespace RunConfig

/-- The settings of a run for which nothing is set. -/
def initial : RunConfig := ⟨∅, ∅, ∅, false, none, false, false⟩

/-- The start of the name of a variable that sets an option. -/
def optionLead : String := "HAIBUN_O_"

/-- The key of an option of a stepper. -/
def optionKey (stepper name : String) : String :=
  (Text.upperText (stepper ++ "_" ++ name)).map fun c => if c = '-' then '_' else c

/-- The variable that sets an option of a stepper. -/
def optionVariable (stepper name : String) : String := optionLead ++ optionKey stepper name

/-- An option of a stepper. -/
def option (c : RunConfig) (stepper name : String) : Option String :=
  c.options.get? (optionKey stepper name)

/-- Sets an option of a stepper. -/
def setOption (c : RunConfig) (stepper name value : String) : RunConfig :=
  { c with options := c.options.insert (optionKey stepper name) value }

/-- Adds an alternative value for a name of the environment, unless it is there already. -/
def addVariant (c : RunConfig) (name value : String) : RunConfig :=
  { c with
    variants := c.variants.alter name fun values =>
      let values := values.getD []
      if values.contains value then values else values ++ [value] }

/-- Adds pairs to the environment, the later over the earlier. -/
def addEnv (c : RunConfig) (pairs : List (String × String)) : RunConfig :=
  { c with env := pairs.foldl (fun env (n, v) => env.insert n v) c.env }

/-- Adds alternative values in turn. -/
def addVariants (c : RunConfig) (pairs : List (String × String)) : RunConfig :=
  pairs.foldl (fun c (n, v) => c.addVariant n v) c

/-- The variables of all settings but the options of steppers. -/
def settingVariables : List String :=
  ["HAIBUN_ENV", "HAIBUN_ENVC", "HAIBUN_CONTINUE_ON_SCORE", "HAIBUN_STAY", "HAIBUN_BUILD",
    "HAIBUN_STEP_DELAY_MS"]

/-- The settings after one variable. -/
def applyVariable (c : RunConfig) (key value : String) : Except ConfigError RunConfig :=
  match key with
  | "HAIBUN_ENV" => return c.addEnv (← readPairs key value)
  | "HAIBUN_ENVC" => return c.addVariants (← readPairs key value)
  | "HAIBUN_CONTINUE_ON_SCORE" => return { c with continueOnScore := ← readFlag key value }
  | "HAIBUN_STAY" => return { c with stay := ← readFlag key value }
  | "HAIBUN_BUILD" => return { c with build := ← readFlag key value }
  | "HAIBUN_STEP_DELAY_MS" => return { c with stepDelay := ← readDelay key value }
  | _ =>
    match Text.afterLead? optionLead key with
    | some option => .ok { c with options := c.options.insert (Text.upperText option) value }
    | none => .ok c

/-- The settings that a list of variables makes, up to the first that cannot be read. -/
def ofVariables (vars : List (String × String)) : Except ConfigError RunConfig :=
  vars.foldlM (fun c (key, value) => c.applyVariable key value) initial

/-! ## Splits -/

/-- The tag of a run without variants. -/
def defaultTag : String := "default"

/-- Every way to choose one value for each name; the last name varies fastest. -/
def choices : List (String × List String) → List (List (String × String))
  | [] => [[]]
  | (name, values) :: rest =>
    values.flatMap fun value => (choices rest).map ((name, value) :: ·)

/-- The tag of a choice. -/
def tagOf (choice : List (String × String)) : String :=
  ",".intercalate (choice.map fun (name, value) => name ++ "=" ++ value)

/-- The settings under one choice of variants. -/
def choose (c : RunConfig) (choice : List (String × String)) : RunConfig :=
  { c.addEnv choice with variants := ∅ }

/-- One tagged configuration for each choice of variants; without variants, the configuration
itself. -/
def splits (c : RunConfig) : List (String × RunConfig) :=
  if c.variants.entries.isEmpty then [(defaultTag, c)]
  else (choices c.variants.entries).map fun choice => (tagOf choice, c.choose choice)

end RunConfig

end PlainSteps
