import PlainSteps.Domain.Registry
import PlainSteps.World.Basic

/-!
# The variables of a step

Before a step runs, each term that its line gives for a placeholder is looked up where its origin
says, and read by the domain that the placeholder declares.

* `PopulatedValue`: a term with its value.
* `lookUp`: the text that a term stands for.
* `populate`: the values of the terms of a line, under the labels of the placeholders.
-/

namespace PlainSteps

/-- A term with its value. -/
structure PopulatedValue where
  label : String
  /-- The text in the line. -/
  term : String
  origin : Origin
  /-- The domain that has read the value. -/
  domain : String
  value : Value
  deriving Repr

/-- The values of the terms of a line, under the labels of the placeholders. -/
abbrev Variables := Table PopulatedValue

/-- Why a term has no value. -/
inductive PopulateError where
  | missingVariable (label name : String)
  | missingEnv (label name : String)
  | missingCredential (label name : String)
  | domain (e : DomainError)
  deriving DecidableEq, Repr

/-- The message for a term without a value. -/
def PopulateError.message : PopulateError → String
  | .missingVariable label name =>
    backquoted label ++ " refers to variable " ++ backquoted name ++ ", which is not set"
  | .missingEnv label name =>
    backquoted label ++ " refers to env var " ++ backquoted name
      ++ ", which is not set; pass it with HAIBUN_ENV=" ++ name ++ "=... or --env " ++ name
      ++ "=..."
  | .missingCredential label name =>
    backquoted label ++ " refers to credential " ++ backquoted name ++ ", which is not set"
  | .domain e => e.message

/-- The text that a term stands for. -/
structure TermText where
  /-- The text; `none` for a credential that is not set. -/
  raw : Option String
  /-- The domain of the stored value that the text comes from, if it has one. -/
  stored : Option String

namespace TermText

/-- A text that comes from no stored value. -/
def literal (s : String) : TermText := ⟨some s, none⟩

/-- The text of a stored value. -/
def ofStored (v : StoredValue) : TermText := ⟨some v.value.display, v.domain⟩

end TermText

/-- Looks a term up where its origin says. -/
def lookUp (world : World) (env : Table String) (c : Capture) : Except PopulateError TermText :=
  match c.origin with
  | .statement | .quoted | .special => .ok (.literal c.term)
  | .env =>
    match env.get? c.term with
    | some s => .ok (.literal s)
    | none => .error (.missingEnv c.label c.term)
  | .var =>
    match world.get? c.term with
    | some v => .ok (.ofStored v)
    | none => .error (.missingVariable c.label c.term)
  | .credential => .ok ⟨(world.get? (credentialKey c.term)).map (·.value.display), none⟩
  | .fallthrough =>
    match env.get? c.term with
    | some s => .ok (.literal s)
    | none =>
      match world.get? c.term with
      | some v => .ok (.ofStored v)
      | none => .ok (.literal c.term)

/-- The value of one term; `none` for one that stands for no text and whose domain allows that. -/
def populateCapture (world : World) (domains : DomainRegistry) (env : Table String)
    (c : Capture) : Except PopulateError (Option PopulatedValue) := do
  let text ← lookUp world env c
  match text.raw with
  | none =>
    if domains.rejectsUndefined c.domain then throw (.missingCredential c.label c.term)
    else return none
  | some raw =>
    match domains.coerce ⟨c.label, c.origin, raw, c.domain, text.stored⟩ with
    | .ok read => return some ⟨c.label, c.term, c.origin, read.domain, read.value⟩
    | .error e => throw (.domain e)

/-- The values of the terms of a line, up to the first that has none. -/
def populate (world : World) (domains : DomainRegistry) (env : Table String)
    (captures : List Capture) : Except PopulateError Variables := do
  let values ← captures.mapM (populateCapture world domains env)
  return Table.ofList (values.filterMap fun v => v.map fun v => (v.label, v))

end PlainSteps
