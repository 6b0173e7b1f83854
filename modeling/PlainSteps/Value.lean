import PlainSteps.Json.Basic
import PlainSteps.Origin

/-!
# Values

What a term stands for once its domain has read it.

* `Value`: a text, a number, a flag, or a document.
* `Value.display`: a value as text.
* `StoredValue`: a value with the domain and the origin that it was stored with.
-/

namespace PlainSteps

/-- What a term stands for. -/
inductive Value where
  | text (s : String)
  | number (x : Number)
  | flag (b : Bool)
  | document (j : Json)
  deriving Repr

namespace Value

/-- The text of a textual value. -/
def text? : Value → Option String
  | .text s => some s
  | _ => none

/-- The number of a numeric value. -/
def number? : Value → Option Number
  | .number x => some x
  | _ => none

/-- A value as text. -/
def display : Value → String
  | .text s => s
  | .number x => x.plain .double
  | .flag b => toString b
  | .document j => j.compact

/-- A value as a document. -/
def toJson : Value → Json
  | .text s => .text s
  | .number x => .number x
  | .flag b => .bool b
  | .document j => j

end Value

/-- A value that was stored under a name. -/
structure StoredValue where
  value : Value
  /-- The domain that read the value, where that is known. -/
  domain : Option String
  origin : Origin
  deriving Repr

end PlainSteps
