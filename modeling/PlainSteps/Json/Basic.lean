import PlainSteps.Number.Text

/-!
# JSON documents

Documents with exact integers, floating-point numbers, and objects whose fields keep an order.

* `Json.compact`: the text of a document on one line.
* `Json.pretty`: the text with two spaces of indentation for each level.

A number that is not finite is written `null`.
-/

namespace PlainSteps

/-- A JSON document. -/
inductive Json where
  | null
  | bool (b : Bool)
  | int (n : Int)
  | number (x : Number)
  | text (s : String)
  | array (items : List Json)
  | object (fields : List (String × Json))
  deriving Repr

namespace Json

/-- A text, or null. -/
def ofText? (s : Option String) : Json := (s.map text).getD null

/-- A floating-point number, or null. -/
def ofNumber? (x : Option Number) : Json := (x.map number).getD null

/-! ## Texts -/

/-- A hexadecimal digit. -/
def hexDigit (n : Nat) : Char := "0123456789abcdef".toList.getD n '0'

/-- A character as it is written in a quoted text. -/
def escapeChar (c : Char) : List Char :=
  match c with
  | '"' => ['\\', '"']
  | '\\' => ['\\', '\\']
  | '\n' => ['\\', 'n']
  | '\r' => ['\\', 'r']
  | '\t' => ['\\', 't']
  | c =>
    if c.toNat = 8 then ['\\', 'b']
    else if c.toNat = 12 then ['\\', 'f']
    else if c.toNat < 32 then
      ['\\', 'u', '0', '0', hexDigit (c.toNat / 16), hexDigit (c.toNat % 16)]
    else [c]

/-- A text between quotes. -/
def quote (s : String) : String :=
  "\"" ++ String.ofList (s.toList.flatMap escapeChar) ++ "\""

/-- The text of a floating-point number. -/
def numberText (x : Number) : String := (x.scientific? .double).getD "null"

/-- The opening and closing braces of an object. -/
def openBrace : String := "\x7b"

/-- The closing brace of an object. -/
def closeBrace : String := "\x7d"

mutual

/-- The text of a document on one line. -/
def compact : Json → String
  | .null => "null"
  | .bool b => toString b
  | .int n => toString n
  | .number x => numberText x
  | .text s => quote s
  | .array items => "[" ++ ",".intercalate (compactItems items) ++ "]"
  | .object fields => openBrace ++ ",".intercalate (compactFields fields) ++ closeBrace

/-- The texts of documents. -/
def compactItems : List Json → List String
  | [] => []
  | j :: js => j.compact :: compactItems js

/-- The texts of fields. -/
def compactFields : List (String × Json) → List String
  | [] => []
  | (n, j) :: rest => (quote n ++ ":" ++ j.compact) :: compactFields rest

end

/-- A new line and its indentation. -/
def newline (depth : Nat) : String := "\n" ++ String.ofList (List.replicate (2 * depth) ' ')

/-- Entries between brackets, each on a line of its own. -/
def block (first last : String) (depth : Nat) (entries : List String) : String :=
  if entries.isEmpty then first ++ last
  else
    first ++ ",".intercalate (entries.map (newline (depth + 1) ++ ·)) ++ newline depth ++ last

mutual

/-- The text of a document at a depth of indentation. -/
def prettyAt (depth : Nat) : Json → String
  | .array items => block "[" "]" depth (prettyItems (depth + 1) items)
  | .object fields => block openBrace closeBrace depth (prettyFields (depth + 1) fields)
  | .null => "null"
  | .bool b => toString b
  | .int n => toString n
  | .number x => numberText x
  | .text s => quote s

/-- The texts of documents at a depth. -/
def prettyItems (depth : Nat) : List Json → List String
  | [] => []
  | j :: js => j.prettyAt depth :: prettyItems depth js

/-- The texts of fields at a depth. -/
def prettyFields (depth : Nat) : List (String × Json) → List String
  | [] => []
  | (n, j) :: rest => (quote n ++ ": " ++ j.prettyAt depth) :: prettyFields depth rest

end

/-- The text of a document with two spaces of indentation for each level. -/
def pretty (j : Json) : String := j.prettyAt 0

end Json

end PlainSteps
