import PlainSteps.Text.Blank
import PlainSteps.Text.Case

/-!
# Keywords and politeness

A line may open with one keyword (`Given`, `When`, `Then`, `And`, `But`) and then one politeness
phrase (`the`, `I'm`, `I am`, `I`), each followed by blanks. Steps are written without them.

* `Keyword.read?`: a keyword by its name, whatever its case.
* `strip`: a line without the opening words, and the keyword that stood there.
* `normalize`: the form of a line under which exact steps are compared.
-/

namespace PlainSteps

/-- The keywords that may open a line. -/
inductive Keyword where
  | given
  | when
  | then
  | and
  | but
  deriving DecidableEq, Repr

namespace Keyword

/-- Every keyword, in the order in which they are tried. -/
def all : List Keyword := [.given, .when, .then, .and, .but]

/-- The keyword as it is written. -/
def word : Keyword → String
  | .given => "Given"
  | .when => "When"
  | .then => "Then"
  | .and => "And"
  | .but => "But"

/-- The keyword that a text names, up to the blanks around it and the case of ASCII letters. -/
def read? (s : String) : Option Keyword :=
  let sought := (Text.trim s.toList).map Char.toLower
  all.find? fun k => k.word.toList.map Char.toLower == sought

end Keyword

/-- The message for a text that names no keyword. -/
def Keyword.unknownMessage (s : String) : String := "invalid step keyword: " ++ Text.trimmed s

/-- The politeness phrases, in the order in which they are tried. -/
def politeness : List String := ["the", "I'm", "I am", "I"]

namespace Phrase

/-- What follows `word` and at least one blank at the start of a text. -/
def afterWord? (word : List Char) (cs : List Char) : Option (List Char) :=
  match word.isPrefixOf? cs with
  | some (c :: rest) => if Text.isBlank c then some (Text.trimStart rest) else none
  | _ => none

/-- The first keyword that opens a text, and what follows it. -/
def afterKeyword? (cs : List Char) : Option (Keyword × List Char) :=
  Keyword.all.findSome? fun k => (afterWord? k.word.toList cs).map fun rest => (k, rest)

/-- What follows the first politeness phrase that opens a text, or the text where none does. -/
def afterPoliteness (cs : List Char) : List Char :=
  (politeness.findSome? fun p => afterWord? p.toList cs).getD cs

/-- A line without its outer blanks, keyword and politeness phrase, and that keyword. -/
def strip (line : List Char) : Option Keyword × List Char :=
  let text := Text.trim line
  match afterKeyword? text with
  | some (k, rest) => (some k, afterPoliteness rest)
  | none => (none, afterPoliteness text)

/-- A text whose first character is in lower case. -/
def decapitalize : List Char → List Char
  | [] => []
  | c :: cs => Text.lower c ++ cs

/-- The form under which exact steps are compared: no opening words, single spaces between the
words, and a small first letter. -/
def normalize (line : List Char) : List Char :=
  decapitalize ([' '].intercalate (Text.words (strip line).2))

end Phrase

end PlainSteps
