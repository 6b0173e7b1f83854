import PlainSteps.Text.Spans

/-!
# Blank characters

A character is blank when Unicode gives it the property `White_Space`: more than the ASCII blanks,
and not the zero-width space or the byte-order mark.

* `isBlank`, `isAsciiBlank`: the two classes.
* `trimStart`, `trimEnd`, `trim`: a text without the blanks at its ends.
* `words`: the maximal runs of characters that are not blank.
* `lines`: the pieces between line feeds.
-/

namespace PlainSteps.Text

/-- The spans of the characters to which Unicode gives the property `White_Space`. -/
def blankSpans : List (Nat × Nat) :=
  [
    (9, 13), (0x20, 0x20), (0x85, 0x85), (0xA0, 0xA0), (0x1680, 0x1680), (0x2000, 0x200A),
    (0x2028, 0x2029), (0x202F, 0x202F), (0x205F, 0x205F), (0x3000, 0x3000)]

/-- A character is blank when Unicode gives it the property `White_Space`. -/
def isBlank (c : Char) : Bool := Spans.hasIn blankSpans c.toNat

/-- The blanks that separate words in plain ASCII: the vertical tab is not one. -/
def isAsciiBlank (c : Char) : Bool :=
  c == ' ' || c == '\t' || c == '\n' || c == '\r' || c.toNat == 12

/-- A text without its leading blanks. -/
def trimStart (cs : List Char) : List Char := cs.dropWhile isBlank

/-- A text without its trailing blanks. -/
def trimEnd (cs : List Char) : List Char := (cs.reverse.dropWhile isBlank).reverse

/-- A text without the blanks at its two ends. -/
def trim (cs : List Char) : List Char := trimEnd (trimStart cs)

/-- The words of a text: its maximal runs of characters that are not blank. -/
def words (cs : List Char) : List (List Char) := (cs.splitOnP isBlank).filter (! ·.isEmpty)

/-- The pieces of a text between its line feeds. -/
def lines (cs : List Char) : List (List Char) := cs.splitOn '\n'

/-- A text without the blanks at its two ends. -/
def trimmed (s : String) : String := String.ofList (trim s.toList)

end PlainSteps.Text
