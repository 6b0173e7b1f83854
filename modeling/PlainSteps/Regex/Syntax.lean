import PlainSteps.Text.Blank
import PlainSteps.Text.Class

/-!
# Regular expressions

Regular expressions over characters, with named groups whose names are of any type `ν`.

* `CharSet`: a set of characters, and `CharSet.contains`.
* `Place`: a condition on a place of a text.
* `Regex`: the expressions.
* `Regex.names`: the names of the groups, in the order in which the groups open.
* `Regex.sequence`, `Regex.alternatives`: many expressions one after, or instead of, another.
* `Regex.source`: the expression as it is written.
-/

namespace PlainSteps

/-- A set of characters. -/
inductive CharSet where
  | char (c : Char)
  /-- Every character but the line feed. -/
  | notNewline
  | blank
  /-- The characters whose code points are in a set. -/
  | spans (s : Spans)
  | complement (s : CharSet)
  | union (s t : CharSet)
  /-- No character. -/
  | nothing
  deriving DecidableEq, Repr

namespace CharSet

/-- Whether a set has a character. -/
def contains : CharSet → Char → Bool
  | .char c, d => c == d
  | .notNewline, d => d != '\n'
  | .blank, d => Text.isBlank d
  | .spans s, d => s.has d.toNat
  | .complement s, d => !s.contains d
  | .union s t, d => s.contains d || t.contains d
  | .nothing, _ => false

/-- The code points of the characters of a set. -/
def toSpans : CharSet → Spans
  | .char c => .single c.toNat
  | .notNewline => (Spans.single 10).complement
  | .blank => ⟨Text.blankSpans⟩
  | .spans s => s
  | .complement s => s.toSpans.complement
  | .union s t => s.toSpans.union t.toSpans
  | .nothing => .nothing

end CharSet

/-- A condition on a place of a text. -/
inductive Place where
  /-- Before the first character. -/
  | start
  /-- After the last character. -/
  | stop
  /-- Between a word character and another or none. -/
  | wordEdge
  /-- Between two word characters, or two others. -/
  | notWordEdge
  /-- Before the first character of a word. -/
  | wordStart
  /-- After the last character of a word. -/
  | wordEnd
  /-- Not after a word character. -/
  | notAfterWord
  /-- Not before a word character. -/
  | notBeforeWord
  deriving DecidableEq, Repr

/-- Whether a place meets a condition, for the characters before and after it. -/
def Place.holds (p : Place) (before after : Option Char) : Bool :=
  let wordBefore := before.any Text.isWord
  let wordAfter := after.any Text.isWord
  match p with
  | .start => before.isNone
  | .stop => after.isNone
  | .wordEdge => wordBefore != wordAfter
  | .notWordEdge => wordBefore == wordAfter
  | .wordStart => !wordBefore && wordAfter
  | .wordEnd => wordBefore && !wordAfter
  | .notAfterWord => !wordBefore
  | .notBeforeWord => !wordAfter

/-- A regular expression whose named groups have names of type `ν`. -/
inductive Regex (ν : Type) where
  /-- Matches the empty text. -/
  | empty
  /-- Matches exactly these characters. -/
  | text (cs : List Char)
  /-- Matches one character of a set. -/
  | oneOf (s : CharSet)
  /-- Matches the empty text at a place that meets a condition. -/
  | place (p : Place)
  | cat (r s : Regex ν)
  /-- Matches what `r` matches and, failing that, what `s` matches. -/
  | alt (r s : Regex ν)
  | group (r : Regex ν)
  /-- A group whose text is recorded under a name. -/
  | named (name : ν) (r : Regex ν)
  /-- At least `least` and, where there is a bound, at most `most` passes; as many as possible
  when greedy, else as few. -/
  | times (r : Regex ν) (least : Nat) (most : Option Nat) (greedy : Bool)
  deriving DecidableEq, Repr

namespace Regex

variable {ν : Type}

/-- The names of the groups, in the order in which the groups open. -/
def names : Regex ν → List ν
  | .cat r s | .alt r s => r.names ++ s.names
  | .group r | .times r _ _ _ => r.names
  | .named n r => n :: r.names
  | _ => []

/-- Several expressions, one after the other. -/
def sequence (rs : List (Regex ν)) : Regex ν := rs.foldr .cat .empty

/-- Several expressions, of which the earlier are preferred. -/
def alternatives : List (Regex ν) → Regex ν
  | [] => .empty
  | [r] => r
  | r :: rs => .alt r (alternatives rs)

/-- One or more passes, as many as possible. -/
def oneOrMore (r : Regex ν) : Regex ν := .times r 1 none true

/-- One or more passes, as few as possible. -/
def oneOrMoreLazy (r : Regex ν) : Regex ν := .times r 1 none false

/-- Any number of passes, as many as possible. -/
def zeroOrMore (r : Regex ν) : Regex ν := .times r 0 none true

/-- One pass or none, one if possible. -/
def optional (r : Regex ν) : Regex ν := .times r 0 (some 1) true

end Regex

/-! ## The written form -/

/-- The characters that are written with a backslash in front. -/
def Regex.reserved : List Char := "\\.+*?()|[]\x7b\x7d^$#&-~".toList

/-- A character as it is written in an expression that matches it. -/
def Regex.escapeChar (c : Char) : List Char := if c ∈ reserved then ['\\', c] else [c]

/-- A text as it is written in an expression that matches it. -/
def Regex.escape (cs : List Char) : List Char := cs.flatMap escapeChar

/-- A span of code points as it is written between square brackets. -/
def Spans.itemSource (span : Nat × Nat) : List Char :=
  Regex.escapeChar (Char.ofNat span.1) ++ '-' :: Regex.escapeChar (Char.ofNat span.2)

/-- A set as it is written between square brackets. -/
def CharSet.items : CharSet → List Char
  | .char c => Regex.escapeChar c
  | .notNewline => "[^\\n]".toList
  | .blank => "\\s".toList
  | .spans s => s.pieces.flatMap Spans.itemSource
  | .complement s => '[' :: '^' :: s.items ++ [']']
  | .union s t => s.items ++ t.items
  | .nothing => []

/-- A set as it is written on its own. -/
def CharSet.source : CharSet → List Char
  | .notNewline => ['.']
  | .blank => "\\s".toList
  | .complement .blank => "\\S".toList
  | .complement s => '[' :: '^' :: s.items ++ [']']
  | s => '[' :: s.items ++ [']']

/-- A condition on a place as it is written. -/
def Place.source : Place → String
  | .start => "^"
  | .stop => "$"
  | .wordEdge => "\\b"
  | .notWordEdge => "\\B"
  | .wordStart => "\\<"
  | .wordEnd => "\\>"
  | .notAfterWord => "\\b\x7bstart-half\x7d"
  | .notBeforeWord => "\\b\x7bend-half\x7d"

/-- The mark after an expression that is repeated. -/
def Regex.repeatMark (least : Nat) (most : Option Nat) (greedy : Bool) : List Char :=
  let count := match least, most with
    | 0, none => ['*']
    | 1, none => ['+']
    | 0, some 1 => ['?']
    | n, none => "\x7b".toList ++ (toString n).toList ++ ",\x7d".toList
    | n, some m =>
      "\x7b".toList ++ (toString n).toList ++ [','] ++ (toString m).toList ++ "\x7d".toList
  if greedy then count else count ++ ['?']

/-- The expression as it is written, for a way to write the names of groups. -/
def Regex.source {ν : Type} (write : ν → String) : Regex ν → List Char
  | .empty => []
  | .text cs => escape cs
  | .oneOf s => s.source
  | .place p => p.source.toList
  | .cat r s => r.source write ++ s.source write
  | .alt r s => r.source write ++ '|' :: s.source write
  | .group r => "(?:".toList ++ r.source write ++ [')']
  | .named n r => "(?P<".toList ++ (write n).toList ++ '>' :: r.source write ++ [')']
  | .times r least most greedy => r.source write ++ repeatMark least most greedy

end PlainSteps
