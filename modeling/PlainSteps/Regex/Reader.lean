import PlainSteps.Regex.Class
import PlainSteps.Regex.Normal
import PlainSteps.Text.Letter

/-!
# Reading regular expressions

The written form of the expressions that authors give to steps: literals, classes, escapes, groups
(named `(?P<n>…)` or `(?<n>…)`, numbered, or `(?:…)`), alternation, greedy and lazy repetition, `^`
and `$`.

* `GroupName`: the number of a group and its name, if it has one.
* `Regex.read?`: the expression that a text writes, in normal form; `none` for a text that writes
  none, which includes look-around, back-references, two groups of one name, and expressions that
  are nested more deeply than `Regex.depthLimit`.

The functions below read from the front of a text and return what they leave. Each call spends one
unit of `fuel`, of which `Regex.read?` gives more than the length of the text can use.
-/

namespace PlainSteps

/-- What a group is known by: its number, counted from 1 in the order in which groups open, and its
name, if it has one. -/
structure GroupName where
  number : Nat
  name : Option String
  deriving DecidableEq, Repr

namespace Regex

/-- How deeply an expression may be nested. -/
def depthLimit : Nat := 250

/-- An expression, and how deeply what writes it is nested. -/
structure Nested where
  expression : Regex GroupName
  depth : Nat

/-- What remains to be read, and the groups that have opened before it. -/
structure Remaining where
  text : List Char
  /-- The number of groups. -/
  groups : Nat
  /-- Their names. -/
  names : List String

/-! ## Repetition -/

/-- Reads a decimal number with blanks around it; numbers beyond 32 bits are refused. -/
def readCount? (cs : List Char) : Option (Nat × List Char) :=
  let cs := Text.trimStart cs
  let digits := cs.takeWhile Char.isDigit
  let value := digits.foldl (fun n c => n * 10 + (c.toNat - '0'.toNat)) 0
  if digits.isEmpty || value ≥ 4294967296 then none
  else some (value, Text.trimStart (cs.dropWhile Char.isDigit))

/-- Reads the bounds of a counted repetition after its opening brace. -/
def readBounds? (cs : List Char) : Option ((Nat × Option Nat) × List Char) := do
  let (least, rest) ← readCount? cs
  match rest with
  | '}' :: rest => some ((least, some least), rest)
  | ',' :: '}' :: rest => some ((least, none), rest)
  | ',' :: rest =>
    match ← readCount? rest with
    | (most, '}' :: rest) => if least ≤ most then some ((least, some most), rest) else none
    | _ => none
  | _ => none

/-- Reads the bounds of a repetition whose mark starts with `c`. -/
def readRepeat? (c : Char) (cs : List Char) : Option ((Nat × Option Nat) × List Char) :=
  match c with
  | '*' => some ((0, none), cs)
  | '+' => some ((1, none), cs)
  | '?' => some ((0, some 1), cs)
  | _ => readBounds? cs

/-- Whether the mark of a repetition starts with a character. -/
def startsRepeat (c : Char) : Bool := c == '*' || c == '+' || c == '?' || c == '{'

/-- Reads the mark of a repetition that starts with `c` and applies it to an expression. -/
def readPasses? (r : Nested) (c : Char) (cs : List Char) : Option (Nested × List Char) := do
  let ((least, most), rest) ← readRepeat? c cs
  let (greedy, rest) := match rest with
    | '?' :: rest => (false, rest)
    | rest => (true, rest)
  pure (⟨ofPasses r.expression least most greedy, r.depth + 1⟩, rest)

/-! ## Groups -/

/-- Whether a text can name a group. -/
def isGroupName : List Char → Bool
  | [] => false
  | c :: cs =>
    (c == '_' || Text.isAlphabetic c)
      && cs.all fun d =>
        d == '_' || d == '.' || d == '[' || d == ']' || Text.isAlphabetic d || Text.isNumeric d

/-- Reads the name of a group and the angle bracket after it; no two groups have one name. -/
def readName? (at_ : Remaining) (cs : List Char) : Option (GroupName × Remaining) :=
  match cs.takeWhile (· != '>'), cs.dropWhile (· != '>') with
  | letters, '>' :: rest =>
    let name := String.ofList letters
    if isGroupName letters && !at_.names.contains name then
      some (⟨at_.groups + 1, some name⟩, ⟨rest, at_.groups + 1, name :: at_.names⟩)
    else none
  | _, _ => none

/-- Reads how a group opens, after its parenthesis: what it is known by, if its text is recorded. -/
def readOpening? (at_ : Remaining) : Option (Option GroupName × Remaining) :=
  match at_.text with
  | '?' :: ':' :: cs => some (none, { at_ with text := cs })
  | '?' :: 'P' :: '<' :: cs | '?' :: '<' :: cs =>
    (readName? at_ cs).map fun (name, rest) => (some name, rest)
  | '?' :: _ => none
  | _ => some (some ⟨at_.groups + 1, none⟩, { at_ with groups := at_.groups + 1 })

/-- A group around an expression. -/
def enclose (name : Option GroupName) (r : Nested) : Nested :=
  match name with
  | some n => ⟨.named n r.expression, r.depth + 1⟩
  | none => { r with depth := r.depth + 1 }

/-! ## Sequences and choices -/

/-- The greatest depth of several expressions. -/
def greatestDepth (rs : List Nested) : Nat := rs.foldl (fun n r => max n r.depth) 0

/-- Several expressions, the last one first, as one sequence; one level deeper than each of them. -/
def inSequence (reversed : List Nested) : Nested :=
  match reversed with
  | [r] => r
  | [] => ⟨.empty, 0⟩
  | rs => ⟨ofParts (rs.reverse.map (·.expression)), greatestDepth rs + 1⟩

/-- Several expressions, the last one first, as one choice; one level deeper than each of them. -/
def inChoice (reversed : List Nested) : Nested :=
  match reversed with
  | [r] => r
  | rs => ⟨ofBranches (rs.reverse.map (·.expression)), greatestDepth rs + 1⟩

/-! ## Expressions -/

/-- Reads one character, or what an escape stands for. -/
def readAtom? (c : Char) (cs : List Char) : Option (Nested × List Char) :=
  match c with
  | '.' => some (⟨.oneOf (.spans (CharSet.toSpans .notNewline)), 0⟩, cs)
  | '^' => some (⟨.place .start, 0⟩, cs)
  | '$' => some (⟨.place .stop, 0⟩, cs)
  | '\\' =>
    (readEscape? cs).map fun
      | (.char c, rest) => (⟨.text [c], 0⟩, rest)
      | (.set s, rest) => (⟨ofSet s, 0⟩, rest)
      | (.place p, rest) => (⟨.place p, 0⟩, rest)
  | c => some (⟨.text [c], 0⟩, cs)

/-- Reads up to a closing parenthesis or the end, where at most `room` levels may be open. `before`
holds the branches that are complete and `items` the expressions of the one that is not, the last
one first. -/
def readBranches? : (fuel : Nat) → (room : Nat) → (before items : List Nested) → Remaining →
    Option (Nested × Remaining)
  | 0, _, _, _, _ => none
  | fuel + 1, room, before, items, at_ =>
    match at_.text with
    | [] | ')' :: _ => some (inChoice (inSequence items :: before), at_)
    | '|' :: rest =>
      readBranches? fuel room (inSequence items :: before) [] { at_ with text := rest }
    | '(' :: rest => do
      let (name, body) ← readOpening? { at_ with text := rest }
      match room with
      | 0 => none
      | room + 1 =>
        let (r, after) ← readBranches? fuel room [] [] body
        match after.text with
        | ')' :: rest =>
          readBranches? fuel (room + 1) before (enclose name r :: items) { after with text := rest }
        | _ => none
    | '[' :: rest => do
      let (set, rest) ← readClass? (rest.length + 1) room rest
      readBranches? fuel room before (⟨ofSet set.set, set.depth⟩ :: items) { at_ with text := rest }
    | c :: rest =>
      if startsRepeat c then
        match items with
        | [] => none
        | r :: items => do
          let (r, rest) ← readPasses? r c rest
          readBranches? fuel room before (r :: items) { at_ with text := rest }
      else do
        let (r, rest) ← readAtom? c rest
        readBranches? fuel room before (r :: items) { at_ with text := rest }

/-- The expression that a text writes. -/
def read? (s : String) : Option (Regex GroupName) :=
  match readBranches? (s.length + 1) depthLimit [] [] ⟨s.toList, 0, []⟩ with
  | some (r, ⟨[], _, _⟩) => if r.depth ≤ depthLimit then some r.expression else none
  | _ => none

end Regex

end PlainSteps
