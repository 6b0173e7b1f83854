import PlainSteps.Regex.Syntax

/-!
# Reading escapes

What a backslash and the characters after it stand for: a character that would otherwise have a
meaning, one of the classes `\d \s \w` and their complements, a character by its code point, or a
condition on a place.

* `Regex.readEscape?`: reads what follows a backslash.
-/

namespace PlainSteps

namespace Regex

/-- What a backslash and the characters after it stand for. -/
inductive Escaped where
  | char (c : Char)
  | set (s : Spans)
  | place (p : Place)

/-! ## Characters by code point -/

/-- The value of a hexadecimal digit. -/
def hexDigit? (c : Char) : Option Nat :=
  if c.isDigit then some (c.toNat - '0'.toNat)
  else if 'a' ≤ c && c ≤ 'f' then some (c.toNat - 'a'.toNat + 10)
  else if 'A' ≤ c && c ≤ 'F' then some (c.toNat - 'A'.toNat + 10)
  else none

/-- The number that one or more hexadecimal digits write. -/
def hexValue? (cs : List Char) : Option Nat :=
  if cs.isEmpty then none
  else cs.foldlM (fun n c => (hexDigit? c).map (n * 16 + ·)) 0

/-- The character with a given code point. -/
def charOf? (n : Nat) : Option Char :=
  if n < 0xD800 || (0xDFFF < n && n ≤ Spans.lastCode) then some (Char.ofNat n) else none

/-- The character that hexadecimal digits name. -/
def readCode? (digits rest : List Char) : Option (Escaped × List Char) := do
  let c ← charOf? (← hexValue? digits)
  pure (.char c, rest)

/-- A code point in a fixed number of hexadecimal digits or, in braces, in any number. -/
def readHex? (digits : Nat) : List Char → Option (Escaped × List Char)
  | '{' :: cs =>
    match cs.dropWhile (· != '}') with
    | '}' :: rest => readCode? (cs.takeWhile (· != '}')) rest
    | _ => none
  | cs => if cs.length < digits then none else readCode? (cs.take digits) (cs.drop digits)

/-! ## Conditions on places -/

/-- Whether a character may be part of the name of a condition. -/
def isConditionLetter (c : Char) : Bool := c.isAlpha || c == '-'

/-- The condition of a name. -/
def condition? : String → Option Place
  | "start" => some .wordStart
  | "end" => some .wordEnd
  | "start-half" => some .notAfterWord
  | "end-half" => some .notBeforeWord
  | _ => none

/-- Reads a condition after `\b`: a name may follow in braces. Braces in which no letter comes first
are left for a repetition. -/
def readCondition? : List Char → Option (Place × List Char)
  | '{' :: cs =>
    match cs with
    | [] => none
    | c :: _ =>
      if isConditionLetter c then
        match cs.dropWhile isConditionLetter with
        | '}' :: rest =>
          (condition? (String.ofList (cs.takeWhile isConditionLetter))).map fun p => (p, rest)
        | _ => none
      else some (.wordEdge, '{' :: cs)
  | cs => some (.wordEdge, cs)

/-! ## Escapes -/

/-- Reads what follows a backslash. -/
def readEscape? : List Char → Option (Escaped × List Char)
  | [] => none
  | c :: cs =>
    match c with
    | 'd' => some (.set ⟨Text.digitSpans⟩, cs)
    | 's' => some (.set ⟨Text.blankSpans⟩, cs)
    | 'w' => some (.set ⟨Text.wordSpans⟩, cs)
    | 'D' => some (.set (.complement ⟨Text.digitSpans⟩), cs)
    | 'S' => some (.set (.complement ⟨Text.blankSpans⟩), cs)
    | 'W' => some (.set (.complement ⟨Text.wordSpans⟩), cs)
    | 'b' => (readCondition? cs).map fun (p, rest) => (.place p, rest)
    | 'B' => some (.place .notWordEdge, cs)
    | '<' => some (.place .wordStart, cs)
    | '>' => some (.place .wordEnd, cs)
    | 'A' => some (.place .start, cs)
    | 'z' => some (.place .stop, cs)
    | 'a' => some (.char (Char.ofNat 7), cs)
    | 'f' => some (.char (Char.ofNat 12), cs)
    | 'v' => some (.char (Char.ofNat 11), cs)
    | 't' => some (.char '\t', cs)
    | 'n' => some (.char '\n', cs)
    | 'r' => some (.char '\r', cs)
    | 'x' => readHex? 2 cs
    | 'u' => readHex? 4 cs
    | 'U' => readHex? 8 cs
    | c => if c.toNat < 128 && !c.isAlphanum then some (.char c, cs) else none

end Regex

end PlainSteps
