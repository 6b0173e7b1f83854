/-!
# Sets of code points

Sets of code points, kept as closed spans in ascending order. Spans start and end with characters;
the surrogates between U+D7FF and U+E000 are none.

* `Spans.ofList`: the set that a list of spans covers, whatever their order.
* `Spans.has`: whether a code point is in a set.
* `Spans.union`, `Spans.complement`, `Spans.inter`, `Spans.difference`, `Spans.symmDiff`: the sets
  that two sets make, and the rest of one.
-/

namespace PlainSteps

/-- A set of code points. -/
structure Spans where
  /-- The first and the last code point of each span. -/
  pieces : List (Nat × Nat)
  deriving DecidableEq, Repr

namespace Spans

/-- The largest code point. -/
def lastCode : Nat := 0x10FFFF

/-- The set without any code point. -/
def nothing : Spans := ⟨[]⟩

/-- The set of one code point. -/
def single (n : Nat) : Spans := ⟨[(n, n)]⟩

/-- Whether one of several ascending spans has a code point. -/
def hasIn : List (Nat × Nat) → Nat → Bool
  | [], _ => false
  | (first, last) :: rest, n => first ≤ n && (n ≤ last || hasIn rest n)

/-- Whether a code point is in a set. -/
def has (s : Spans) (n : Nat) : Bool := hasIn s.pieces n

/-- A span and those after it, with spans joined that touch or overlap. -/
def join : (first last : Nat) → List (Nat × Nat) → List (Nat × Nat)
  | first, last, [] => [(first, last)]
  | first, last, (next, stop) :: rest =>
    if next ≤ last + 1 then join first (max last stop) rest
    else (first, last) :: join next stop rest

/-- The set that a list of spans covers. -/
def ofList (spans : List (Nat × Nat)) : Spans :=
  match spans.mergeSort fun a b => a.1 ≤ b.1 with
  | [] => nothing
  | (first, last) :: rest => ⟨join first last rest⟩

/-- What is in one of two sets. -/
def union (s t : Spans) : Spans := ofList (s.pieces ++ t.pieces)

/-- The code point of the next character, after which no surrogate comes. -/
def codeAfter (n : Nat) : Nat := if n = 0xD7FF then 0xE000 else n + 1

/-- The code point of the character before, in front of which no surrogate stands. -/
def codeBefore (n : Nat) : Nat := if n = 0xE000 then 0xD7FF else n - 1

/-- The gaps between ascending spans, from `next` on. -/
def gaps : (next : Nat) → List (Nat × Nat) → List (Nat × Nat)
  | next, [] => if next ≤ lastCode then [(next, lastCode)] else []
  | next, (first, last) :: rest =>
    if next < first then (next, codeBefore first) :: gaps (codeAfter last) rest
    else gaps (codeAfter last) rest

/-- What is not in a set. -/
def complement (s : Spans) : Spans := ⟨gaps 0 s.pieces⟩

/-- What two spans have in common. -/
def common? (a b : Nat × Nat) : Option (Nat × Nat) :=
  let first := max a.1 b.1
  let last := min a.2 b.2
  if first ≤ last then some (first, last) else none

/-- What is in both of two sets. -/
def inter (s t : Spans) : Spans := ⟨s.pieces.flatMap fun a => t.pieces.filterMap (common? a)⟩

/-- What is in a span and not in ascending ones. -/
def cut : (first last : Nat) → List (Nat × Nat) → List (Nat × Nat)
  | first, last, [] => [(first, last)]
  | first, last, (low, high) :: rest =>
    if high < first then cut first last rest
    else if last < low then [(first, last)]
    else
      (if first < low then [(first, codeBefore low)] else [])
        ++ (if high < last then cut (codeAfter high) last rest else [])

/-- What is in the first of two sets and not in the second. -/
def difference (s t : Spans) : Spans := ⟨s.pieces.flatMap fun (a, b) => cut a b t.pieces⟩

/-- What is in exactly one of two sets. -/
def symmDiff (s t : Spans) : Spans := (s.union t).difference (s.inter t)

end Spans

end PlainSteps
