import PlainSteps.Regex.Escape

/-!
# Reading classes

A class is written between square brackets: characters, spans of characters, the classes that an
escape or a name in `[:…:]` stands for, and classes within the class. Two classes are combined by
`&&` (what is in both), `--` (what is in the first only) and `~~` (what is in one only), from the
left to the right; what stands side by side belongs together more closely.

* `Regex.readClass?`: the set that a class writes, and how deeply the class is nested.
-/

namespace PlainSteps

namespace Regex

/-- The set that a name in `[:…:]` stands for. -/
def namedClass? : String → Option Spans
  | "alnum" => some ⟨[(0x30, 0x39), (0x41, 0x5A), (0x61, 0x7A)]⟩
  | "alpha" => some ⟨[(0x41, 0x5A), (0x61, 0x7A)]⟩
  | "ascii" => some ⟨[(0, 0x7F)]⟩
  | "blank" => some ⟨[(9, 9), (0x20, 0x20)]⟩
  | "cntrl" => some ⟨[(0, 0x1F), (0x7F, 0x7F)]⟩
  | "digit" => some ⟨[(0x30, 0x39)]⟩
  | "graph" => some ⟨[(0x21, 0x7E)]⟩
  | "lower" => some ⟨[(0x61, 0x7A)]⟩
  | "print" => some ⟨[(0x20, 0x7E)]⟩
  | "punct" => some ⟨[(0x21, 0x2F), (0x3A, 0x40), (0x5B, 0x60), (0x7B, 0x7E)]⟩
  | "space" => some ⟨[(9, 13), (0x20, 0x20)]⟩
  | "upper" => some ⟨[(0x41, 0x5A)]⟩
  | "word" => some ⟨[(0x30, 0x39), (0x41, 0x5A), (0x5F, 0x5F), (0x61, 0x7A)]⟩
  | "xdigit" => some ⟨[(0x30, 0x39), (0x41, 0x46), (0x61, 0x66)]⟩
  | _ => none

/-- What a negated class has after a span of the class that ends with `last`, where the others are
still to come: the gaps between them. Where no character lies between two of them, around the
surrogates, it has the character that the one ends with and that with which the other starts. -/
def negatedAfter : (last : Nat) → List (Nat × Nat) → List (Nat × Nat)
  | last, [] => if last < Spans.lastCode then [(Spans.codeAfter last, Spans.lastCode)] else []
  | last, (first, stop) :: rest =>
    let low := Spans.codeAfter last
    let high := Spans.codeBefore first
    (min low high, max low high) :: negatedAfter stop rest

/-- The set of a negated class. -/
def negate (s : Spans) : Spans :=
  match s.pieces with
  | [] => ⟨[(0, Spans.lastCode)]⟩
  | (first, last) :: rest =>
    ⟨(if 0 < first then [(0, Spans.codeBefore first)] else []) ++ negatedAfter last rest⟩

/-- Reads a class by name after its opening bracket. -/
def readNamedClass? : List Char → Option (Spans × List Char)
  | ':' :: cs =>
    let negated := cs.head? == some '^'
    let cs := if negated then cs.drop 1 else cs
    match cs.dropWhile (· != ':') with
    | ':' :: ']' :: rest =>
      (namedClass? (String.ofList (cs.takeWhile (· != ':')))).map fun set =>
        (if negated then negate set else set, rest)
    | _ => none
  | _ => none

/-- Reads a character that may end a span. -/
def readSpanEnd? : List Char → Option (Char × List Char)
  | '\\' :: cs =>
    match readEscape? cs with
    | some (.char c, rest) => some (c, rest)
    | _ => none
  | c :: cs => some (c, cs)
  | [] => none

/-- Whether a hyphen comes that makes a span of what is before and after it. -/
def opensSpan : List Char → Bool
  | '-' :: c :: _ => c != ']' && c != '-'
  | ['-'] => true
  | _ => false

/-- Reads one character or one span of characters that starts with `first`. -/
def readSpan? (first : Char) (cs : List Char) : Option (Spans × List Char) :=
  if opensSpan cs then do
    let (last, rest) ← readSpanEnd? (cs.drop 1)
    if first ≤ last then some (⟨[(first.toNat, last.toNat)]⟩, rest) else none
  else some (.single first.toNat, cs)

/-- Reads one item of a class that is not a class within brackets. -/
def readItem? : List Char → Option (Spans × List Char)
  | '\\' :: cs => do
    match ← readEscape? cs with
    | (.char c, rest) => readSpan? c rest
    | (.set s, rest) => if opensSpan rest then none else some (s, rest)
    | (.place _, _) => none
  | c :: cs => readSpan? c cs
  | [] => none

/-- What two classes side by side are combined to. -/
inductive ClassOperator where
  | both
  | firstOnly
  | oneOnly

/-- The set that an operator makes of two. -/
def ClassOperator.apply : ClassOperator → Spans → Spans → Spans
  | .both => .inter
  | .firstOnly => .difference
  | .oneOnly => .symmDiff

/-- Reads an operator. -/
def readOperator? : List Char → Option (ClassOperator × List Char)
  | '&' :: '&' :: cs => some (.both, cs)
  | '-' :: '-' :: cs => some (.firstOnly, cs)
  | '~' :: '~' :: cs => some (.oneOnly, cs)
  | _ => none

/-- A set, and how deeply what writes it is nested. -/
structure NestedSet where
  set : Spans
  depth : Nat

/-- Items side by side. -/
structure ClassItems where
  /-- The spans of all items. -/
  spans : List (Nat × Nat) := []
  count : Nat := 0
  /-- The depth of the item that is nested most deeply. -/
  depth : Nat := 0

/-- The items with one more. -/
def ClassItems.push (items : ClassItems) (item : NestedSet) : ClassItems :=
  ⟨item.set.pieces ++ items.spans, items.count + 1, max items.depth item.depth⟩

/-- The set of items; several items are one level deeper than each. -/
def ClassItems.toSet (items : ClassItems) : NestedSet :=
  ⟨.ofList items.spans, if items.count ≤ 1 then items.depth else items.depth + 1⟩

/-- What an operator that waits for its second class makes of it. -/
def combine : Option (ClassOperator × NestedSet) → NestedSet → NestedSet
  | none, s => s
  | some (op, first), s => ⟨op.apply first.set s.set, max first.depth s.depth + 1⟩

mutual

/-- Reads what remains of a class, up to its closing bracket. -/
def readItems? : (fuel : Nat) → (room : Nat) → Option (ClassOperator × NestedSet) → ClassItems →
    List Char → Option (NestedSet × List Char)
  | 0, _, _, _, _ => none
  | _ + 1, _, _, _, [] => none
  | _ + 1, _, waiting, items, ']' :: cs => some (combine waiting items.toSet, cs)
  | fuel + 1, room, waiting, items, '[' :: cs =>
    match readNamedClass? cs with
    | some (set, rest) => readItems? fuel room waiting (items.push ⟨set, 0⟩) rest
    | none => do
      let (item, rest) ← readClass? fuel room cs
      readItems? fuel room waiting (items.push item) rest
  | fuel + 1, room, waiting, items, cs =>
    match readOperator? cs with
    | some (op, rest) =>
      readItems? fuel room (some (op, combine waiting items.toSet)) {} rest
    | none => do
      let (set, rest) ← readItem? cs
      readItems? fuel room waiting (items.push ⟨set, 0⟩) rest

/-- Reads a class after its opening bracket, where at most `room` levels may be open: a closing
bracket or hyphens in front are items. -/
def readClass? : (fuel : Nat) → (room : Nat) → List Char → Option (NestedSet × List Char)
  | 0, _, _ => none
  | _ + 1, 0, _ => none
  | fuel + 1, room + 1, cs => do
    let negated := cs.head? == some '^'
    let body := if negated then cs.drop 1 else cs
    let hyphens := body.takeWhile (· == '-')
    let body := body.dropWhile (· == '-')
    let items := hyphens.foldl (fun items c => ClassItems.push items ⟨.single c.toNat, 0⟩) {}
    let (items, body) :=
      match hyphens, body with
      | [], ']' :: rest => (items.push ⟨.single ']'.toNat, 0⟩, rest)
      | _, body => (items, body)
    let (inner, rest) ← readItems? fuel room none items body
    pure (⟨if negated then negate inner.set else inner.set, inner.depth + 1⟩, rest)

end

end Regex

end PlainSteps
