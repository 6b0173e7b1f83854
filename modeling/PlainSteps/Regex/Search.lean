import PlainSteps.Regex.Places

/-!
# Searching a text

A search finds the leftmost match, and of the matches that start there the preferred one: the
earlier alternative, and more or fewer passes of a repetition as it is greedy or lazy.

* `Cursor`: a place in a text, with the groups recorded on the way there.
* `Regex.run`: hands the places where a match may end to a continuation, in order of preference,
  until it accepts one.
* `Regex.guide`: the same without the places from which a match cannot end where it has to.
* `Regex.search?`: the groups of the preferred match.

A repetition makes no pass that consumes nothing, except that the first pass of `r+` may be empty.
The search follows the structure of the expression; it serves templates, whose repetitions all
consume. Programs serve expressions that authors write.
-/

namespace PlainSteps

/-- A place in a text. -/
structure Cursor (ν : Type) where
  /-- The characters before the place, the nearest first. -/
  before : List Char
  /-- The number of characters before the place. -/
  position : Nat
  /-- The characters after it. -/
  rest : List Char
  /-- The texts of the groups that have closed, the latest first. -/
  found : List (ν × List Char)

namespace Cursor

variable {ν : Type}

/-- The place after `cs`, where the text goes on with `cs`. -/
def skip? (cs : List Char) (s : Cursor ν) : Option (Cursor ν) :=
  (cs.isPrefixOf? s.rest).map fun rest =>
    { s with before := cs.reverse ++ s.before, position := s.position + cs.length, rest }

/-- The place after the next character, where that is in the set. -/
def step? (set : CharSet) (s : Cursor ν) : Option (Cursor ν) :=
  match s.rest with
  | c :: rest =>
    if set.contains c then
      some { s with before := c :: s.before, position := s.position + 1, rest }
    else none
  | [] => none

/-- Whether the place meets a condition. -/
def meets (s : Cursor ν) (p : Place) : Bool := p.holds s.before.head? s.rest.head?

/-- The same place with the text since `origin` recorded under a name. -/
def record (s : Cursor ν) (name : ν) (origin : Cursor ν) : Cursor ν :=
  { s with found := (name, origin.rest.take (s.position - origin.position)) :: s.found }

end Cursor

namespace Regex

variable {ν α : Type}

/-- Passes that consume, then the continuation; `fuel` bounds the characters that remain. -/
def passes (body : Cursor ν → (Cursor ν → Option α) → Option α) (greedy : Bool) :
    Nat → Cursor ν → (Cursor ν → Option α) → Option α
  | 0, s, k => k s
  | fuel + 1, s, k =>
    let more := fun (_ : Unit) =>
      body s fun t => if s.position < t.position then passes body greedy fuel t k else none
    if greedy then more () <|> k s else k s <|> more ()

/-- At least one pass: the first may be empty, and is then the last. -/
def onePassOrMore (body : Cursor ν → (Cursor ν → Option α) → Option α) (greedy : Bool)
    (s : Cursor ν) (k : Cursor ν → Option α) : Option α :=
  body s fun t =>
    if s.position < t.position then passes body greedy t.rest.length t k else k t

/-- At most `n` passes. -/
def passesUpTo (body : Cursor ν → (Cursor ν → Option α) → Option α) (greedy : Bool) :
    Nat → Cursor ν → (Cursor ν → Option α) → Option α
  | 0, s, k => k s
  | n + 1, s, k =>
    if greedy then (body s fun t => passesUpTo body greedy n t k) <|> k s
    else k s <|> body s fun t => passesUpTo body greedy n t k

/-- Exactly `n` passes, and then what `next` does. -/
def passesThen (body : Cursor ν → (Cursor ν → Option α) → Option α)
    (next : Cursor ν → (Cursor ν → Option α) → Option α) :
    Nat → Cursor ν → (Cursor ν → Option α) → Option α
  | 0, s, k => next s k
  | n + 1, s, k => body s fun t => passesThen body next n t k

/-- A repetition between two bounds. -/
def repeated (body : Cursor ν → (Cursor ν → Option α) → Option α) (least : Nat)
    (most : Option Nat) (greedy : Bool) (s : Cursor ν) (k : Cursor ν → Option α) : Option α :=
  match least, most with
  | 0, none =>
    if greedy then onePassOrMore body greedy s k <|> k s
    else k s <|> onePassOrMore body greedy s k
  | n + 1, none => passesThen body (onePassOrMore body greedy) n s k
  | n, some m => passesThen body (passesUpTo body greedy (m - n)) n s k

/-- Hands the places where a match that starts at `s` may end to `k`, in order of preference, and
returns its first answer. -/
def run : Regex ν → Cursor ν → (Cursor ν → Option α) → Option α
  | .empty, s, k => k s
  | .text cs, s, k => (s.skip? cs).bind k
  | .oneOf set, s, k => (s.step? set).bind k
  | .place p, s, k => if s.meets p then k s else none
  | .cat a b, s, k => a.run s fun t => b.run t k
  | .alt a b, s, k => a.run s k <|> b.run s k
  | .group r, s, k => r.run s k
  | .named n r, s, k => r.run s fun t => k (t.record n s)
  | .times r least most greedy, s, k => repeated r.run least most greedy s k

/-! ## Without vain attempts -/

/-- Whether at most one match starts at a place. -/
def isRigid : Regex ν → Bool
  | .cat .. | .alt .. | .group _ | .named .. | .times .. => false
  | _ => true

/-- Hands on those places only that are in a set. -/
def onlyIn (goal : Places) (k : Cursor ν → Option α) (s : Cursor ν) : Option α :=
  if goal.has s.position then k s else none

/-- A search that has been made ready for a text. -/
structure Guide (ν α : Type) where
  /-- The places from which a match may end where it has to. -/
  starts : Places
  /-- What `run` does, without the places from which no match ends where it has to. -/
  search : Cursor ν → (Cursor ν → Option α) → Option α

/-- Makes ready the search for matches that end in `goal`, for continuations that accept places of
`goal` only. Each set of places is made once, however often the search comes to it. -/
def guide (text : Array Char) : Regex ν → (goal : Places) → Guide ν α
  | .cat a b, goal =>
    let second := b.guide text goal
    if a.isRigid then
      ⟨a.before text second.starts, fun s k => a.run s fun t => second.search t k⟩
    else
      let first := a.guide text second.starts
      ⟨first.starts, fun s k => first.search s (onlyIn second.starts fun t => second.search t k)⟩
  | .alt a b, goal =>
    let first := a.guide text goal
    let second := b.guide text goal
    ⟨.union text.size first.starts second.starts, fun s k => first.search s k <|> second.search s k⟩
  | .group r, goal => r.guide text goal
  | .named n r, goal =>
    let inner := r.guide text goal
    ⟨inner.starts, fun s k => inner.search s (onlyIn goal fun t => k (t.record n s))⟩
  | .times r least most greedy, goal =>
    let middle := r.beforeMany text goal
    let inner := r.guide text middle
    ⟨if least = 0 then middle else inner.starts,
      repeated (fun t k => inner.search t (onlyIn middle k)) least most greedy⟩
  | r, goal => ⟨r.before text goal, r.run⟩

/-! ## The leftmost match -/

/-- The groups of the preferred match at the leftmost place at or after a given one. -/
def searchFrom? (g : Guide ν (List (ν × List Char))) :
    (before : List Char) → (position : Nat) → (rest : List Char) → Option (List (ν × List Char))
  | before, position, rest =>
    let here := onlyIn g.starts (fun s => g.search s fun t => some t.found)
      ⟨before, position, rest, []⟩
    match rest with
    | [] => here
    | c :: more => here <|> searchFrom? g (c :: before) (position + 1) more

/-- The groups of the preferred match in a text. -/
def search? (r : Regex ν) (text : List Char) : Option (List (ν × List Char)) :=
  let chars := text.toArray
  searchFrom? (r.guide chars (.all chars.size)) [] 0 text

end Regex

end PlainSteps
