import PlainSteps.Regex.Syntax

/-!
# Normal forms of expressions

Expressions put together from parts, without what makes no difference: nothing is nested that need
not be, neighbouring texts are one text, and alternatives of single characters are one set.

* `Regex.leastLength?`, `Regex.greatestLength?`: bounds on the lengths of matches.
* `Regex.ofSet`: one character of a set.
* `Regex.ofParts`: several expressions, one after the other.
* `Regex.ofBranches`: several expressions, of which the earlier are preferred. What all of them
  open with is matched once, in front of the choice between them.
* `Regex.ofPasses`: an expression that is repeated. What matches the empty text only is matched at
  most once.
-/

namespace PlainSteps

namespace Regex

variable {ν : Type}

/-! ## Lengths -/

/-- What a function makes of two numbers, where both are known. -/
def bothOf (f : Nat → Nat → Nat) (m n : Option Nat) : Option Nat :=
  m.bind fun m => n.map (f m)

/-- The least number of characters of a match; unknown where a part cannot match. -/
def leastLength? : Regex ν → Option Nat
  | .empty | .place _ => some 0
  | .text cs => some cs.length
  | .oneOf set => if set.toSpans = .nothing then none else some 1
  | .cat r s => bothOf (· + ·) r.leastLength? s.leastLength?
  | .alt r s => bothOf min r.leastLength? s.leastLength?
  | .group r | .named _ r => r.leastLength?
  | .times r least _ _ => r.leastLength?.map (least * ·)

/-- The greatest number of characters of a match; unknown where there is no bound, and where a part
cannot match. -/
def greatestLength? : Regex ν → Option Nat
  | .empty | .place _ => some 0
  | .text cs => some cs.length
  | .oneOf set => if set.toSpans = .nothing then none else some 1
  | .cat r s => bothOf (· + ·) r.greatestLength? s.greatestLength?
  | .alt r s => bothOf max r.greatestLength? s.greatestLength?
  | .group r | .named _ r => r.greatestLength?
  | .times r _ most _ => bothOf (· * ·) most r.greatestLength?

/-- Whether no match is longer than the empty text. -/
def isHollow (r : Regex ν) : Bool := r.greatestLength? == some 0

/-- Whether every match has a character at least. -/
def consumes (r : Regex ν) : Bool := r.leastLength?.any (0 < ·)

/-! ## Sets -/

/-- An expression for one character of a set; of a set of one character, for that character. -/
def ofSet (s : Spans) : Regex ν :=
  match s.pieces with
  | [(first, last)] => if first = last then .text [Char.ofNat first] else .oneOf (.spans s)
  | _ => .oneOf (.spans s)

/-- The set of which an expression matches one character, if it is such an expression. -/
def set? : Regex ν → Option Spans
  | .text [c] => some (.single c.toNat)
  | .oneOf set => some set.toSpans
  | _ => none

/-! ## Sequences -/

/-- The expressions that an expression matches one after the other. -/
def parts : Regex ν → List (Regex ν)
  | .cat r s => r.parts ++ s.parts
  | .empty => []
  | r => [r]

/-- The same expressions with each run of texts in one piece. -/
def joinTexts : List (Regex ν) → List (Regex ν)
  | [] => []
  | r :: rs =>
    match r, joinTexts rs with
    | .text cs, .text ds :: more => .text (cs ++ ds) :: more
    | r, more => r :: more

/-- Expressions one after the other, as they are. -/
def chain : List (Regex ν) → Regex ν
  | [] => .empty
  | [r] => r
  | r :: rs => .cat r (chain rs)

/-- Several expressions, one after the other. -/
def ofParts (rs : List (Regex ν)) : Regex ν := chain (joinTexts (rs.flatMap parts))

/-! ## Choices -/

/-- The expressions between which an expression chooses. -/
def branches : Regex ν → List (Regex ν)
  | .alt r s => r.branches ++ s.branches
  | r => [r]

/-- The number of expressions that an expression is made of. -/
def nodes : Regex ν → Nat
  | .cat r s | .alt r s => r.nodes + s.nodes + 1
  | .group r | .named _ r | .times r _ _ _ => r.nodes + 1
  | _ => 1

/-- What two lists open with alike. -/
def commonStart {α : Type} [DecidableEq α] : List α → List α → List α
  | x :: xs, y :: ys => if x = y then x :: commonStart xs ys else []
  | _, _ => []

/-- What several sequences open with alike, if each has two expressions at least. -/
def sharedStart [DecidableEq ν] : List (List (Regex ν)) → List (Regex ν)
  | [] => []
  | first :: rest =>
    if (first :: rest).all (2 ≤ ·.length) then rest.foldl commonStart first else []

/-- Several expressions, of which the earlier are preferred; `fuel` bounds how often they are found
to open alike. -/
def ofBranchesWithin [DecidableEq ν] : (fuel : Nat) → List (Regex ν) → Regex ν
  | 0, rs => alternatives rs
  | fuel + 1, rs =>
    let rs := rs.flatMap branches
    match rs with
    | [r] => r
    | rs =>
      match rs.mapM set? with
      | some sets => ofSet (sets.foldl Spans.union .nothing)
      | none =>
        let sequences := rs.map parts
        let shared := sharedStart sequences
        if shared.isEmpty then alternatives rs
        else
          ofParts (shared ++
            [ofBranchesWithin fuel (sequences.map fun ps => ofParts (ps.drop shared.length))])

/-- Several expressions, of which the earlier are preferred. -/
def ofBranches [DecidableEq ν] (rs : List (Regex ν)) : Regex ν :=
  ofBranchesWithin (rs.foldl (fun n r => n + r.nodes) 1) rs

/-! ## Repetitions -/

/-- An expression that is repeated. -/
def ofPasses (r : Regex ν) (least : Nat) (most : Option Nat) (greedy : Bool) : Regex ν :=
  let (least, most) :=
    if r.isHollow then (min least 1, some (min (most.getD 1) 1)) else (least, most)
  if least = 0 ∧ most = some 0 then .empty
  else if least = 1 ∧ most = some 1 then r
  else .times r least most greedy

end Regex

end PlainSteps
