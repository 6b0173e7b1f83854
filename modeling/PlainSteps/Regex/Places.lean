import PlainSteps.Regex.Syntax

/-!
# Places of a text

The places of a text are counted from 0, which is before the first character. A set of places tells
a search where it need not go: from a place outside `Regex.before text r goal`, no match of `r` ends
in `goal`. The set may be larger than it has to be, but never smaller.

* `Places`: a set of places, and `Places.has`.
* `Places.back`, `Places.backMany`: the places one, or any number of, accepted characters before a
  set.
* `Regex.alphabet`: the characters that a match can consume.
* `Regex.before`: places from which a match may end in a set.
-/

namespace PlainSteps

/-- A set of places in a text, with a flag for each place. -/
structure Places where
  flags : Array Bool

namespace Places

/-- Whether a place is in a set. -/
def has (p : Places) (i : Nat) : Bool := p.flags.getD i false

/-- The places up to `size` that a test accepts. -/
def upTo (size : Nat) (test : Nat → Bool) : Places := ⟨Array.ofFn fun i : Fin (size + 1) => test i⟩

/-- All places up to `size`. -/
def all (size : Nat) : Places := upTo size fun _ => true

/-- The places that are in one of two sets, in a text of the given size. -/
def union (size : Nat) (p q : Places) : Places := upTo size fun i => p.has i || q.has i

/-- The places where an accepted character comes, and then a place of the set. -/
def back (text : Array Char) (accepts : Char → Bool) (goal : Places) : Places :=
  upTo text.size fun i => goal.has (i + 1) && text[i]?.any accepts

/-- Flags for the places below `i` in front of those that are known, of which `next` is the first:
a place is flagged if it is in the set, or an accepted character and a flagged place come. -/
def backManyFrom (text : Array Char) (accepts : Char → Bool) (goal : Places) :
    (i : Nat) → (next : Bool) → (known : List Bool) → List Bool
  | 0, _, known => known
  | i + 1, next, known =>
    let here := goal.has i || (next && text[i]?.any accepts)
    backManyFrom text accepts goal i here (here :: known)

/-- The places where any number of accepted characters come, and then a place of the set. -/
def backMany (text : Array Char) (accepts : Char → Bool) (goal : Places) : Places :=
  ⟨(backManyFrom text accepts goal (text.size + 1) false []).toArray⟩

end Places

namespace Regex

variable {ν : Type}

/-- The characters that a match can consume, and perhaps others. -/
def alphabet : Regex ν → CharSet
  | .text cs => cs.foldr (fun c s => .union (.char c) s) .nothing
  | .oneOf set => set
  | .cat r s | .alt r s => .union r.alphabet s.alphabet
  | .group r | .named _ r | .times r _ _ _ => r.alphabet
  | .empty | .place _ => .nothing

/-- The places from which any number of passes may lead to a set. -/
def beforeMany (text : Array Char) (r : Regex ν) (goal : Places) : Places :=
  .backMany text r.alphabet.contains goal

/-- The places from which a match may end in a set. -/
def before (text : Array Char) : Regex ν → Places → Places
  | .empty, goal => goal
  | .text cs, goal => cs.foldr (fun c goal => goal.back text (c == ·)) goal
  | .oneOf set, goal => goal.back text set.contains
  | .place .start, goal => .upTo 0 goal.has
  | .place .stop, goal => .upTo text.size fun i => i == text.size && goal.has i
  | .place _, goal => goal
  | .cat r s, goal => r.before text (s.before text goal)
  | .alt r s, goal => .union text.size (r.before text goal) (s.before text goal)
  | .group r, goal | .named _ r, goal => r.before text goal
  | .times r 0 _ _, goal => r.beforeMany text goal
  | .times r (_ + 1) _ _, goal => r.before text (r.beforeMany text goal)

end Regex

end PlainSteps
