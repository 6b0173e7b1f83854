import PlainSteps.Regex.Places

/-!
# Lemmas about sets of places

* `Places.has_upTo`, `Places.has_union`, `Places.has_back`: the places in a set that an operation
  makes.
* `Places.has_backMany_of_has`, `Places.has_backMany_of_next`: the set that `Places.backMany` makes
  has all places of the goal, and each place where an accepted character and one of its places come.

Proof-only: no module that runs imports this one.
-/

namespace PlainSteps.Places

theorem has_upTo (size : Nat) (test : Nat → Bool) (i : Nat) :
    (upTo size test).has i = (decide (i ≤ size) && test i) := by
  unfold has upTo
  by_cases h : i ≤ size
  · have : i < size + 1 := Nat.lt_succ_of_le h
    simp [Array.getD, h, this]
  · have : ¬ i < size + 1 := by omega
    simp [Array.getD, h, this]

theorem has_all {size i : Nat} (h : i ≤ size) : (all size).has i = true := by
  simp [all, has_upTo, h]

theorem has_union {size i : Nat} (h : i ≤ size) (p q : Places) :
    (union size p q).has i = (p.has i || q.has i) := by
  simp [union, has_upTo, h]

theorem has_back {text : Array Char} {accepts : Char → Bool} {goal : Places} {i : Nat} {c : Char}
    (next : text[i]? = some c) (accepted : accepts c = true) (rest : goal.has (i + 1) = true) :
    (goal.back text accepts).has i = true := by
  have : i < text.size := (Array.getElem?_eq_some_iff.1 next).1
  simp [back, has_upTo, next, accepted, rest, Nat.le_of_lt this]

/-! ## Any number of characters -/

variable {text : Array Char} {accepts : Char → Bool} {goal : Places}

/-- Whether a place is flagged, for the flag of the place after it. -/
private def flagAt (text : Array Char) (accepts : Char → Bool) (goal : Places) (i : Nat)
    (next : Bool) : Bool :=
  goal.has i || (next && text[i]?.any accepts)

private theorem getD_backManyFrom_known (text : Array Char) (accepts : Char → Bool)
    (goal : Places) (i : Nat) (next : Bool) (known : List Bool) (j : Nat) :
    (backManyFrom text accepts goal i next known).getD (i + j) false = known.getD j false := by
  induction i generalizing next known j with
  | zero => simp [backManyFrom]
  | succ i ih =>
    have := ih (flagAt text accepts goal i next) (flagAt text accepts goal i next :: known) (j + 1)
    simp only [backManyFrom, flagAt] at this ⊢
    rw [show i + 1 + j = i + (j + 1) by omega, this]
    simp

private theorem getD_backManyFrom (text : Array Char) (accepts : Char → Bool)
    (goal : Places) (i : Nat) (next : Bool) (known : List Bool) (j : Nat)
    (first : known.getD 0 false = next) (h : j < i) :
    (backManyFrom text accepts goal i next known).getD j false =
      flagAt text accepts goal j
        ((backManyFrom text accepts goal i next known).getD (j + 1) false) := by
  induction i generalizing next known j with
  | zero => omega
  | succ i ih =>
    simp only [backManyFrom]
    by_cases hj : j < i
    · exact ih _ _ j (by simp) hj
    · obtain rfl : j = i := by omega
      have here := getD_backManyFrom_known text accepts goal j
        (flagAt text accepts goal j next) (flagAt text accepts goal j next :: known) 0
      have after := getD_backManyFrom_known text accepts goal j
        (flagAt text accepts goal j next) (flagAt text accepts goal j next :: known) 1
      simp only [flagAt, Nat.add_zero] at here after ⊢
      rw [here, after]
      simp_all

private theorem has_backMany {i : Nat} (h : i ≤ text.size) :
    (goal.backMany text accepts).has i =
      flagAt text accepts goal i ((goal.backMany text accepts).has (i + 1)) := by
  have := getD_backManyFrom text accepts goal (text.size + 1)
    false [] i (by simp) (by omega)
  simpa [has, backMany, Array.getD_eq_getD_getElem?, List.getD_eq_getElem?_getD] using this

theorem has_backMany_of_has {i : Nat} (h : i ≤ text.size) (here : goal.has i = true) :
    (goal.backMany text accepts).has i = true := by
  simp [has_backMany h, flagAt, here]

theorem has_backMany_of_next {i : Nat} {c : Char} (next : text[i]? = some c)
    (accepted : accepts c = true) (rest : (goal.backMany text accepts).has (i + 1) = true) :
    (goal.backMany text accepts).has i = true := by
  have : i < text.size := (Array.getElem?_eq_some_iff.1 next).1
  simp [has_backMany (Nat.le_of_lt this), flagAt, next, accepted, rest]

end PlainSteps.Places
