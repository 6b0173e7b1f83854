/-!
# Balanced braces

Braces are balanced when each opening one is closed by a later one and each closing one closes an
earlier one, with balanced braces between the two.

* `Balanced`: balanced braces.
* `LeavesOpen`, `ClosesNothing`: an opening brace that none closes, and braces after which a closing
  one closes none.
* `leftOpen?`: the number of braces that are left open, by counting.
* `balanced_iff`: counting finds out whether braces are balanced.
* `leavesOpen_of_lt`, `Balanced.closesNothing`: the brace that is left over when they are not.

Proof-only: no module that runs imports this one.
-/

namespace PlainSteps

/-- One of the two braces. -/
inductive Brace where
  | opening
  | closing
  deriving DecidableEq, Repr

/-- The character of a brace. -/
def Brace.char : Brace → Char
  | .opening => '{'
  | .closing => '}'

/-- Each opening brace is closed, and each closing one closes one. -/
inductive Balanced : List Brace → Prop
  | nil : Balanced []
  | pair {inner rest : List Brace} (within : Balanced inner) (after : Balanced rest) :
      Balanced (.opening :: (inner ++ .closing :: rest))

/-- An opening brace is closed by no later one. -/
def LeavesOpen (braces : List Brace) : Prop :=
  ∃ before after, braces = before ++ .opening :: after ∧
    ∀ inner rest, after = inner ++ .closing :: rest → ¬ Balanced inner

/-- A closing brace after these closes none of them. -/
def ClosesNothing (before : List Brace) : Prop :=
  ∀ outer inner, before = outer ++ .opening :: inner → ¬ Balanced inner

/-- The number of braces that are open after `braces`, of which `depth` were open before; `none`
where a closing brace closes nothing. -/
def leftOpen? : (depth : Nat) → (braces : List Brace) → Option Nat
  | depth, [] => some depth
  | depth, .opening :: rest => leftOpen? (depth + 1) rest
  | 0, .closing :: _ => none
  | depth + 1, .closing :: rest => leftOpen? depth rest

theorem leftOpen?_append (depth : Nat) (braces rest : List Brace) :
    leftOpen? depth (braces ++ rest) = (leftOpen? depth braces).bind (leftOpen? · rest) := by
  induction braces generalizing depth with
  | nil => rfl
  | cons brace braces ih =>
    cases brace with
    | opening => exact ih (depth + 1)
    | closing =>
      cases depth with
      | zero => rfl
      | succ depth => exact ih depth

/-- Balanced braces leave open what was open. -/
theorem Balanced.leftOpen? {braces : List Brace} (h : Balanced braces) (depth : Nat) :
    PlainSteps.leftOpen? depth braces = some depth := by
  induction h generalizing depth with
  | nil => rfl
  | pair _ _ within after =>
    rw [PlainSteps.leftOpen?, leftOpen?_append, within]
    exact after depth

/-- Braces that close as many as `depth`: balanced ones, with that many closing braces between
them. -/
def Closes : (depth : Nat) → List Brace → Prop
  | 0, braces => Balanced braces
  | depth + 1, braces => ∃ inner rest, braces = inner ++ .closing :: rest ∧ Balanced inner ∧
      Closes depth rest

/-- A balanced pair can be put in front. -/
theorem Closes.pair {inner rest : List Brace} (within : Balanced inner) {depth : Nat}
    (h : Closes depth rest) : Closes depth (.opening :: (inner ++ .closing :: rest)) := by
  cases depth with
  | zero => exact Balanced.pair within h
  | succ depth =>
    obtain ⟨between, more, rfl, balanced, closes⟩ := h
    exact ⟨.opening :: (inner ++ .closing :: between), more, by simp, .pair within balanced, closes⟩

/-- Braces that leave nothing open close what was open. -/
theorem closes_of_leftOpen? {depth : Nat} {braces : List Brace}
    (h : leftOpen? depth braces = some 0) : Closes depth braces := by
  induction braces generalizing depth with
  | nil =>
    cases h
    exact .nil
  | cons brace rest ih =>
    cases brace with
    | opening =>
      obtain ⟨inner, more, rfl, within, closes⟩ := ih h
      exact closes.pair within
    | closing =>
      cases depth with
      | zero => cases h
      | succ depth => exact ⟨[], rest, rfl, .nil, ih h⟩

/-- Braces are balanced exactly if nothing is left open and no brace closes nothing. -/
theorem balanced_iff {braces : List Brace} : Balanced braces ↔ leftOpen? 0 braces = some 0 :=
  ⟨fun h => h.leftOpen? 0, closes_of_leftOpen?⟩

/-- A closing brace after balanced ones closes nothing. -/
theorem Balanced.closesNothing {before : List Brace} (h : Balanced before) :
    ClosesNothing before := by
  rintro outer inner rfl within
  have count := h.leftOpen? 0
  rw [leftOpen?_append] at count
  obtain ⟨depth, -, count⟩ := Option.bind_eq_some_iff.1 count
  rw [PlainSteps.leftOpen?, within.leftOpen?] at count
  cases count

/-- With a closing brace after them, balanced braces are no longer the start of balanced ones. -/
theorem Balanced.not_append_closing {before : List Brace} (h : Balanced before)
    (after : List Brace) : ¬ Balanced (before ++ .closing :: after) := by
  intro whole
  have count := whole.leftOpen? 0
  rw [leftOpen?_append, h.leftOpen?] at count
  cases count

/-- Where more is open after braces than before, one of them is closed by no other. -/
theorem leavesOpen_of_lt {depth left : Nat} {braces : List Brace}
    (h : leftOpen? depth braces = some left) (more : depth < left) : LeavesOpen braces := by
  induction count : braces.length using Nat.strongRecOn generalizing depth braces with
  | ind length ih =>
    cases braces with
    | nil =>
      cases h
      exact absurd more (Nat.lt_irrefl _)
    | cons brace rest =>
      rw [List.length_cons] at count
      cases brace with
      | closing =>
        cases depth with
        | zero => cases h
        | succ depth =>
          have h : leftOpen? depth rest = some left := h
          obtain ⟨before, after, rfl, unclosed⟩ := ih rest.length (by omega) h (by omega) rfl
          exact ⟨.closing :: before, after, rfl, unclosed⟩
      | opening =>
        -- the brace that closes the first one, if any, leaves open what was open
        by_cases closed : ∃ inner later, rest = inner ++ .closing :: later ∧ Balanced inner
        · obtain ⟨inner, later, rfl, within⟩ := closed
          rw [leftOpen?, leftOpen?_append, within.leftOpen?] at h
          have h : leftOpen? depth later = some left := h
          rw [List.length_append, List.length_cons] at count
          obtain ⟨before, after, rfl, unclosed⟩ := ih later.length (by omega) h more rfl
          exact ⟨.opening :: (inner ++ .closing :: before), after, by simp, unclosed⟩
        · refine ⟨[], rest, rfl, fun inner later split within => ?_⟩
          exact closed ⟨inner, later, split, within⟩

end PlainSteps
