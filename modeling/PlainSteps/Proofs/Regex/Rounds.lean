import Mathlib.Data.Finset.Card
import Mathlib.Data.Finset.Range
import PlainSteps.Regex.Thread

/-!
# Rounds of threads

At each place of a text the threads of a program are taken on in rounds, one thread in each. The
fuel for the rounds is enough: a round either drops a thread or enters an instruction, which is
entered once and leaves two threads at most. So what threads come to is given by rules that know no
fuel, one for each branch.

* `Visited.Lists`: which instructions have been entered.
* `Program.Proceeds`: what threads come to at a place, by rules.
* `Program.Proceeds.follow`: that is what `follow` computes.
* `Program.Scans`: the answer of a scan that goes on with threads, by one rule for each character
  and one for the end.

Proof-only: no module that runs imports this one.
-/

namespace PlainSteps

variable {ν : Type}

/-! ## Instructions that have been entered -/

namespace Visited

/-- Exactly these instructions of a program with `size` of them have been entered at the place, and
no stamp is from a later one. -/
structure Lists (v : Visited) (size : Nat) (seen : List Nat) : Prop where
  stamped : v.stamps.size = size
  started : 0 < v.now
  latest : ∀ i, v.stamps.getD i 0 ≤ v.now
  has_iff : ∀ i, v.has i = true ↔ i ∈ seen

theorem lists_nowhere (size : Nat) : (nowhere size).Lists size [] where
  stamped := Array.size_replicate
  started := Nat.one_pos
  latest i := by
    by_cases inside : i < size <;> simp [nowhere, Array.getD_eq_getD_getElem?, inside]
  has_iff i := by
    by_cases inside : i < size <;> simp [nowhere, has, Array.getD_eq_getD_getElem?, inside]

namespace Lists

variable {v : Visited} {size i : Nat} {seen : List Nat} (h : v.Lists size seen)

include h

/-- At the next place no instruction has been entered. -/
theorem next : v.next.Lists size [] where
  stamped := h.stamped
  started := Nat.succ_pos v.now
  latest i := Nat.le_succ_of_le (h.latest i)
  has_iff i := by
    have le := h.latest i
    simp only [has, Visited.next, beq_iff_eq, List.not_mem_nil, iff_false]
    omega

theorem getD_add (inside : i < size) (j : Nat) :
    (v.add i).stamps.getD j 0 = if i = j then v.now else v.stamps.getD j 0 := by
  have bound := h.stamped
  simp only [Visited.add, Array.getD_eq_getD_getElem?, Array.getElem?_setIfInBounds]
  by_cases same : i = j
  · subst same
    simp [bound, inside]
  · simp [same]

theorem add (inside : i < size) : (v.add i).Lists size (i :: seen) where
  stamped := (Array.size_setIfInBounds ..).trans h.stamped
  started := h.started
  latest j := by
    rw [h.getD_add inside]
    split
    · exact Nat.le_refl _
    · exact h.latest j
  has_iff j := by
    rw [List.mem_cons, ← h.has_iff, has, has, h.getD_add inside]
    by_cases same : i = j
    · simp [same, Visited.add]
    · simp [same, Visited.add, Ne.symm same]

/-- An instruction that there is not is never entered. -/
theorem add_outside (outside : size ≤ i) : v.add i = v := by
  unfold Visited.add
  rw [Array.setIfInBounds, dif_neg (by rw [h.stamped]; omega)]

theorem has_eq_false (fresh : i ∉ seen) : v.has i = false :=
  Bool.eq_false_iff.2 fun entered => fresh ((h.has_iff i).1 entered)

end Lists

end Visited

/-- The number of instructions that have not been entered. -/
def unentered (size : Nat) (seen : List Nat) : Nat := ((Finset.range size).filter (· ∉ seen)).card

theorem unentered_cons {size i : Nat} {seen : List Nat} (inside : i < size) (fresh : i ∉ seen) :
    unentered size (i :: seen) + 1 = unentered size seen := by
  have mem : i ∈ (Finset.range size).filter (· ∉ seen) := by simp [inside, fresh]
  have others : (Finset.range size).filter (· ∉ i :: seen) =
      ((Finset.range size).filter (· ∉ seen)).erase i := by
    ext j
    simp only [Finset.mem_filter, Finset.mem_erase, List.mem_cons]
    grind
  rw [unentered, others]
  exact Finset.card_erase_add_one mem

theorem unentered_le (size : Nat) (seen : List Nat) : unentered size seen ≤ size :=
  (Finset.card_filter_le _ _).trans_eq (Finset.card_range size)

namespace Program

variable {p : Program ν} {spot : Spot}

/-! ## Rounds -/

/-- What threads come to at a place where some instructions have been entered: those that go on
after the next character, after others that do, and what the preferred of them has found. -/
inductive Proceeds (p : Program ν) (spot : Spot) : (seen : List Nat) →
    (threads onward further : List (Thread ν)) → (found : Option (List (ν × Nat × Nat))) → Prop
  | done {seen : List Nat} {onward : List (Thread ν)} : Proceeds p spot seen [] onward onward none
  /-- A thread is dropped where another one has been. -/
  | again {seen : List Nat} {t : Thread ν} {ts onward further : List (Thread ν)}
    {found : Option (List (ν × Nat × Nat))} (entered : t.target ∈ seen)
    (more : Proceeds p spot seen ts onward further found) :
    Proceeds p spot seen (t :: ts) onward further found
  | outside {seen : List Nat} {t : Thread ν} {ts onward further : List (Thread ν)}
    {found : Option (List (ν × Nat × Nat))} (nothing : p.code[t.target]? = none)
    (more : Proceeds p spot seen ts onward further found) :
    Proceeds p spot seen (t :: ts) onward further found
  /-- The threads after one that has found a match are dropped. -/
  | accept {seen : List Nat} {t : Thread ν} {ts onward : List (Thread ν)}
    (fresh : t.target ∉ seen) (at_ : p.code[t.target]? = some .accept) :
    Proceeds p spot seen (t :: ts) onward onward (some t.found)
  | consume {seen : List Nat} {t : Thread ν} {ts onward further : List (Thread ν)}
    {found : Option (List (ν × Nat × Nat))} {set : CharSet} {next : Nat} (fresh : t.target ∉ seen)
    (at_ : p.code[t.target]? = some (.consume set next))
    (more : Proceeds p spot (t.target :: seen) ts
      (if spot.after.any set.contains then t.goTo next :: onward else onward) further found) :
    Proceeds p spot seen (t :: ts) onward further found
  | meet {seen : List Nat} {t : Thread ν} {ts onward further : List (Thread ν)}
    {found : Option (List (ν × Nat × Nat))} {condition : Place} {next : Nat}
    (fresh : t.target ∉ seen) (at_ : p.code[t.target]? = some (.meet condition next))
    (more : Proceeds p spot (t.target :: seen)
      (if condition.holds spot.before spot.after then t.goTo next :: ts else ts) onward further
      found) :
    Proceeds p spot seen (t :: ts) onward further found
  | opening {seen : List Nat} {t : Thread ν} {ts onward further : List (Thread ν)}
    {found : Option (List (ν × Nat × Nat))} {next : Nat} (fresh : t.target ∉ seen)
    (at_ : p.code[t.target]? = some (.opening next))
    (more : Proceeds p spot (t.target :: seen) (t.openGroup spot.position next :: ts) onward further
      found) :
    Proceeds p spot seen (t :: ts) onward further found
  | closing {seen : List Nat} {t : Thread ν} {ts onward further : List (Thread ν)}
    {found : Option (List (ν × Nat × Nat))} {name : ν} {next : Nat} (fresh : t.target ∉ seen)
    (at_ : p.code[t.target]? = some (.closing name next))
    (more : Proceeds p spot (t.target :: seen) (t.closeGroup name spot.position next :: ts) onward
      further found) :
    Proceeds p spot seen (t :: ts) onward further found
  | fork {seen : List Nat} {t : Thread ν} {ts onward further : List (Thread ν)}
    {found : Option (List (ν × Nat × Nat))} {first second : Nat} (fresh : t.target ∉ seen)
    (at_ : p.code[t.target]? = some (.fork first second))
    (more : Proceeds p spot (t.target :: seen) (t.goTo first :: t.goTo second :: ts) onward further
      found) :
    Proceeds p spot seen (t :: ts) onward further found

theorem lt_of_getElem?_code {k : Nat} {i : Instruction ν} (at_ : p.code[k]? = some i) :
    k < p.code.size := (Array.getElem?_eq_some_iff.1 at_).1

/-- Rounds compute what the rules say, if there is fuel for the threads and for two more from each
instruction that may still be entered. -/
theorem Proceeds.followWithin {seen : List Nat} {threads onward further : List (Thread ν)}
    {found : Option (List (ν × Nat × Nat))}
    (h : Proceeds p spot seen threads onward further found) {v : Visited}
    (lists : v.Lists p.code.size seen) {fuel : Nat}
    (enough : threads.length + 2 * unentered p.code.size seen ≤ fuel) :
    ∃ v' seen', v'.Lists p.code.size seen' ∧
      p.followWithin spot fuel threads onward v = ⟨further, found, v'⟩ := by
  induction h generalizing v fuel with
  | done =>
    refine ⟨v, _, lists, ?_⟩
    cases fuel <;> rfl
  | again entered more ih =>
    rw [List.length_cons] at enough
    obtain ⟨fuel, rfl⟩ := Nat.exists_eq_add_of_le' (show 1 ≤ fuel by omega)
    obtain ⟨v', seen', lists', rest⟩ := @ih _ lists fuel (by omega)
    refine ⟨v', seen', lists', ?_⟩
    rw [Program.followWithin, if_pos ((lists.has_iff _).2 entered), rest]
  | @outside seen t ts onward further found nothing more ih =>
    rw [List.length_cons] at enough
    obtain ⟨fuel, rfl⟩ := Nat.exists_eq_add_of_le' (show 1 ≤ fuel by omega)
    obtain ⟨v', seen', lists', rest⟩ := @ih _ lists fuel (by omega)
    refine ⟨v', seen', lists', ?_⟩
    have same : v.add t.target = v := lists.add_outside (Array.getElem?_eq_none_iff.1 nothing)
    rw [Program.followWithin, nothing, same]
    simp only [rest, ite_self]
  | @accept seen t ts onward fresh at_ =>
    rw [List.length_cons] at enough
    obtain ⟨fuel, rfl⟩ := Nat.exists_eq_add_of_le' (show 1 ≤ fuel by omega)
    refine ⟨_, _, lists.add (lt_of_getElem?_code at_), ?_⟩
    rw [Program.followWithin, lists.has_eq_false fresh, at_]
    rfl
  | _ =>
    next fresh at_ more ih =>
    have entered := unentered_cons (lt_of_getElem?_code at_) fresh
    rw [List.length_cons] at enough
    obtain ⟨fuel, rfl⟩ := Nat.exists_eq_add_of_le' (show 1 ≤ fuel by omega)
    obtain ⟨v', seen', lists', rest⟩ :=
      @ih _ (lists.add (lt_of_getElem?_code at_)) fuel (by grind)
    refine ⟨v', seen', lists', ?_⟩
    rw [Program.followWithin, lists.has_eq_false fresh, at_]
    exact rest

theorem Proceeds.follow {threads further : List (Thread ν)}
    {found : Option (List (ν × Nat × Nat))} (h : Proceeds p spot [] threads [] further found)
    {v : Visited} (lists : v.Lists p.code.size []) : ∃ v' seen', v'.Lists p.code.size seen' ∧
      p.follow spot threads v = ⟨further, found, v'⟩ := by
  refine h.followWithin lists ?_
  have le := unentered_le p.code.size []
  omega

/-! ## Scans -/

/-- The answer of a scan that goes on with threads at a place, as long as nothing has been found. -/
def Scans (p : Program ν) (before : Option Char) (position : Nat) (rest : List Char)
    (threads : List (Thread ν)) (answer : Option (List (ν × Nat × Nat))) : Prop :=
  ∀ v : Visited, v.Lists p.code.size [] → p.scan? before position rest threads none v = answer

/-- A search is a scan of the whole text. -/
theorem Scans.search? {text : List Char} {answer : Option (List (ν × Nat × Nat))}
    (h : Scans p none 0 text [] answer) : p.search? text = answer :=
  h _ (Visited.lists_nowhere _)

section Scans

variable {before : Option Char} {position : Nat} {threads further : List (Thread ν)}

/-- At the end of a text, the answer is what the threads and one that starts there find. -/
theorem Scans.stop {found : Option (List (ν × Nat × Nat))}
    (h : Proceeds p ⟨position, before, none⟩ [] (threads ++ [⟨p.entry, [], []⟩]) [] further found) :
    Scans p before position [] threads found := by
  intro v lists
  obtain ⟨v', seen', -, followed⟩ := h.follow lists
  rw [scan?]
  simp only [Option.isNone_none, if_true, List.head?_nil, followed]
  cases found <;> rfl

/-- Where nothing is found before a character, the scan goes on after it. -/
theorem Scans.step {c : Char} {rest : List Char} {answer : Option (List (ν × Nat × Nat))}
    (h : Proceeds p ⟨position, before, some c⟩ [] (threads ++ [⟨p.entry, [], []⟩]) [] further none)
    (more : Scans p (some c) (position + 1) rest further.reverse answer) :
    Scans p before position (c :: rest) threads answer := by
  intro v lists
  obtain ⟨v', seen', lists', followed⟩ := h.follow lists
  rw [scan?]
  simp only [Option.isNone_none, if_true, List.head?_cons, followed]
  rw [if_neg (by simp)]
  exact more v'.next lists'.next

end Scans

end Program

end PlainSteps
