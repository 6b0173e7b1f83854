import Mathlib.Data.List.Sort
import Mathlib.Data.String.Basic
import PlainSteps.Domain.Name
import PlainSteps.Proofs.Text.Pieces

/-!
# The spellings of a domain

A union may be written with its members in any order and more than once. The key of a domain depends
on the set of its members only, and is the one spelling in which they are in order, each once.

* `Domain.orderedMembers`: the members in order, each once.
* `Domain.members_key`: these are the members of the key.
* `Domain.key_eq_iff`: two domains have one key exactly when they have the same members.
* `Domain.key_eq_self_iff`: the names that are their own keys.

Proof-only: no module that runs imports this one.
-/

namespace PlainSteps

/-! ## Repetitions -/

section Repetitions

variable {α : Type} [DecidableEq α]

private theorem eraseReps_loop_cons (a b : α) (rest done : List α) :
    List.eraseRepsBy.loop (· == ·) a (b :: rest) done =
      if a = b then List.eraseRepsBy.loop (· == ·) a rest done
      else List.eraseRepsBy.loop (· == ·) b rest (a :: done) := by
  rw [List.eraseRepsBy.loop]
  split
  · next same => rw [if_pos (beq_iff_eq.1 same)]
  · next other => rw [if_neg (beq_eq_false_iff_ne.1 other)]

/-- What has been passed stays in front of what is left of the rest. -/
private theorem eraseReps_loop (a : α) (rest done : List α) :
    List.eraseRepsBy.loop (· == ·) a rest done = done.reverse ++ (a :: rest).eraseReps := by
  show _ = done.reverse ++ List.eraseRepsBy.loop (· == ·) a rest []
  induction rest generalizing a done with
  | nil => simp [List.eraseRepsBy.loop]
  | cons b rest ih =>
    rw [eraseReps_loop_cons, eraseReps_loop_cons]
    split
    · exact ih a done
    · rw [ih b (a :: done), ih b [a]]
      simp

/-- Of two neighbours that are equal one is erased. -/
theorem eraseReps_cons_cons (a b : α) (rest : List α) :
    (a :: b :: rest).eraseReps =
      if a = b then (a :: rest).eraseReps else a :: (b :: rest).eraseReps :=
  (eraseReps_loop_cons a b rest []).trans
    (congrArg (ite (a = b) (a :: rest).eraseReps) (eraseReps_loop b rest [a]))

theorem mem_eraseReps {x : α} {xs : List α} : x ∈ xs.eraseReps ↔ x ∈ xs := by
  cases xs with
  | nil => rfl
  | cons a rest =>
    induction rest generalizing a with
    | nil => rfl
    | cons b rest ih =>
      rw [eraseReps_cons_cons]
      split
      · next same =>
        subst same
        rw [ih]
        simp
      · rw [List.mem_cons, ih]
        simp

/-- Of values in order, each is left once. -/
theorem pairwise_eraseReps [LinearOrder α] {xs : List α} (sorted : xs.Pairwise (· ≤ ·)) :
    xs.eraseReps.Pairwise (· < ·) := by
  cases xs with
  | nil => exact .nil
  | cons a rest =>
    induction rest generalizing a with
    | nil => exact List.pairwise_singleton _ _
    | cons b rest ih =>
      obtain ⟨least, others⟩ := List.pairwise_cons.1 sorted
      obtain ⟨le, below⟩ := List.forall_mem_cons.1 least
      rw [eraseReps_cons_cons]
      split
      · exact ih a (List.pairwise_cons.2 ⟨below, (List.pairwise_cons.1 others).2⟩)
      · next other =>
        refine List.pairwise_cons.2 ⟨fun x hx => ?_, ih b others⟩
        have first : a < b := lt_of_le_of_ne le other
        rcases List.mem_cons.1 (mem_eraseReps.1 hx) with rfl | hx
        · exact first
        · exact lt_of_lt_of_le first ((List.pairwise_cons.1 others).1 x hx)

end Repetitions

namespace Domain

/-! ## Members -/

/-- The members of a domain in order, each once. -/
def orderedMembers (domain : String) : List String :=
  ((members domain).mergeSort (· ≤ ·)).eraseReps

theorem mem_orderedMembers {domain member : String} :
    member ∈ orderedMembers domain ↔ member ∈ members domain :=
  mem_eraseReps.trans List.mem_mergeSort

theorem pairwise_orderedMembers (domain : String) : (orderedMembers domain).Pairwise (· < ·) := by
  have sorted : ((members domain).mergeSort (· ≤ ·)).Pairwise fun a b => decide (a ≤ b) = true :=
    List.pairwise_mergeSort
      (fun a b c hab hbc => decide_eq_true ((of_decide_eq_true hab).trans (of_decide_eq_true hbc)))
      (fun a b => by simpa using le_total a b) (members domain)
  exact pairwise_eraseReps (sorted.imp of_decide_eq_true)

/-- A declared domain that is no union is its only member. -/
theorem members_eq_singleton {declared : String} (h : isUnion declared = false) :
    members declared = [declared] := Text.pieces_of_not_mem (by simpa [isUnion] using h)

theorem orderedMembers_ne_nil (domain : String) : orderedMembers domain ≠ [] := by
  obtain ⟨member, mem⟩ := List.exists_mem_of_ne_nil _ (Text.pieces_ne_nil '|' domain)
  exact List.ne_nil_of_mem (mem_orderedMembers.2 mem)

/-! ## Keys -/

theorem key_of_single {domain : String} (h : isUnion domain = false) : key domain = domain :=
  if_neg (Bool.eq_false_iff.1 h)

/-- Every key is the spelling with the members in order; that of a single domain is its name. -/
theorem key_eq (domain : String) : key domain = "|".intercalate (orderedMembers domain) := by
  unfold key
  split
  · rfl
  · next single =>
    rw [orderedMembers, members_eq_singleton (Bool.eq_false_iff.2 single), List.mergeSort_singleton]
    exact String.intercalate_singleton.symm

/-- The members of the key are those of the domain, in order and each once. -/
theorem members_key (domain : String) : members (key domain) = orderedMembers domain := by
  rw [key_eq]
  exact Text.pieces_intercalate rfl (orderedMembers_ne_nil domain) fun m hm =>
    Text.not_mem_of_mem_pieces (mem_orderedMembers.1 hm)

theorem mem_members_key {domain member : String} :
    member ∈ members (key domain) ↔ member ∈ members domain := by
  rw [members_key, mem_orderedMembers]

/-- Two domains have one key exactly when they have the same members. -/
theorem key_eq_iff {a b : String} : key a = key b ↔ ∀ m, m ∈ members a ↔ m ∈ members b := by
  constructor
  · intro same m
    rw [← mem_members_key, same, mem_members_key]
  · intro same
    rw [key_eq, key_eq, (pairwise_orderedMembers a).eq_of_mem_iff (pairwise_orderedMembers b)]
    exact fun m => by rw [mem_orderedMembers, mem_orderedMembers, same]

/-- A key is its own key. -/
@[simp] theorem key_key (domain : String) : key (key domain) = key domain :=
  key_eq_iff.2 fun _ => mem_members_key

/-- A name is its own key exactly when its members are written in order, each once. -/
theorem key_eq_self_iff {domain : String} :
    key domain = domain ↔ (members domain).Pairwise (· < ·) := by
  constructor
  · intro own
    rw [← own, members_key]
    exact pairwise_orderedMembers domain
  · intro sorted
    have same : orderedMembers domain = members domain :=
      (pairwise_orderedMembers domain).eq_of_mem_iff sorted fun m => mem_orderedMembers
    rw [key_eq, same]
    exact Text.intercalate_pieces rfl domain

end Domain

end PlainSteps
