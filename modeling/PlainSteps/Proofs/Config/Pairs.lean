import PlainSteps.Config
import PlainSteps.Proofs.Effect
import PlainSteps.Proofs.Text.Pieces

/-!
# Lists of pairs, written and read

A list of pairs that has been read can be written as a tag and read again.

* `IsPair`: the pairs that reading gives.
* `isPair_of_mem_readPairs`: reading gives such pairs only.
* `readPairs_tagOf`: such pairs are read from their tag.

Proof-only: no module that runs imports this one.
-/

namespace PlainSteps

open RunConfig (tagOf)

/-- The name and the value of a pair can be told apart from each other and from other pairs. -/
structure IsPair (p : String × String) : Prop where
  name_ne_nil : p.1.toList ≠ []
  name_trimmed : Text.IsTrimmed p.1.toList
  name_plain : '=' ∉ p.1.toList ∧ ',' ∉ p.1.toList
  value_trimmed : Text.IsTrimmed p.2.toList
  value_plain : ',' ∉ p.2.toList

theorem isPair_of_readPair {key : String} {entry : List Char} {p : String × String}
    (single : ',' ∉ entry) (h : readPair key entry = .ok p) : IsPair p := by
  unfold readPair at h
  split at h
  · cases h
  · next name value found =>
    obtain ⟨rfl, apart⟩ := Text.cut?_eq_some_iff.1 found
    simp only at h
    split at h
    · cases h
    · next named =>
      cases h
      have inName : ',' ∉ name := fun mem => single (List.mem_append_left _ mem)
      have inValue : ',' ∉ value := fun mem =>
        single (List.mem_append_right _ (List.mem_cons_of_mem _ mem))
      constructor
      · rw [String.toList_ofList]
        exact fun empty => named (List.isEmpty_iff.2 empty)
      · rw [String.toList_ofList]
        exact Text.isTrimmed_trim name
      · rw [String.toList_ofList]
        exact ⟨fun mem => apart (Text.mem_of_mem_trim mem),
          fun mem => inName (Text.mem_of_mem_trim mem)⟩
      · rw [String.toList_ofList]
        exact Text.isTrimmed_trim value
      · rw [String.toList_ofList]
        exact fun mem => inValue (Text.mem_of_mem_trim mem)

/-- Reading a list of pairs gives pairs that can be told apart. -/
theorem isPair_of_mem_readPairs {key text : String} {pairs : List (String × String)}
    (h : readPairs key text = .ok pairs) : ∀ p ∈ pairs, IsPair p := by
  refine forall_mem_of_mapM (fun entry mem p read => isPair_of_readPair ?_ read) h
  obtain ⟨piece, hpiece, rfl⟩ := List.mem_map.1 (List.mem_filter.1 mem).1
  exact fun mem => Text.not_mem_of_mem_splitOn hpiece (Text.mem_of_mem_trim mem)

/-! ## Tags -/

/-- The text of a pair in a tag. -/
def pairChars (p : String × String) : List Char := p.1.toList ++ '=' :: p.2.toList

section IsPair

variable {p : String × String} (h : IsPair p)

include h

theorem IsPair.readPair_pairChars (key : String) : readPair key (pairChars p) = .ok p := by
  have found : Text.cut? '=' (pairChars p) = some (p.1.toList, p.2.toList) :=
    Text.cut?_eq_some_iff.2 ⟨rfl, h.name_plain.1⟩
  have named : p.1.toList.isEmpty = false := by simpa using h.name_ne_nil
  simp only [readPair, found, h.name_trimmed.trim_eq, h.value_trimmed.trim_eq, named]
  simp

theorem IsPair.not_mem_pairChars : ',' ∉ pairChars p := by
  simp only [pairChars, List.mem_append, List.mem_cons, not_or]
  exact ⟨h.name_plain.2, by decide, h.value_plain⟩

theorem IsPair.isTrimmed_pairChars : Text.IsTrimmed (pairChars p) := by
  obtain ⟨c, name, hname⟩ := List.exists_cons_of_ne_nil h.name_ne_nil
  constructor
  · have first := h.name_trimmed.1
    rw [hname] at first
    rw [pairChars, hname]
    exact first
  · have last := h.value_trimmed.2
    rw [pairChars, List.getLast?_append]
    cases value : p.2.toList with
    | nil => exact show Text.isBlank '=' = false by decide
    | cons d rest =>
      rw [value] at last
      rw [List.getLast?_cons_cons, Option.or_of_isSome (by simp)]
      exact last

end IsPair

theorem pairChars_ne_nil (p : String × String) : pairChars p ≠ [] := by simp [pairChars]

theorem toList_tagOf (choice : List (String × String)) :
    (tagOf choice).toList = [','].intercalate (choice.map pairChars) := by
  rw [tagOf, String.toList_intercalate, List.map_map]
  congr 1
  refine List.map_congr_left fun p _ => ?_
  simp [pairChars, String.toList_append]

theorem mapM_readPair (key : String) {choice : List (String × String)}
    (pairs : ∀ p ∈ choice, IsPair p) :
    (choice.map pairChars).mapM (readPair key) = .ok choice := by
  induction choice with
  | nil => rfl
  | cons p rest ih =>
    obtain ⟨own, others⟩ := List.forall_mem_cons.1 pairs
    rw [List.map_cons, List.mapM_cons, own.readPair_pairChars key, ih others]
    rfl

/-- Pairs that can be told apart are read from their tag. -/
theorem readPairs_tagOf (key : String) {choice : List (String × String)}
    (pairs : ∀ p ∈ choice, IsPair p) : readPairs key (tagOf choice) = .ok choice := by
  by_cases empty : choice = []
  · subst empty
    rfl
  · have each {q : List Char → Prop} (h : ∀ p ∈ choice, q (pairChars p)) :
        ∀ piece ∈ choice.map pairChars, q piece := by
      intro piece mem
      obtain ⟨p, hp, rfl⟩ := List.mem_map.1 mem
      exact h p hp
    have cut : (tagOf choice).toList.splitOn ',' = choice.map pairChars := by
      rw [toList_tagOf]
      refine List.splitOn_intercalate ',' (each fun p hp => (pairs p hp).not_mem_pairChars) ?_
      simpa using empty
    have trimmed : (choice.map pairChars).map Text.trim = choice.map pairChars := by
      rw [List.map_map]
      exact List.map_congr_left fun p hp => (pairs p hp).isTrimmed_pairChars.trim_eq
    have kept : (choice.map pairChars).filter (! ·.isEmpty) = choice.map pairChars :=
      List.filter_eq_self.2 (each fun p _ => by simpa using pairChars_ne_nil p)
    rw [readPairs, cut, trimmed, kept]
    exact mapM_readPair key pairs

end PlainSteps
