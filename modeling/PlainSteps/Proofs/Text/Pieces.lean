import PlainSteps.Text.Blank
import PlainSteps.Text.Cut

/-!
# Trimmed texts and pieces of texts

* `Text.IsTrimmed`: a text neither starts nor ends with a blank.
* `Text.isTrimmed_trim`, `Text.IsTrimmed.trim_eq`: what is left of a text has no outer blanks, and
  nothing is taken from such a text.
* `Text.trim_append`: the blanks between two parts of a text stay.
* `Text.not_of_mem_splitOnP`: the pieces of a text are free of what it is cut at.
* `Text.intercalate_pieces`, `Text.pieces_intercalate`: a text is cut and put together again.
* `Text.words_append_blank`: a blank separates words; `Text.words_intercalate`: words with spaces
  between them are the words of their text.

Proof-only: no module that runs imports this one.
-/

namespace PlainSteps.Text

/-- A text that neither starts nor ends with a blank. -/
def IsTrimmed (cs : List Char) : Prop :=
  cs.head?.any isBlank = false ∧ cs.getLast?.any isBlank = false

theorem IsTrimmed.trim_eq {cs : List Char} (h : IsTrimmed cs) : trim cs = cs := by
  have dropped {cs : List Char} (h : cs.head?.any isBlank = false) :
      cs.dropWhile isBlank = cs := by
    cases cs with
    | nil => rfl
    | cons c cs => exact List.dropWhile_cons_of_neg (Bool.eq_false_iff.1 h)
  have last : cs.reverse.head?.any isBlank = false := by
    rw [List.head?_reverse]
    exact h.2
  rw [trim, trimStart, dropped h.1, trimEnd, dropped last, List.reverse_reverse]

theorem head?_dropWhile_isBlank (cs : List Char) :
    (cs.dropWhile isBlank).head?.any isBlank = false := by
  induction cs with
  | nil => rfl
  | cons c cs ih =>
    rw [List.dropWhile_cons]
    split
    · exact ih
    · next solid => exact Bool.eq_false_iff.2 solid

/-- What is left of a text has no outer blanks. -/
theorem isTrimmed_trim (cs : List Char) : IsTrimmed (trim cs) := by
  have prefix_ : trim cs <+: trimStart cs := by
    rw [trim, trimEnd, ← List.reverse_suffix, List.reverse_reverse]
    exact List.dropWhile_suffix isBlank
  constructor
  · cases left : trim cs with
    | nil => rfl
    | cons c rest =>
      obtain ⟨more, whole⟩ := prefix_
      have first := head?_dropWhile_isBlank cs
      change (trimStart cs).head?.any isBlank = false at first
      rw [← whole, left] at first
      exact first
  · rw [trim, trimEnd, List.getLast?_reverse]
    exact head?_dropWhile_isBlank _

/-- Blanks at the end are taken from the last part of a text that is not all blank. -/
theorem trimEnd_append (cs : List Char) {ds : List Char} (h : trimEnd ds ≠ []) :
    trimEnd (cs ++ ds) = cs ++ trimEnd ds := by
  unfold trimEnd at h ⊢
  have left_ : (ds.reverse.dropWhile isBlank).isEmpty = false := by
    simpa using h
  rw [List.reverse_append, List.dropWhile_append, left_]
  simp

/-- A text that starts with something solid keeps it, and what is blank before the rest. -/
theorem trim_append {cs ds : List Char} (solid : cs.head?.any isBlank = false) (ne : cs ≠ [])
    (h : trim ds ≠ []) : trim (cs ++ ds) = cs ++ ds.takeWhile isBlank ++ trim ds := by
  obtain ⟨c, cs, rfl⟩ := List.exists_cons_of_ne_nil ne
  have started : trimStart (c :: cs ++ ds) = (c :: cs ++ ds.takeWhile isBlank) ++ trimStart ds := by
    rw [List.append_assoc, trimStart, trimStart, List.takeWhile_append_dropWhile]
    exact List.dropWhile_cons_of_neg (Bool.eq_false_iff.1 solid)
  rw [trim, started, trimEnd_append _ h]
  rfl

/-! ## Pieces -/

/-- The pieces of a text are free of what it is cut at. -/
theorem not_of_mem_splitOnP {p : Char → Bool} {cs piece : List Char} (h : piece ∈ cs.splitOnP p) :
    ∀ c ∈ piece, p c = false := by
  induction cs generalizing piece with
  | nil =>
    rw [List.splitOnP_nil, List.mem_singleton] at h
    rw [h]
    exact List.forall_mem_nil _
  | cons d cs ih =>
    rw [List.splitOnP_cons_eq_if_modifyHead] at h
    split at h
    · rcases List.mem_cons.1 h with rfl | h
      · exact List.forall_mem_nil _
      · exact ih h
    · next own =>
      obtain ⟨first, rest, pieces⟩ := List.exists_cons_of_ne_nil (List.splitOnP_ne_nil p cs)
      rw [pieces, List.modifyHead_cons] at h
      rcases List.mem_cons.1 h with rfl | h
      · refine List.forall_mem_cons.2 ⟨Bool.eq_false_iff.2 own, ih ?_⟩
        rw [pieces]
        exact List.mem_cons_self
      · refine ih ?_
        rw [pieces]
        exact List.mem_cons_of_mem _ h

theorem not_mem_of_mem_splitOn {mark : Char} {cs piece : List Char} (h : piece ∈ cs.splitOn mark) :
    mark ∉ piece := fun mem => by
  have apart := not_of_mem_splitOnP h mark mem
  simp at apart

section Marked

variable {mark : Char} {sep : String} (single : sep.toList = [mark])

theorem not_mem_of_mem_pieces {s piece : String} (h : piece ∈ pieces mark s) :
    mark ∉ piece.toList := by
  obtain ⟨cs, hcs, rfl⟩ := List.mem_map.1 h
  rw [String.toList_ofList]
  exact not_mem_of_mem_splitOn hcs

theorem pieces_ne_nil (mark : Char) (s : String) : pieces mark s ≠ [] := by simp [pieces]

theorem pieces_of_not_mem {s : String} (h : mark ∉ s.toList) : pieces mark s = [s] := by
  rw [pieces, List.splitOn_eq_singleton h, List.map_singleton, String.ofList_toList]

include single

/-- The pieces of a text with what it is cut at between them are the text. -/
theorem intercalate_pieces (s : String) : sep.intercalate (pieces mark s) = s := by
  have cut : (pieces mark s).map String.toList = s.toList.splitOn mark := by
    rw [pieces, List.map_map]
    exact (List.map_congr_left fun m _ => String.toList_ofList).trans (List.map_id' _)
  refine String.toList_injective ?_
  rw [String.toList_intercalate, cut, single]
  exact List.intercalate_splitOn mark

/-- Texts that are free of a mark are the pieces of the text in which it stands between them. -/
theorem pieces_intercalate {ps : List String} (ne : ps ≠ []) (free : ∀ p ∈ ps, mark ∉ p.toList) :
    pieces mark (sep.intercalate ps) = ps := by
  have cut : (sep.intercalate ps).toList.splitOn mark = ps.map String.toList := by
    rw [String.toList_intercalate, single]
    refine List.splitOn_intercalate mark (fun piece mem => ?_) (by simpa using ne)
    obtain ⟨p, hp, rfl⟩ := List.mem_map.1 mem
    exact free p hp
  rw [pieces, cut, List.map_map]
  exact (List.map_congr_left fun p _ => String.ofList_toList).trans (List.map_id' ps)

/-- The pieces of two texts with what they are cut at between them are those of both. -/
theorem pieces_append (s t : String) :
    pieces mark (s ++ sep ++ t) = pieces mark s ++ pieces mark t := by
  have chars : (s ++ sep ++ t).toList = s.toList ++ mark :: t.toList := by
    rw [String.toList_append, String.toList_append, single, List.append_assoc]
    rfl
  rw [pieces, chars, List.splitOn_append_cons_self, List.map_append, ← pieces, ← pieces]

end Marked

/-- What a trim leaves is a part of the text. -/
theorem mem_of_mem_trim {cs : List Char} {c : Char} (h : c ∈ trim cs) : c ∈ cs := by
  rw [trim, trimEnd, List.mem_reverse] at h
  have h := (List.dropWhile_sublist isBlank).subset h
  exact (List.dropWhile_sublist isBlank).subset (List.mem_reverse.1 h)

/-- A cut is at the first occurrence of the mark. -/
theorem cut?_eq_some_iff {mark : Char} {cs before after : List Char} :
    cut? mark cs = some (before, after) ↔ cs = before ++ mark :: after ∧ mark ∉ before := by
  induction cs generalizing before with
  | nil => simp [cut?]
  | cons c cs ih =>
    rw [cut?]
    split
    · next same =>
      subst same
      constructor
      · intro h
        cases h
        exact ⟨rfl, List.not_mem_nil⟩
      · rintro ⟨whole, apart⟩
        cases before with
        | nil =>
          cases whole
          rfl
        | cons d before =>
          cases whole
          exact absurd List.mem_cons_self apart
    · next other =>
      constructor
      · intro h
        obtain ⟨⟨b, a⟩, found, same⟩ := Option.map_eq_some_iff.1 h
        cases same
        obtain ⟨rfl, apart⟩ := ih.1 found
        exact ⟨rfl, fun mem => (List.mem_cons.1 mem).elim (fun eq => other eq.symm) apart⟩
      · rintro ⟨whole, apart⟩
        cases before with
        | nil =>
          cases whole
          exact absurd rfl other
        | cons d before =>
          cases whole
          rw [ih.2 ⟨rfl, fun mem => apart (List.mem_cons_of_mem _ mem)⟩]
          rfl

/-! ## Words -/

/-- A blank separates words. -/
theorem words_append_blank {c : Char} (h : isBlank c = true) (before after : List Char) :
    words (before ++ c :: after) = words before ++ words after := by
  rw [words, List.splitOnP_append_cons before after h, List.filter_append]
  rfl

theorem words_of_solid {cs : List Char} (ne : cs ≠ []) (solid : ∀ c ∈ cs, isBlank c = false) :
    words cs = [cs] := by
  rw [words, List.splitOnP_eq_singleton solid]
  cases cs with
  | nil => exact absurd rfl ne
  | cons c cs => rfl

/-- Blanks at the start of a text belong to no word. -/
theorem words_blanks_append {blanks : List Char} (h : ∀ c ∈ blanks, isBlank c = true)
    (rest : List Char) : words (blanks ++ rest) = words rest := by
  induction blanks with
  | nil => rfl
  | cons c blanks ih =>
    obtain ⟨own, others⟩ := List.forall_mem_cons.1 h
    have first := words_append_blank own [] (blanks ++ rest)
    rw [List.nil_append] at first
    rw [List.cons_append, first, ih others]
    rfl

/-- Words with spaces between them are the words of their text. -/
theorem words_intercalate {ws : List (List Char)}
    (h : ∀ w ∈ ws, w ≠ [] ∧ ∀ c ∈ w, isBlank c = false) : words ([' '].intercalate ws) = ws := by
  induction ws with
  | nil => rfl
  | cons w ws ih =>
    obtain ⟨⟨ne, solid⟩, others⟩ := List.forall_mem_cons.1 h
    cases ws with
    | nil =>
      rw [List.intercalate_singleton]
      exact words_of_solid ne solid
    | cons v ws =>
      rw [List.intercalate_cons_cons, List.append_assoc, List.singleton_append,
        words_append_blank (by decide), words_of_solid ne solid, ih others]
      rfl

theorem mem_intercalate {sep : List Char} {ws : List (List Char)} {c : Char}
    (h : c ∈ sep.intercalate ws) : c ∈ sep ∨ ∃ w ∈ ws, c ∈ w := by
  induction ws with
  | nil => exact nomatch h
  | cons w ws ih =>
    cases ws with
    | nil =>
      rw [List.intercalate_singleton] at h
      exact .inr ⟨w, List.mem_cons_self, h⟩
    | cons v ws =>
      rw [List.intercalate_cons_cons, List.append_assoc] at h
      rcases List.mem_append.1 h with h | h
      · exact .inr ⟨w, List.mem_cons_self, h⟩
      · rcases List.mem_append.1 h with h | h
        · exact .inl h
        · refine (ih h).imp_right ?_
          rintro ⟨u, hu, mem⟩
          exact ⟨u, List.mem_cons_of_mem w hu, mem⟩

theorem subset_intercalate {sep : List Char} {ws : List (List Char)} {w : List Char}
    (h : w ∈ ws) : w ⊆ sep.intercalate ws := by
  induction ws with
  | nil => cases h
  | cons v ws ih =>
    cases ws with
    | nil =>
      rw [List.mem_singleton.1 h, List.intercalate_singleton]
      exact List.Subset.refl v
    | cons u ws =>
      rw [List.intercalate_cons_cons, List.append_assoc]
      rcases List.mem_cons.1 h with rfl | h
      · exact List.subset_append_left _ _
      · exact fun c hc => List.mem_append_right v (List.mem_append_right sep (ih h hc))

theorem intercalate_ne_nil {ws : List (List Char)}
    (h : ∀ w ∈ ws, w ≠ [] ∧ ∀ c ∈ w, isBlank c = false) (ne : ws ≠ []) :
    [' '].intercalate ws ≠ [] := fun empty => by
  have read := words_intercalate h
  rw [empty] at read
  exact ne read.symm

/-- Words with spaces between them have no outer blanks. -/
theorem isTrimmed_intercalate {ws : List (List Char)}
    (h : ∀ w ∈ ws, w ≠ [] ∧ ∀ c ∈ w, isBlank c = false) : IsTrimmed ([' '].intercalate ws) := by
  induction ws with
  | nil => exact ⟨rfl, rfl⟩
  | cons w ws ih =>
    obtain ⟨⟨ne, solid⟩, others⟩ := List.forall_mem_cons.1 h
    have first : w.head?.any isBlank = false := by
      rw [List.head?_eq_some_head ne]
      exact solid _ (List.head_mem ne)
    cases ws with
    | nil =>
      rw [List.intercalate_singleton]
      refine ⟨first, ?_⟩
      rw [List.getLast?_eq_some_getLast ne]
      exact solid _ (List.getLast_mem ne)
    | cons v ws =>
      have rest := intercalate_ne_nil others (List.cons_ne_nil v ws)
      rw [List.intercalate_cons_cons, List.append_assoc]
      constructor
      · rw [List.head?_append, Option.or_of_isSome (by simpa using ne)]
        exact first
      · rw [List.getLast?_append, List.getLast?_append,
          Option.or_of_isSome (by simp [List.getLast?_eq_some_getLast rest]),
          Option.or_of_isSome (by simpa using rest)]
        exact (ih others).2

end PlainSteps.Text
