import PlainSteps.Proofs.Template.Parts
import PlainSteps.Proofs.Text.Braces

/-!
# The pieces of a template text

Every text is cut into pieces from left to right, unless a placeholder in it is ill-formed. A stray
brace is a piece that is neither escaped, nor doubled, nor a part of a placeholder.

* `Template.Piece`: a piece as it is written, and `Piece.StandsBefore`: which pieces can stand in
  front of a text.
* `Template.IsMadeOf`: a text consists of pieces.
* `Template.scan_piece`: a piece is scanned, whatever follows it.
* `Template.IsMadeOf.scan`: the symbols of a text are those of its pieces.
* `Template.exists_pieces_or_malformed`: a text has pieces, or scanning stops at the opening brace
  of a placeholder.

Proof-only: no module that runs imports this one.
-/

namespace PlainSteps

namespace Template

/-- A piece of a template text. -/
inductive Piece where
  /-- A character that is neither a brace nor a backslash. -/
  | plain (c : Char)
  /-- Any character after a backslash. -/
  | escaped (c : Char)
  /-- A backslash that nothing follows. -/
  | backslash
  /-- Two equal braces for one. -/
  | doubled (brace : Brace)
  /-- A placeholder with the members of its domain. -/
  | slot (label : String) (members : Option (List String))
  | stray (brace : Brace)

namespace Piece

/-- A piece as it is written. -/
def chars : Piece → List Char
  | .plain c => [c]
  | .escaped c => ['\\', c]
  | .backslash => ['\\']
  | .doubled brace => [brace.char, brace.char]
  | .slot label members => (Part.slot label members).chars
  | .stray brace => [brace.char]

/-- The number of bytes of a piece as it is written. -/
def size (p : Piece) : Nat := Text.width p.chars

theorem chars_ne_nil (p : Piece) : p.chars ≠ [] := by
  cases p with
  | slot label members => cases members <;> exact List.cons_ne_nil _ _
  | _ => exact List.cons_ne_nil _ _

theorem size_pos (p : Piece) : 0 < p.size := by
  obtain ⟨c, cs, chars⟩ := List.exists_cons_of_ne_nil p.chars_ne_nil
  rw [size, chars, Text.width]
  exact Nat.add_pos_left c.utf8Size_pos _

/-- A piece can stand in front of a text: what follows a stray brace makes it neither a doubled one
nor the start of a placeholder. -/
def StandsBefore (rest : List Char) : Piece → Prop
  | .plain c => c ∉ ['{', '}', '\\']
  | .escaped _ => True
  | .backslash => rest = []
  | .doubled _ => True
  | .slot label members => (Part.slot label members).IsProper
  | .stray .opening => ∀ c ∈ rest.head?, c ≠ '{' ∧ c ≠ '_' ∧ ¬ c.isAlpha = true
  | .stray .closing => ∀ c ∈ rest.head?, c ≠ '}'

/-- The symbol of a piece whose first character has byte offset `position`. -/
def symbol (position : Nat) : Piece → Symbol
  | .plain c => .literal c
  | .escaped c => .literal c
  | .backslash => .literal '\\'
  | .doubled brace => .literal brace.char
  | .slot label members => .slot position label (members.map union)
  | .stray .opening => .strayOpen position
  | .stray .closing => .strayClose position

/-- The symbols of pieces that start at byte offset `position`. -/
def symbols (position : Nat) : List Piece → List Symbol
  | [] => []
  | p :: rest => p.symbol position :: symbols (position + p.size) rest

end Piece

/-- A text consists of pieces, each of which can stand in front of what follows it. -/
inductive IsMadeOf : List Char → List Piece → Prop
  | nil : IsMadeOf [] []
  | cons {p : Piece} {rest : List Char} {pieces : List Piece} (stands : p.StandsBefore rest)
      (made : IsMadeOf rest pieces) : IsMadeOf (p.chars ++ rest) (p :: pieces)

/-! ## Scanning a piece -/

theorem scan_doubled (position : Nat) (brace : Brace) (rest : List Char) :
    scan position (brace.char :: brace.char :: rest) =
      (scan (position + 2) rest).map (.literal brace.char :: ·) := by
  cases brace <;> rw [Brace.char, scan, bind_return_cons]

theorem scan_strayOpen (position : Nat) {rest : List Char}
    (other : ∀ c ∈ rest.head?, c ≠ '{' ∧ c ≠ '_' ∧ ¬ c.isAlpha = true) :
    scan position ('{' :: rest) = (scan (position + 1) rest).map (.strayOpen position :: ·) := by
  have unlabelled : ¬ rest.head?.any startsLabel = true := by
    cases rest with
    | nil => decide
    | cons c rest =>
      obtain ⟨-, underscore, letter⟩ := other c rfl
      simpa [startsLabel, underscore] using letter
  rw [scan, if_neg unlabelled, bind_return_cons]
  rintro more rfl
  exact (other '{' rfl).1 rfl

theorem scan_strayClose (position : Nat) {rest : List Char} (other : ∀ c ∈ rest.head?, c ≠ '}') :
    scan position ('}' :: rest) = (scan (position + 1) rest).map (.strayClose position :: ·) := by
  rw [scan, bind_return_cons]
  rintro more rfl
  exact other '}' rfl rfl

/-- A piece is scanned, whatever follows it. -/
theorem scan_piece {p : Piece} {rest : List Char} (stands : p.StandsBefore rest) (position : Nat) :
    scan position (p.chars ++ rest) =
      (scan (position + p.size) rest).map (p.symbol position :: ·) := by
  cases p with
  | plain c =>
    have single : escaped c = [c] := if_neg (by simpa [Piece.StandsBefore] using stands)
    rw [Piece.size, Piece.chars, ← single]
    exact scan_escaped position c rest
  | escaped c =>
    show scan position ('\\' :: c :: rest) =
      (scan (position + (1 + c.utf8Size)) rest).map (.literal c :: ·)
    rw [scan, bind_return_cons, Nat.add_assoc]
  | backslash =>
    cases stands
    show scan position ['\\'] = (scan (position + 1) []).map (.literal '\\' :: ·)
    rw [scan, scan]
    rfl
  | doubled brace => cases brace <;> exact scan_doubled position _ rest
  | slot label members =>
    have read := scan_chars (p := .slot label members) stands position rest
    rw [Part.size, ← Text.width_eq] at read
    exact read
  | stray brace =>
    cases brace with
    | opening => exact scan_strayOpen position stands
    | closing => exact scan_strayClose position stands

/-- The symbols of a text are those of its pieces. -/
theorem IsMadeOf.scan {cs : List Char} {pieces : List Piece} (made : IsMadeOf cs pieces)
    (position : Nat) : Template.scan position cs = .ok (Piece.symbols position pieces) := by
  induction made generalizing position with
  | nil => rw [Template.scan, Piece.symbols]
  | cons stands _ ih =>
    rw [scan_piece stands, ih]
    rfl

/-! ## Cutting a text -/

/-- A text that names domains consists of their names. -/
theorem exists_union {domain : String} (named : isDomainText domain.toList = true)
    (free : '}' ∉ domain.toList) :
    ∃ members, members ≠ [] ∧ (∀ m ∈ members, IsMember m) ∧ union members = domain := by
  refine ⟨Text.pieces '|' domain, Text.pieces_ne_nil '|' domain, fun m hm => ?_,
    Text.intercalate_pieces (by decide) domain⟩
  have bar := Text.not_mem_of_mem_pieces hm
  obtain ⟨cs, hcs, rfl⟩ := List.mem_map.1 hm
  have allowed := List.all_eq_true.1 named cs hcs
  simp only [Bool.and_eq_true, Bool.not_eq_true', List.all_eq_true] at allowed
  have closing : '}' ∉ cs := fun mem => by
    have inside : '}' ∈ ['|'].intercalate (domain.toList.splitOn '|') :=
      Text.subset_intercalate hcs mem
    rw [List.intercalate_splitOn] at inside
    exact free inside
  rw [String.toList_ofList] at bar
  refine ⟨by simpa using allowed.1, fun c hc special => ?_⟩
  rw [String.toList_ofList] at hc
  have plain := allowed.2 c hc
  simp only [List.mem_cons, List.not_mem_nil, or_false] at special
  rcases special with rfl | rfl | rfl | rfl | rfl | rfl | rfl | rfl
  · exact bar hc
  · exact closing hc
  all_goals exact absurd plain (by decide)

/-- What names domains up to the first closing brace is followed by that brace. -/
theorem exists_members {cs rest : List Char} {c : Char}
    (named : isDomainText (cs.takeWhile (· != '}')) = true)
    (closed : cs.dropWhile (· != '}') = c :: rest) :
    ∃ members, members ≠ [] ∧ (∀ m ∈ members, IsMember m) ∧
      cs = (union members).toList ++ '}' :: rest := by
  have whole : cs.takeWhile (· != '}') ++ cs.dropWhile (· != '}') = cs :=
    List.takeWhile_append_dropWhile
  have free : '}' ∉ cs.takeWhile (· != '}') := fun mem => by
    simpa using List.all_eq_true.1 List.all_takeWhile _ mem
  have last := List.head?_dropWhile_not (· != '}') cs
  simp only [closed, List.head?_cons, bne_eq_false_iff_eq] at last
  rw [← String.toList_ofList (l := cs.takeWhile _)] at named free whole
  obtain ⟨members, ne, each, same⟩ := exists_union named free
  refine ⟨members, ne, each, ?_⟩
  rw [last] at closed
  rw [same, ← closed, whole]

theorem isLabel_takeWhile {cs : List Char} (starts : cs.head?.any startsLabel = true) :
    IsLabel (String.ofList (cs.takeWhile isLabelChar)) := by
  cases cs with
  | nil => cases starts
  | cons c cs =>
    have first : c.isAlpha = true ∨ c = '_' := by simpa [startsLabel] using starts
    have own : isLabelChar c = true := by
      rcases first with letter | rfl
      · simp [isLabelChar, Char.isAlphanum, letter]
      · decide
    refine ⟨c, cs.takeWhile isLabelChar, ?_, first, fun d hd => ?_⟩
    · rw [String.toList_ofList, List.takeWhile_cons_of_pos own]
    · simpa [isLabelChar, or_assoc] using List.all_eq_true.1 List.all_takeWhile d hd

/-- What is read after an opening brace and the start of a label is a placeholder. -/
theorem exists_slot {cs : List Char} {s : SlotText} (starts : cs.head?.any startsLabel = true)
    (read : readSlot cs = .ok s) :
    ∃ label members, (Part.slot label members).IsProper ∧
      '{' :: cs = (Part.slot label members).chars ++ s.rest := by
  have label := isLabel_takeWhile starts
  have whole : cs.takeWhile isLabelChar ++ cs.dropWhile isLabelChar = cs :=
    List.takeWhile_append_dropWhile
  unfold readSlot at read
  split at read
  · next rest after =>
    cases read
    refine ⟨_, none, ⟨label, nofun⟩, ?_⟩
    rw [after] at whole
    simp [Part.chars, whole]
  · next more after =>
    by_cases named : isDomainText (more.takeWhile (· != '}')) = true
    · rw [if_pos named] at read
      split at read
      · cases read
      · next c rest closed =>
        cases read
        obtain ⟨members, ne, each, inner⟩ := exists_members named closed
        refine ⟨_, some members, ⟨label, fun ms hms => ?_⟩, ?_⟩
        · cases hms
          exact ⟨ne, each⟩
        · rw [after, inner] at whole
          simp [Part.chars, whole]
    · rw [if_neg named] at read
      cases read
  · cases read
  · cases read

/-- A text starts with a piece. -/
def StartsWithPiece (cs : List Char) : Prop :=
  ∃ (p : Piece) (rest : List Char), cs = p.chars ++ rest ∧ p.StandsBefore rest

theorem startsWithPiece_closing (cs : List Char) : StartsWithPiece ('}' :: cs) := by
  cases cs with
  | nil => exact ⟨.stray .closing, [], rfl, nofun⟩
  | cons d ds =>
    by_cases twice : d = '}'
    · subst twice
      exact ⟨.doubled .closing, ds, rfl, trivial⟩
    · refine ⟨.stray .closing, d :: ds, rfl, fun e he => ?_⟩
      cases he
      exact twice

theorem startsWithPiece_opening {cs : List Char} (other : ¬ cs.head?.any startsLabel = true) :
    StartsWithPiece ('{' :: cs) := by
  cases cs with
  | nil => exact ⟨.stray .opening, [], rfl, nofun⟩
  | cons d ds =>
    by_cases twice : d = '{'
    · subst twice
      exact ⟨.doubled .opening, ds, rfl, trivial⟩
    · refine ⟨.stray .opening, d :: ds, rfl, fun e he => ?_⟩
      cases he
      simpa [startsLabel, twice, and_comm] using other

/-- A text starts with a piece or with the opening brace of an ill-formed placeholder. -/
theorem startsWithPiece_or_malformed (c : Char) (cs : List Char) :
    StartsWithPiece (c :: cs) ∨
      ∃ fault, c = '{' ∧ cs.head?.any startsLabel = true ∧ readSlot cs = .error fault := by
  by_cases backslash : c = '\\'
  · subst backslash
    cases cs with
    | nil => exact .inl ⟨.backslash, [], rfl, rfl⟩
    | cons d ds => exact .inl ⟨.escaped d, ds, rfl, trivial⟩
  by_cases closing : c = '}'
  · subst closing
    exact .inl (startsWithPiece_closing cs)
  by_cases opening : c = '{'
  · subst opening
    by_cases starts : cs.head?.any startsLabel = true
    · cases read : readSlot cs with
      | error fault => exact .inr ⟨fault, rfl, starts, rfl⟩
      | ok s =>
        obtain ⟨label, members, proper, whole⟩ := exists_slot starts read
        exact .inl ⟨.slot label members, s.rest, whole, proper⟩
    · exact .inl (startsWithPiece_opening starts)
  · refine .inl ⟨.plain c, cs, rfl, ?_⟩
    simp [Piece.StandsBefore, backslash, closing, opening]

/-- Scanning stops at the opening brace of an ill-formed placeholder, and names its label. -/
theorem scan_malformed {cs : List Char} {fault : SlotFault}
    (starts : cs.head?.any startsLabel = true) (read : readSlot cs = .error fault)
    (position : Nat) :
    scan position ('{' :: cs) =
      .error (.malformed fault position (some (String.ofList (cs.takeWhile isLabelChar)))) := by
  have single : ∀ more, cs ≠ '{' :: more := by
    rintro more rfl
    exact absurd (show startsLabel '{' = true from starts) (by decide)
  rw [scan]
  · rw [if_pos starts]
    split
    · next s h => cases h.symm.trans read
    · next other h =>
      cases h.symm.trans read
      rfl
  · exact single

/-- A text has pieces, or scanning stops at the opening brace of an ill-formed placeholder. -/
theorem exists_pieces_or_malformed (cs : List Char) :
    (∃ pieces, IsMadeOf cs pieces) ∨
      ∃ (before : List Char) (rest : List Char) (fault : SlotFault),
        cs = before ++ '{' :: rest ∧ rest.head?.any startsLabel = true ∧
          ∀ position, scan position cs = .error (.malformed fault (position + Text.width before)
            (some (String.ofList (rest.takeWhile isLabelChar)))) := by
  -- a piece may be as long as a placeholder, so the induction is on the length of the text
  induction count : cs.length using Nat.strongRecOn generalizing cs with
  | ind length ih =>
    cases cs with
    | nil => exact .inl ⟨[], .nil⟩
    | cons c cs =>
      rcases startsWithPiece_or_malformed c cs with
        ⟨p, rest, whole, stands⟩ | ⟨fault, rfl, starts, read⟩
      · have shorter : rest.length < length := by
          have filled := List.length_pos_of_ne_nil p.chars_ne_nil
          rw [← count, whole, List.length_append]
          omega
        rw [whole]
        rcases ih rest.length shorter rest rfl with ⟨pieces, made⟩ | stopped
        · exact .inl ⟨p :: pieces, .cons stands made⟩
        · obtain ⟨before, more, fault, rfl, starts, stops⟩ := stopped
          refine .inr ⟨p.chars ++ before, more, fault, by rw [List.append_assoc], starts, ?_⟩
          intro position
          rw [scan_piece stands, stops, Text.width_append, ← Piece.size, Nat.add_assoc]
          rfl
      · exact .inr ⟨[], cs, fault, rfl, starts, scan_malformed starts read⟩

end Template

end PlainSteps
