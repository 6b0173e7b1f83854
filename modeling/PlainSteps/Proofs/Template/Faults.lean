import Mathlib.Data.List.Duplicate
import PlainSteps.Proofs.Template.Scanning

/-!
# The faults of a template

The placeholders of a template that is accepted, and the fault of one that is refused, stand where
the answer says. A template that has no other fault is accepted exactly if its stray braces are
balanced.

* `Template.strayBraces`, `Template.labels`, `Template.placeholdersFrom`: what pieces contribute to
  the answer.
* `Template.Finding`: what a fault, or that there is none, says about pieces;
  `Template.finding_fault?`: it is true of them.
* `Template.OpensAt`, `Template.IsUnmatchedAt`: what stands at the byte offset of a placeholder, and
  of a stray closing brace.
* `Template.IsMadeOf.read_cases`: what reading a text of these pieces says about them.
* `Template.read_locates`: where placeholders and faults are, and when a template is accepted.

Proof-only: no module that runs imports this one.
-/

namespace PlainSteps.Template

/-! ## What pieces contribute -/

namespace Piece

/-- The stray brace that a piece is. -/
def brace? : Piece → Option Brace
  | .stray brace => some brace
  | _ => none

/-- The label of a placeholder. -/
def label? : Piece → Option String
  | .slot label _ => some label
  | _ => none

/-- The placeholder that a piece gives where its first character has byte offset `position`. -/
def placeholder? (position : Nat) : Piece → Option Placeholder
  | .slot label members => (Part.slot label members).placeholder? position
  | _ => none

end Piece

/-- The text of pieces. -/
def textOf (pieces : List Piece) : String := String.ofList (pieces.flatMap Piece.chars)

/-- The stray braces among pieces. -/
def strayBraces (pieces : List Piece) : List Brace := pieces.filterMap Piece.brace?

/-- The labels of the placeholders among pieces. -/
def labels (pieces : List Piece) : List String := pieces.filterMap Piece.label?

/-- The placeholders of pieces that start at byte offset `position`. -/
def placeholdersFrom (position : Nat) : List Piece → List Placeholder
  | [] => []
  | p :: rest => (p.placeholder? position).toList ++ placeholdersFrom (position + p.size) rest

theorem strayBraces_cons (p : Piece) (rest : List Piece) :
    strayBraces (p :: rest) = p.brace?.toList ++ strayBraces rest := by
  rw [strayBraces, List.filterMap_cons]
  cases p.brace? <;> rfl

theorem labels_cons (p : Piece) (rest : List Piece) :
    labels (p :: rest) = p.label?.toList ++ labels rest := by
  rw [labels, List.filterMap_cons]
  cases p.label? <;> rfl

theorem IsMadeOf.eq_chars {cs : List Char} {pieces : List Piece} (made : IsMadeOf cs pieces) :
    cs = pieces.flatMap Piece.chars := by
  induction made with
  | nil => rfl
  | cons _ _ ih => rw [List.flatMap_cons, ← ih]

theorem width_chars (pieces : List Piece) :
    Text.width (pieces.flatMap Piece.chars) = (textOf pieces).utf8ByteSize :=
  Text.width_eq _

theorem size_textOf_cons (p : Piece) (rest : List Piece) :
    (textOf (p :: rest)).utf8ByteSize = p.size + (textOf rest).utf8ByteSize := by
  rw [← width_chars, List.flatMap_cons, Text.width_append, width_chars, Piece.size]

/-! ## Literal text -/

/-- A character of literal text changes the first token, if that is literal text too, or is one. -/
theorem merge_cons_literal (c : Char) (rest : List Symbol) :
    (∃ cs more, merge rest = .literal cs :: more ∧
      merge (.literal c :: rest) = .literal (c :: cs) :: more) ∨
      merge (.literal c :: rest) = .literal [c] :: merge rest := by
  rw [merge]
  split
  · next cs more same => exact .inl ⟨cs, more, same, rfl⟩
  · exact .inr rfl

/-- Literal text has no fault. -/
theorem fault?_literal (size : Nat) (seen : List String) (depth : Nat) (c : Char)
    (rest : List Symbol) :
    fault? size seen depth (merge (.literal c :: rest)) = fault? size seen depth (merge rest) := by
  rcases merge_cons_literal c rest with ⟨cs, more, same, merged⟩ | merged
  · rw [merged, same, fault?, fault?]
  · rw [merged, fault?]

/-- Literal text has no placeholder. -/
theorem slots_literal (c : Char) (rest : List Symbol) :
    slots (merge (.literal c :: rest)) = slots (merge rest) := by
  rcases merge_cons_literal c rest with ⟨cs, more, same, merged⟩ | merged
  · rw [merged, same]
    rfl
  · rw [merged]
    rfl

/-- A piece is a character of literal text, a placeholder or a stray brace. -/
theorem Piece.cases_symbol (p : Piece) :
    (∃ c, (∀ position, p.symbol position = .literal c) ∧ p.brace? = none ∧ p.label? = none ∧
      ∀ position, p.placeholder? position = none) ∨
      (∃ label members, p = .slot label members) ∨ p = .stray .opening ∨ p = .stray .closing := by
  cases p with
  | slot label members => exact .inr (.inl ⟨label, members, rfl⟩)
  | stray brace => cases brace <;> simp
  | _ => exact .inl ⟨_, fun _ => rfl, rfl, rfl, fun _ => rfl⟩

/-! ## Findings -/

/-- What a fault, or that there is none, says about pieces: the first one stands at byte offset
`position` of a template of `size` bytes, and there are labels and `depth` open braces before it. -/
inductive Finding (size position depth : Nat) (seen : List String) (pieces : List Piece) :
    Option PatternError → Prop
  | faultless (closed : leftOpen? depth (strayBraces pieces) = some 0)
      (distinct : (labels pieces).Nodup) (fresh : ∀ label ∈ labels pieces, label ∉ seen) :
      Finding size position depth seen pieces none
  | unbalanced {left : Nat} (opened : leftOpen? depth (strayBraces pieces) = some (left + 1)) :
      Finding size position depth seen pieces (some (.malformed .unbalanced size none))
  | unmatchedClose {before after : List Piece} (split : pieces = before ++ .stray .closing :: after)
      (closed : leftOpen? depth (strayBraces before) = some 0) :
      Finding size position depth seen pieces
        (some (.malformed .unmatchedClose (position + (textOf before).utf8ByteSize) none))
  | duplicate {label : String}
      (again : label ∈ seen ∧ label ∈ labels pieces ∨ List.Duplicate label (labels pieces)) :
      Finding size position depth seen pieces (some (.duplicateLabel label))

/-- What is found after a piece that is no fault is found with it in front. -/
theorem Finding.cons {size position depth depth' : Nat} {seen : List String} {p : Piece}
    {rest : List Piece} {found : Option PatternError}
    (h : Finding size (position + p.size) depth' (p.label?.toList ++ seen) rest found)
    (opened : leftOpen? depth p.brace?.toList = some depth')
    (fresh : ∀ label ∈ p.label?, label ∉ seen) :
    Finding size position depth seen (p :: rest) found := by
  have onward (pieces : List Piece) :
      leftOpen? depth (strayBraces (p :: pieces)) = leftOpen? depth' (strayBraces pieces) := by
    rw [strayBraces_cons, leftOpen?_append, opened]
    rfl
  cases h with
  | faultless closed distinct others =>
    refine .faultless (by rwa [onward]) ?_ ?_
    · rw [labels_cons]
      refine List.nodup_append.2 ⟨?_, distinct, fun label own l hl same => ?_⟩
      · cases p.label? <;> simp
      · exact others l hl (List.mem_append_left seen (same ▸ own))
    · rw [labels_cons]
      intro label mem
      rcases List.mem_append.1 mem with own | later
      · exact fresh label (Option.mem_toList.1 own)
      · exact fun before => others label later (List.mem_append_right _ before)
  | unbalanced opened => exact .unbalanced ((onward rest).trans opened)
  | @unmatchedClose before after split closed =>
    rw [Nat.add_assoc, ← size_textOf_cons]
    exact .unmatchedClose (by rw [split, List.cons_append]) ((onward before).trans closed)
  | @duplicate label again =>
    refine .duplicate ?_
    rw [labels_cons]
    rcases again with ⟨before, later⟩ | twice
    · rcases List.mem_append.1 before with own | before
      · refine .inr ?_
        rw [Option.mem_toList] at own
        rw [own]
        exact .cons_mem later
      · exact .inl ⟨before, List.mem_append_right _ later⟩
    · exact .inr (twice.mono_sublist (List.sublist_append_right _ _))

/-- What is found among the symbols of pieces is true of the pieces. -/
theorem finding_fault? (size position depth : Nat) (seen : List String) (pieces : List Piece) :
    Finding size position depth seen pieces
      (fault? size seen depth (merge (Piece.symbols position pieces))) := by
  -- along the template the offset, the open braces and the labels seen change, so all three vary
  induction pieces generalizing position depth seen with
  | nil =>
    cases depth with
    | zero => exact .faultless rfl List.nodup_nil (List.forall_mem_nil _)
    | succ left => exact .unbalanced rfl
  | cons p rest ih =>
    rw [Piece.symbols]
    rcases p.cases_symbol with
      ⟨c, literal, unbraced, unlabelled, -⟩ | ⟨label, members, rfl⟩ | rfl | rfl
    · rw [literal, fault?_literal]
      refine Finding.cons ?_ (by rw [unbraced]; rfl) fun label own => ?_
      · rw [unlabelled]
        exact ih _ depth seen
      · rw [unlabelled] at own
        cases own
    · rw [Piece.symbol, merge, fault?]
      split
      · next old =>
        exact .duplicate (.inl ⟨old, by rw [labels_cons]; exact List.mem_cons_self⟩)
      · next new =>
        refine Finding.cons (ih _ depth (label :: seen)) rfl fun l hl => ?_
        cases hl
        exact new
    · rw [Piece.symbol, merge, fault?]
      exact Finding.cons (ih _ (depth + 1) seen) rfl fun label own => by cases own
    · rw [Piece.symbol, merge]
      cases depth with
      | zero => exact .unmatchedClose (List.nil_append _).symm rfl
      | succ depth => exact Finding.cons (ih _ depth seen) rfl fun label own => by cases own

/-! ## Places -/

/-- An opening brace and a label stand at a byte offset. -/
def OpensAt (text : String) (position : Nat) (label : String) : Prop :=
  ∃ before after : String, text = before ++ "\x7b" ++ label ++ after ∧
    before.utf8ByteSize = position

theorem opensAt_of_chars {text label : String} {before after : List Char}
    (h : text.toList = before ++ '{' :: (label.toList ++ after)) :
    OpensAt text (Text.width before) label := by
  refine ⟨String.ofList before, String.ofList after, String.toList_injective ?_,
    (Text.width_eq before).symm⟩
  rw [h]
  simp

theorem eq_slot_of_placeholder? {position : Nat} {piece : Piece} {p : Placeholder}
    (h : piece.placeholder? position = some p) :
    p.position = position ∧ ∃ members, piece = .slot p.label members := by
  cases piece with
  | slot label members =>
    cases members with
    | none =>
      cases h
      exact ⟨rfl, none, rfl⟩
    | some members =>
      cases h
      exact ⟨rfl, some members, rfl⟩
  | _ => cases h

/-- A placeholder of pieces is one of the pieces. -/
theorem exists_of_mem_placeholders {position : Nat} {pieces : List Piece} {p : Placeholder}
    (h : p ∈ placeholdersFrom position pieces) :
    ∃ before members after, pieces = before ++ .slot p.label members :: after ∧
      p.position = position + (textOf before).utf8ByteSize := by
  induction pieces generalizing position with
  | nil => cases h
  | cons piece rest ih =>
    rcases List.mem_append.1 h with own | later
    · obtain ⟨place, members, rfl⟩ := eq_slot_of_placeholder? (Option.mem_toList.1 own)
      exact ⟨[], members, rest, rfl, place⟩
    · obtain ⟨before, members, after, rfl, place⟩ := ih later
      refine ⟨piece :: before, members, after, rfl, ?_⟩
      rw [place, size_textOf_cons, Nat.add_assoc]

/-- Placeholders stand one after the other. -/
theorem pairwise_placeholders (position : Nat) (pieces : List Piece) :
    ((placeholdersFrom position pieces).map (·.position)).Pairwise (· < ·) := by
  rw [List.pairwise_map]
  induction pieces generalizing position with
  | nil => exact .nil
  | cons piece rest ih =>
    refine List.pairwise_append.2 ⟨?_, ih _, fun p own q later => ?_⟩
    · cases piece.placeholder? position <;> simp
    · obtain ⟨place, -⟩ := eq_slot_of_placeholder? (Option.mem_toList.1 own)
      obtain ⟨before, -, -, -, behind⟩ := exists_of_mem_placeholders later
      have filled := piece.size_pos
      omega

theorem map_label_placeholders (position : Nat) (pieces : List Piece) :
    (placeholdersFrom position pieces).map (·.label) = labels pieces := by
  induction pieces generalizing position with
  | nil => rfl
  | cons piece rest ih =>
    rw [placeholdersFrom, List.map_append, ih, labels_cons]
    rcases piece with _ | _ | _ | _ | ⟨_, _ | _⟩ | _ <;> rfl

/-- The placeholders of a template are those of its pieces. -/
theorem slots_symbols (position : Nat) (pieces : List Piece) :
    slots (merge (Piece.symbols position pieces)) = placeholdersFrom position pieces := by
  induction pieces generalizing position with
  | nil => rfl
  | cons piece rest ih =>
    rw [Piece.symbols, placeholdersFrom, ← ih]
    rcases piece.cases_symbol with
      ⟨c, literal, -, -, unlabelled⟩ | ⟨label, members, rfl⟩ | rfl | rfl
    · rw [literal, unlabelled, slots_literal]
      rfl
    · cases members <;> rfl
    · rfl
    · rfl

/-- The label of a piece of a text stands after an opening brace. -/
theorem IsMadeOf.opensAt {text label : String} {before after : List Piece}
    {members : Option (List String)}
    (made : IsMadeOf text.toList (before ++ .slot label members :: after)) :
    OpensAt text (textOf before).utf8ByteSize label := by
  have chars : (Piece.slot label members).chars = '{' :: (label.toList ++
      (Piece.slot label members).chars.drop (label.toList.length + 1)) := by
    cases members <;> simp [Piece.chars, Part.chars]
  have whole := made.eq_chars
  rw [List.flatMap_append, List.flatMap_cons, chars, List.cons_append, List.append_assoc] at whole
  rw [← width_chars]
  exact opensAt_of_chars whole

/-! ## Reading a template -/

/-- A text is read by its pieces. -/
theorem IsMadeOf.read_eq {text : String} {pieces : List Piece}
    (made : IsMadeOf text.toList pieces) :
    Template.read text = (fault? text.utf8ByteSize [] 0 (merge (Piece.symbols 0 pieces))).elim
      (.ok ⟨text, matcherOf (merge (Piece.symbols 0 pieces)), placeholdersFrom 0 pieces⟩)
      .error := by
  have width : Text.width text.toList = text.utf8ByteSize := by
    rw [Text.width_eq, String.ofList_toList]
  rw [Template.read, tokens, made.scan, width, ← slots_symbols]
  simp only [Except.map, bind, Except.bind]
  cases fault? text.utf8ByteSize [] 0 (merge (Piece.symbols 0 pieces)) <;> rfl

/-- A stray closing brace of pieces stands at a byte offset and closes no earlier one. -/
def IsUnmatchedAt (pieces : List Piece) (position : Nat) : Prop :=
  ∃ before after, pieces = before ++ .stray .closing :: after ∧
    position = (textOf before).utf8ByteSize ∧ ClosesNothing (strayBraces before)

/-- What reading a text of these pieces says about them. -/
theorem IsMadeOf.read_cases {text : String} {pieces : List Piece}
    (made : IsMadeOf text.toList pieces) :
    (∃ t, Template.read text = .ok t ∧ t.schema = placeholdersFrom 0 pieces ∧
      Balanced (strayBraces pieces) ∧ (labels pieces).Nodup) ∨
    (Template.read text = .error (.malformed .unbalanced text.utf8ByteSize none) ∧
      ¬ Balanced (strayBraces pieces) ∧ LeavesOpen (strayBraces pieces)) ∨
    (∃ position, Template.read text = .error (.malformed .unmatchedClose position none) ∧
      ¬ Balanced (strayBraces pieces) ∧ IsUnmatchedAt pieces position) ∨
    ∃ label, Template.read text = .error (.duplicateLabel label) ∧
      List.Duplicate label (labels pieces) := by
  have finding := finding_fault? text.utf8ByteSize 0 0 [] pieces
  have read := made.read_eq
  generalize fault? text.utf8ByteSize [] 0 (merge (Piece.symbols 0 pieces)) = found
    at finding read
  cases finding with
  | faultless closed distinct _ => exact .inl ⟨_, read, rfl, balanced_iff.2 closed, distinct⟩
  | @unbalanced left opened =>
    refine .inr (.inl ⟨read, fun balanced => ?_, leavesOpen_of_lt opened (Nat.succ_pos left)⟩)
    rw [balanced.leftOpen?] at opened
    cases opened
  | @unmatchedClose before after split closed =>
    have balanced := balanced_iff.2 closed
    have braces : strayBraces pieces = strayBraces before ++ .closing :: strayBraces after := by
      rw [split, strayBraces, List.filterMap_append]
      rfl
    refine .inr (.inr (.inl ⟨_, read, ?_, before, after, split, Nat.zero_add _,
      balanced.closesNothing⟩))
    rw [braces]
    exact balanced.not_append_closing _
  | @duplicate label again =>
    refine .inr (.inr (.inr ⟨label, read, again.resolve_left fun seen => ?_⟩))
    exact List.not_mem_nil seen.1

/-- A template of pieces that is accepted has their placeholders. -/
theorem IsMadeOf.schema_eq {text : String} {pieces : List Piece} {t : Template}
    (made : IsMadeOf text.toList pieces) (read : Template.read text = .ok t) :
    t.schema = placeholdersFrom 0 pieces ∧ (labels pieces).Nodup := by
  rcases made.read_cases with ⟨t', accepted, schema, -, distinct⟩ | ⟨refused, -⟩ |
    ⟨_, refused, -⟩ | ⟨_, refused, -⟩
  · cases accepted.symm.trans read
    exact ⟨schema, distinct⟩
  all_goals cases refused.symm.trans read

/-- No placeholder of a template of pieces is at fault. -/
theorem IsMadeOf.read_ne_malformed {text : String} {pieces : List Piece}
    (made : IsMadeOf text.toList pieces) (fault : SlotFault) (position : Nat) (label : String) :
    Template.read text ≠ .error (.malformed fault position (some label)) := by
  intro read
  rcases made.read_cases with ⟨_, result, -⟩ | ⟨result, -⟩ | ⟨_, result, -⟩ | ⟨_, result, -⟩
  all_goals cases result.symm.trans read

/-- A fault without a label is a stray brace that is left over. -/
theorem IsMadeOf.unmatched {text : String} {pieces : List Piece} {fault : SlotFault}
    {position : Nat} (made : IsMadeOf text.toList pieces)
    (read : Template.read text = .error (.malformed fault position none)) :
    fault = .unbalanced ∧ position = text.utf8ByteSize ∧ LeavesOpen (strayBraces pieces) ∨
      fault = .unmatchedClose ∧ IsUnmatchedAt pieces position := by
  rcases made.read_cases with ⟨_, accepted, -⟩ | ⟨refused, -, opened⟩ |
    ⟨_, refused, -, unmatched⟩ | ⟨_, refused, -⟩
  · cases accepted.symm.trans read
  · cases refused.symm.trans read
    exact .inl ⟨rfl, rfl, opened⟩
  · cases refused.symm.trans read
    exact .inr ⟨rfl, unmatched⟩
  · cases refused.symm.trans read

/-- A label that is refused is there twice. -/
theorem IsMadeOf.duplicate {text label : String} {pieces : List Piece}
    (made : IsMadeOf text.toList pieces)
    (read : Template.read text = .error (.duplicateLabel label)) :
    List.Duplicate label (labels pieces) := by
  rcases made.read_cases with ⟨_, accepted, -⟩ | ⟨refused, -⟩ | ⟨_, refused, -⟩ |
    ⟨_, refused, twice⟩
  · cases accepted.symm.trans read
  · cases refused.symm.trans read
  · cases refused.symm.trans read
  · cases refused.symm.trans read
    exact twice

/-- A template of pieces in which no label is refused is accepted exactly if its stray braces are
balanced. -/
theorem IsMadeOf.accepted_iff {text : String} {pieces : List Piece}
    (made : IsMadeOf text.toList pieces)
    (single : ∀ label, Template.read text ≠ .error (.duplicateLabel label)) :
    (∃ t, Template.read text = .ok t) ↔ Balanced (strayBraces pieces) := by
  rcases made.read_cases with ⟨t, accepted, -, balanced, -⟩ | ⟨refused, unbalanced, -⟩ |
    ⟨_, refused, unbalanced, -⟩ | ⟨label, refused, -⟩
  · exact ⟨fun _ => balanced, fun _ => ⟨t, accepted⟩⟩
  · rw [refused]
    exact ⟨nofun, fun balanced => absurd balanced unbalanced⟩
  · rw [refused]
    exact ⟨nofun, fun balanced => absurd balanced unbalanced⟩
  · exact absurd refused (single label)

/-- A text has pieces, or reading it stops at a placeholder, whose label and place the fault has. -/
theorem exists_pieces_or_refused (text : String) :
    (∃ pieces, IsMadeOf text.toList pieces) ∨
      ∃ fault position label, Template.read text = .error (.malformed fault position (some label)) ∧
        label ≠ "" ∧ OpensAt text position label := by
  refine (exists_pieces_or_malformed text.toList).imp_right ?_
  rintro ⟨before, rest, fault, whole, starts, stops⟩
  refine ⟨fault, Text.width before, String.ofList (rest.takeWhile isLabelChar), ?_, ?_, ?_⟩
  · rw [Template.read, tokens, stops, Nat.zero_add]
    rfl
  · obtain ⟨c, cs, chars, -⟩ := isLabel_takeWhile starts
    intro empty
    rw [empty] at chars
    cases chars
  · refine opensAt_of_chars (show _ = _ ++ _ :: (_ ++ rest.dropWhile isLabelChar) from ?_)
    rw [String.toList_ofList, List.takeWhile_append_dropWhile]
    exact whole

/-- Reading a template says where its placeholders and its faults are, and accepts a template
without other faults exactly if its stray braces are balanced. -/
theorem read_locates (text : String) :
    (∀ t, Template.read text = .ok t →
      (t.schema.map (·.position)).Pairwise (· < ·) ∧ (t.schema.map (·.label)).Nodup ∧
        ∀ p ∈ t.schema, OpensAt text p.position p.label) ∧
    (∀ fault position label, Template.read text = .error (.malformed fault position (some label)) →
      label ≠ "" ∧ OpensAt text position label) ∧
    ((∃ pieces, IsMadeOf text.toList pieces) ↔ ∀ fault position label,
      Template.read text ≠ .error (.malformed fault position (some label))) ∧
    ∀ pieces, IsMadeOf text.toList pieces →
      (∀ t, Template.read text = .ok t → t.schema.map (·.label) = labels pieces) ∧
      (∀ fault position, Template.read text = .error (.malformed fault position none) →
        fault = .unbalanced ∧ position = text.utf8ByteSize ∧ LeavesOpen (strayBraces pieces) ∨
        fault = .unmatchedClose ∧ IsUnmatchedAt pieces position) ∧
      (∀ label, Template.read text = .error (.duplicateLabel label) →
        List.Duplicate label (labels pieces)) ∧
      ((∀ label, Template.read text ≠ .error (.duplicateLabel label)) →
        ((∃ t, Template.read text = .ok t) ↔ Balanced (strayBraces pieces))) := by
  refine ⟨fun t read => ?_, fun fault position label read => ?_, ⟨?_, fun unrefused => ?_⟩,
    fun pieces made => ⟨fun t read => ?_, fun fault position => made.unmatched,
      fun label => made.duplicate, made.accepted_iff⟩⟩
  · rcases exists_pieces_or_refused text with ⟨pieces, made⟩ | ⟨_, _, _, refused, -⟩
    · obtain ⟨schema, distinct⟩ := made.schema_eq read
      rw [schema, map_label_placeholders]
      refine ⟨pairwise_placeholders 0 pieces, distinct, fun p hp => ?_⟩
      obtain ⟨before, members, after, rfl, place⟩ := exists_of_mem_placeholders hp
      rw [place, Nat.zero_add]
      exact made.opensAt
    · cases refused.symm.trans read
  · rcases exists_pieces_or_refused text with ⟨pieces, made⟩ | ⟨_, _, _, refused, ne, opens⟩
    · exact absurd read (made.read_ne_malformed fault position label)
    · cases refused.symm.trans read
      exact ⟨ne, opens⟩
  · rintro ⟨pieces, made⟩
    exact made.read_ne_malformed
  · refine (exists_pieces_or_refused text).resolve_right ?_
    rintro ⟨fault, position, label, refused, -⟩
    exact unrefused fault position label refused
  · rw [(made.schema_eq read).1, map_label_placeholders]

/-- The text `é{ {p} }`, with a placeholder between stray braces. -/
def bracedPieces : List Piece :=
  [.plain 'é', .stray .opening, .plain ' ', .slot "p" none, .plain ' ', .stray .closing]

/-- A template with balanced stray braces, and three that are refused: at a closing brace, at the
end, and at a placeholder. -/
theorem read_locates_braced :
    (∃ t, Template.read "é\x7b \x7bp\x7d \x7d" = .ok t ∧ t.schema = [⟨"p", "string", 4⟩] ∧
      OpensAt "é\x7b \x7bp\x7d \x7d" 4 "p" ∧ Balanced (strayBraces bracedPieces)) ∧
    (Template.read "é\x7d" = .error (.malformed .unmatchedClose 2 none) ∧
      IsUnmatchedAt [.plain 'é', .stray .closing] 2) ∧
    (Template.read "é\x7b" = .error (.malformed .unbalanced 3 none) ∧
      LeavesOpen (strayBraces [.plain 'é', .stray .opening])) ∧
    (Template.read "é\x7bp" = .error (.malformed .unclosed 2 (some "p")) ∧
      OpensAt "é\x7bp" 2 "p") := by
  have plain {c : Char} (h : c ∉ ['{', '}', '\\']) (rest : List Char) :
      Piece.StandsBefore rest (.plain c) := h
  have ending (brace : Brace) : Piece.StandsBefore [] (.stray brace) := by
    cases brace <;> exact nofun
  refine ⟨?_, ?_, ?_, ?_⟩
  · have made : IsMadeOf "é\x7b \x7bp\x7d \x7d".toList bracedPieces := by
      have text : "é\x7b \x7bp\x7d \x7d".toList = ['é', '{', ' ', '{', 'p', '}', ' ', '}'] := by
        decide
      have slot : Piece.StandsBefore [' ', '}'] (.slot "p" none) :=
        ⟨⟨'p', [], by decide, by decide, List.forall_mem_nil _⟩, nofun⟩
      have apart : Piece.StandsBefore [' ', '{', 'p', '}', ' ', '}'] (.stray .opening) := by
        rintro c ⟨⟩
        decide
      rw [text]
      exact .cons (plain (by decide) _) (.cons apart (.cons (plain (by decide) _) (.cons slot
        (.cons (plain (by decide) _) (.cons (ending .closing) .nil)))))
    have read : Template.read "é\x7b \x7bp\x7d \x7d" =
        .ok ⟨_, matcherOf (merge (Piece.symbols 0 bracedPieces)), [⟨"p", "string", 4⟩]⟩ :=
      made.read_eq
    obtain ⟨accepted, -, -, each⟩ := read_locates "é\x7b \x7bp\x7d \x7d"
    refine ⟨_, read, rfl, (accepted _ read).2.2 ⟨"p", "string", 4⟩ List.mem_cons_self, ?_⟩
    refine ((each _ made).2.2.2 fun label refused => ?_).1 ⟨_, read⟩
    cases read.symm.trans refused
  · have made : IsMadeOf "é\x7d".toList [.plain 'é', .stray .closing] := by
      rw [show "é\x7d".toList = ['é', '}'] by decide]
      exact .cons (plain (by decide) _) (.cons (ending .closing) .nil)
    have read : Template.read "é\x7d" = .error (.malformed .unmatchedClose 2 none) := made.read_eq
    obtain ⟨-, -, -, each⟩ := read_locates "é\x7d"
    rcases (each _ made).2.1 _ _ read with ⟨other, -⟩ | ⟨-, unmatched⟩
    · cases other
    · exact ⟨read, unmatched⟩
  · have made : IsMadeOf "é\x7b".toList [.plain 'é', .stray .opening] := by
      rw [show "é\x7b".toList = ['é', '{'] by decide]
      exact .cons (plain (by decide) _) (.cons (ending .opening) .nil)
    have read : Template.read "é\x7b" = .error (.malformed .unbalanced 3 none) := made.read_eq
    obtain ⟨-, -, -, each⟩ := read_locates "é\x7b"
    rcases (each _ made).2.1 _ _ read with ⟨-, -, opened⟩ | ⟨other, -⟩
    · exact ⟨read, opened⟩
    · cases other
  · have text : "é\x7bp".toList = (Piece.plain 'é').chars ++ ['{', 'p'] := by decide
    have slot : readSlot ['p'] = .error .unclosed := rfl
    have read : Template.read "é\x7bp" = .error (.malformed .unclosed 2 (some "p")) := by
      rw [Template.read, tokens, text, scan_piece (plain (by decide) _), scan_malformed rfl slot]
      rfl
    exact ⟨read, ((read_locates "é\x7bp").2.1 _ _ _ read).2⟩

end PlainSteps.Template
