import PlainSteps.Proofs.Template.Captures
import PlainSteps.Proofs.Text.Pieces

/-!
# Templates that are put together

A template can be put together of literal texts and placeholders: in literal text each brace and
each backslash is doubled. It is read as these parts.

* `Template.Part`: a part of a template, `Part.chars` and `Part.IsProper`.
* `Template.written`: the template of parts.
* `Template.scan_chars`: a part is read, whatever follows it.
* `Template.merge_symbolsFrom`: the parts are told apart.
* `Template.read_written`: a template of parts is read as these parts, and its placeholders are
  theirs.

Proof-only: no module that runs imports this one.
-/

namespace PlainSteps

theorem Text.width_eq (cs : List Char) : width cs = (String.ofList cs).utf8ByteSize := by
  induction cs with
  | nil => rfl
  | cons c cs ih => simp [width, ih, String.ofList_cons]

theorem Text.width_append (cs ds : List Char) : width (cs ++ ds) = width cs + width ds := by
  rw [width_eq, width_eq, width_eq, String.ofList_append, String.utf8ByteSize_append]

namespace Template

/-! ## Parts -/

/-- A part of a template: literal text, or a placeholder with the members of its domain. -/
inductive Part where
  | literal (text : List Char)
  | slot (label : String) (members : Option (List String))

/-- A character of literal text as it is written in a template. -/
def escaped (c : Char) : List Char := if c = '{' ∨ c = '}' ∨ c = '\\' then [c, c] else [c]

/-- A domain with its members. -/
def union (members : List String) : String := "|".intercalate members

/-- A label: a letter or an underscore, and then letters, digits, underscores and hyphens. -/
def IsLabel (label : String) : Prop :=
  ∃ c cs, label.toList = c :: cs ∧ (c.isAlpha = true ∨ c = '_') ∧
    ∀ d ∈ cs, d.isAlphanum = true ∨ d = '_' ∨ d = '-'

/-- A member of a domain. -/
def IsMember (member : String) : Prop :=
  member ≠ "" ∧ ∀ c ∈ member.toList, c ∉ ['|', '}', '{', ' ', '\t', '\n', '\x0c', '\r']

namespace Part

/-- A part as it is written. -/
def chars : Part → List Char
  | .literal text => text.flatMap escaped
  | .slot label none => '{' :: (label.toList ++ ['}'])
  | .slot label (some members) => '{' :: (label.toList ++ ':' :: ((union members).toList ++ ['}']))

/-- The number of bytes of a part as it is written. -/
def size (p : Part) : Nat := (String.ofList p.chars).utf8ByteSize

/-- The token that a part gives where its first character has byte offset `position`. -/
def token (position : Nat) : Part → Token
  | .literal text => .literal text
  | .slot label members => .slot position label (members.map union)

/-- The placeholder that a part gives there. -/
def placeholder? (position : Nat) : Part → Option Placeholder
  | .literal _ => none
  | .slot label none => some ⟨label, "string", position⟩
  | .slot label (some members) => some ⟨label, union members, position⟩

/-- The label of a placeholder. -/
def label? : Part → Option String
  | .literal _ => none
  | .slot label _ => some label

/-- A part that can be told from what stands around it. -/
def IsProper : Part → Prop
  | .literal text => text ≠ []
  | .slot label members => IsLabel label ∧ ∀ ms ∈ members, ms ≠ [] ∧ ∀ m ∈ ms, IsMember m

end Part

/-- The template that parts make. -/
def written (parts : List Part) : String := String.ofList (parts.flatMap Part.chars)

/-- No two literal texts stand side by side. -/
def AreApart (parts : List Part) : Prop :=
  parts.IsChain fun p q => p.label? = none → q.label? ≠ none

/-- The number of bytes in front of the part with index `index`. -/
def offset (parts : List Part) (index : Nat) : Nat := (written (parts.take index)).utf8ByteSize

/-- The tokens of parts. -/
def tokensOf (parts : List Part) : List Token := parts.mapIdx fun i p => p.token (offset parts i)

/-- The placeholders of parts. -/
def schemaOf (parts : List Part) : List Placeholder :=
  (parts.mapIdx fun i p => p.placeholder? (offset parts i)).reduceOption

/-! ## Reading a part -/

theorem bind_return_cons {s : Symbol} {x : Except PatternError (List Symbol)} :
    (do return s :: (← x)) = x.map (s :: ·) := by
  cases x <;> rfl

/-- A character of literal text is read, whatever follows it. -/
theorem scan_escaped (position : Nat) (c : Char) (rest : List Char) :
    scan position (escaped c ++ rest) =
      (scan (position + Text.width (escaped c)) rest).map (.literal c :: ·) := by
  unfold escaped
  split
  · next special =>
    rcases special with rfl | rfl | rfl
    all_goals
      rw [List.cons_append, List.singleton_append, scan, bind_return_cons]
      rfl
  · next plain =>
    simp only [not_or] at plain
    rw [List.singleton_append, scan, bind_return_cons]
    · rfl
    all_goals
      intros
      simp_all

/-- The symbols that a part gives where its first character has byte offset `position`. -/
def Part.symbols (position : Nat) : Part → List Symbol
  | .literal text => text.map .literal
  | .slot label members => [.slot position label (members.map union)]

theorem scan_literal (position : Nat) (text rest : List Char) :
    scan position (text.flatMap escaped ++ rest) =
      (scan (position + Text.width (text.flatMap escaped)) rest).map (text.map .literal ++ ·) := by
  induction text generalizing position with
  | nil =>
    show scan position rest = (scan position rest).map id
    cases scan position rest <;> rfl
  | cons c text ih =>
    rw [List.flatMap_cons, List.append_assoc, scan_escaped, ih, Text.width_append, Nat.add_assoc]
    cases scan (position + (Text.width (escaped c) + Text.width (text.flatMap escaped))) rest <;>
      rfl

/-- A run of characters ends at the first character of another kind. -/
theorem takeWhile_run {kind : Char → Bool} {cs : List Char} {d : Char}
    (own : ∀ c ∈ cs, kind c = true) (other : ¬ kind d = true) (rest : List Char) :
    (cs ++ d :: rest).takeWhile kind = cs ∧ (cs ++ d :: rest).dropWhile kind = d :: rest := by
  constructor
  · rw [List.takeWhile_append_of_pos own, List.takeWhile_cons_of_neg other, List.append_nil]
  · rw [List.dropWhile_append_of_pos own, List.dropWhile_cons_of_neg other]

theorem readSlot_label {label : List Char} (h : ∀ c ∈ label, isLabelChar c = true)
    (rest : List Char) : readSlot (label ++ '}' :: rest) = .ok ⟨label, none, rest⟩ := by
  obtain ⟨name, more⟩ := takeWhile_run h (show ¬ isLabelChar '}' = true by decide) rest
  simp only [readSlot, name, more]

theorem readSlot_domain {label domain : List Char} (h : ∀ c ∈ label, isLabelChar c = true)
    (free : '}' ∉ domain) (valid : isDomainText domain = true) (rest : List Char) :
    readSlot (label ++ ':' :: (domain ++ '}' :: rest)) = .ok ⟨label, some domain, rest⟩ := by
  have inner : ∀ c ∈ domain, (c != '}') = true := fun c mem => by
    simpa using fun same : c = '}' => free (same ▸ mem)
  obtain ⟨name, more⟩ := takeWhile_run h (show ¬ isLabelChar ':' = true by decide)
    (domain ++ '}' :: rest)
  obtain ⟨named, after⟩ := takeWhile_run inner (show ¬ ('}' != '}') = true by decide) rest
  simp only [readSlot, name, more, named, after, valid, if_true]

theorem splitOn_union {members : List String} (ne : members ≠ [])
    (h : ∀ m ∈ members, IsMember m) :
    (union members).toList.splitOn '|' = members.map String.toList := by
  rw [union, String.toList_intercalate]
  refine List.splitOn_intercalate '|' (fun cs mem => ?_) (by simpa using ne)
  obtain ⟨m, hm, rfl⟩ := List.mem_map.1 mem
  exact fun bar => (h m hm).2 '|' bar (by simp)

theorem isDomainText_union {members : List String} (ne : members ≠ [])
    (h : ∀ m ∈ members, IsMember m) : isDomainText (union members).toList = true := by
  rw [isDomainText, splitOn_union ne h, List.all_map, List.all_eq_true]
  intro m hm
  obtain ⟨nonempty, free⟩ := h m hm
  simp only [Function.comp_apply, Bool.and_eq_true, Bool.not_eq_true', List.all_eq_true]
  refine ⟨by simpa using nonempty, fun c hc => ?_⟩
  have allowed := free c hc
  have feed : c.toNat ≠ 12 := fun same => by
    rw [Char.toNat_inj.1 (show c.toNat = '\x0c'.toNat from same)] at allowed
    simp at allowed
  simp_all [Text.isAsciiBlank]

theorem not_mem_union {members : List String} (h : ∀ m ∈ members, IsMember m) :
    '}' ∉ (union members).toList := by
  rw [union, String.toList_intercalate]
  intro closing
  rcases Text.mem_intercalate closing with closing | ⟨cs, mem, closing⟩
  · exact absurd closing (by decide)
  · obtain ⟨m, hm, rfl⟩ := List.mem_map.1 mem
    exact (h m hm).2 '}' closing (by simp)

theorem IsLabel.chars {label : String} (h : IsLabel label) :
    (∀ rest, (label.toList ++ rest).head?.any startsLabel = true) ∧
      ∀ c ∈ label.toList, isLabelChar c = true := by
  obtain ⟨c, cs, chars, first, others⟩ := h
  rw [chars]
  refine ⟨fun rest => ?_, List.forall_mem_cons.2 ⟨?_, fun d hd => ?_⟩⟩
  · simpa [startsLabel] using first
  · rcases first with first | rfl
    · simp [isLabelChar, Char.isAlphanum, first]
    · decide
  · simpa [isLabelChar, or_assoc] using others d hd

/-- A placeholder is read, whatever follows it. -/
theorem scan_readSlot {label inner rest : List Char} {domain : Option (List Char)}
    (starts : (inner ++ rest).head?.any startsLabel = true)
    (slot : readSlot (inner ++ rest) = .ok ⟨label, domain, rest⟩)
    (width : Text.width ('{' :: inner) = SlotText.width ⟨label, domain, rest⟩) (position : Nat) :
    scan position ('{' :: inner ++ rest) =
      (scan (position + Text.width ('{' :: inner)) rest).map
        ([.slot position (String.ofList label) (domain.map String.ofList)] ++ ·) := by
  rw [width]
  exact scan_slot position starts slot

/-- A part is read, whatever follows it. -/
theorem scan_chars {p : Part} (proper : p.IsProper) (position : Nat) (rest : List Char) :
    scan position (p.chars ++ rest) =
      (scan (position + p.size) rest).map (p.symbols position ++ ·) := by
  have one : '{'.utf8Size = 1 ∧ ':'.utf8Size = 1 ∧ '}'.utf8Size = 1 := by decide
  rw [Part.size, ← Text.width_eq]
  cases p with
  | literal text => exact scan_literal position text rest
  | slot label members =>
    obtain ⟨starts, chars⟩ := proper.1.chars
    cases members with
    | none =>
      have width : Text.width ('{' :: (label.toList ++ ['}'])) =
          SlotText.width ⟨label.toList, none, rest⟩ := by
        simp only [SlotText.width, Text.width, Text.width_append, one]
        omega
      have slot : readSlot (label.toList ++ ['}'] ++ rest) = .ok ⟨label.toList, none, rest⟩ := by
        rw [List.append_assoc]
        exact readSlot_label chars rest
      have read := scan_readSlot (List.append_assoc .. ▸ starts _) slot width position
      rwa [String.ofList_toList] at read
    | some members =>
      obtain ⟨ne, each⟩ := proper.2 members rfl
      have width : Text.width ('{' :: (label.toList ++ ':' :: ((union members).toList ++ ['}']))) =
          SlotText.width ⟨label.toList, some (union members).toList, rest⟩ := by
        simp only [SlotText.width, Text.width, Text.width_append, one]
        omega
      have slot : readSlot (label.toList ++ ':' :: ((union members).toList ++ ['}']) ++ rest) =
          .ok ⟨label.toList, some (union members).toList, rest⟩ := by
        rw [List.append_assoc, List.cons_append, List.append_assoc]
        exact readSlot_domain chars (not_mem_union each) (isDomainText_union ne each) rest
      have read := scan_readSlot (List.append_assoc .. ▸ starts _) slot width position
      rwa [String.ofList_toList, Option.map_some, String.ofList_toList] at read

/-! ## Reading all parts -/

/-- The symbols of parts that start at byte offset `position`. -/
def symbolsFrom (position : Nat) : List Part → List Symbol
  | [] => []
  | p :: rest => p.symbols position ++ symbolsFrom (position + p.size) rest

theorem scan_written {parts : List Part} (proper : ∀ p ∈ parts, p.IsProper) (position : Nat) :
    scan position (parts.flatMap Part.chars) = .ok (symbolsFrom position parts) := by
  induction parts generalizing position with
  | nil => simp [scan, symbolsFrom]
  | cons p rest ih =>
    obtain ⟨first, others⟩ := List.forall_mem_cons.1 proper
    rw [List.flatMap_cons, scan_chars first, ih others]
    rfl

/-- Literal text is one token where no other literal text follows it. -/
theorem merge_literal {text : List Char} (ne : text ≠ []) {rest : List Symbol}
    (apart : ∀ cs more, merge rest ≠ .literal cs :: more) :
    merge (text.map .literal ++ rest) = .literal text :: merge rest := by
  induction text with
  | nil => exact absurd rfl ne
  | cons c cs ih =>
    cases cs with
    | nil =>
      rw [List.map_singleton, List.singleton_append, merge]
      split
      · next found => exact absurd found (apart _ _)
      · rfl
    | cons d cs => rw [List.map_cons, List.cons_append, merge, ih (List.cons_ne_nil d cs)]

/-- The tokens of parts that start at byte offset `position`. -/
def tokensFrom (position : Nat) : List Part → List Token
  | [] => []
  | p :: rest => p.token position :: tokensFrom (position + p.size) rest

/-- The parts are told apart. -/
theorem merge_symbolsFrom {parts : List Part} (proper : ∀ p ∈ parts, p.IsProper)
    (apart : AreApart parts) (position : Nat) :
    merge (symbolsFrom position parts) = tokensFrom position parts := by
  induction parts generalizing position with
  | nil => rfl
  | cons p rest ih =>
    obtain ⟨first, others⟩ := List.forall_mem_cons.1 proper
    have later := ih others apart.of_cons (position + p.size)
    cases p with
    | slot label members => exact congrArg _ later
    | literal text =>
      rw [symbolsFrom, Part.symbols, merge_literal first, later, tokensFrom, Part.token]
      -- what comes next, if anything does, is a placeholder
      intro cs more
      rw [later]
      cases rest with
      | nil => exact nofun
      | cons q rest =>
        cases q with
        | literal _ => exact absurd rfl ((List.isChain_cons_cons.1 apart).1 rfl)
        | slot _ _ => exact nofun

theorem offset_succ (p : Part) (rest : List Part) (index : Nat) :
    offset (p :: rest) (index + 1) = p.size + offset rest index := by
  rw [offset, List.take_succ_cons, written, List.flatMap_cons, String.ofList_append,
    String.utf8ByteSize_append]
  rfl

theorem tokensFrom_eq (position : Nat) (parts : List Part) :
    tokensFrom position parts = parts.mapIdx fun i p => p.token (position + offset parts i) := by
  induction parts generalizing position with
  | nil => rfl
  | cons p rest ih =>
    rw [tokensFrom, ih, List.mapIdx_cons]
    simp only [offset_succ, ← Nat.add_assoc]
    rfl

theorem tokensFrom_zero (parts : List Part) : tokensFrom 0 parts = tokensOf parts := by
  simp only [tokensFrom_eq, Nat.zero_add, tokensOf]

/-- Parts have no fault where no label is there twice. -/
theorem fault?_tokensFrom {parts : List Part} {seen : List String}
    (distinct : (parts.filterMap Part.label?).Nodup)
    (unseen : ∀ label ∈ parts.filterMap Part.label?, label ∉ seen) (size position : Nat) :
    fault? size seen 0 (tokensFrom position parts) = none := by
  induction parts generalizing seen position with
  | nil => rfl
  | cons p rest ih =>
    cases p with
    | literal text => exact ih distinct unseen _
    | slot label members =>
      obtain ⟨other, later⟩ := List.nodup_cons.1 distinct
      obtain ⟨first, others⟩ := List.forall_mem_cons.1 unseen
      rw [tokensFrom, Part.token, fault?, if_neg first]
      refine ih later (fun l hl seen => ?_) _
      rcases List.mem_cons.1 seen with same | seen
      · exact other (same ▸ hl)
      · exact others l hl seen

theorem slots_tokensOf (parts : List Part) : slots (tokensOf parts) = schemaOf parts := by
  have each (position : Nat) (p : Part) :
      (p.token position).placeholder? = p.placeholder? position := by
    rcases p with _ | ⟨_, _ | _⟩ <;> rfl
  have alike : (tokensOf parts).map (·.placeholder?) =
      parts.mapIdx fun i p => p.placeholder? (offset parts i) := by
    refine List.ext_getElem? fun i => ?_
    rw [tokensOf, List.getElem?_map, List.getElem?_mapIdx, List.getElem?_mapIdx, Option.map_map]
    exact congrArg (Option.map · parts[i]?) (funext fun p => each (offset parts i) p)
  show (tokensOf parts).filterMap (·.placeholder?) =
    (parts.mapIdx fun i p => p.placeholder? (offset parts i)).filterMap id
  rw [← alike, List.filterMap_map]
  rfl

/-- A template of parts has their tokens. -/
theorem tokens_written {parts : List Part} (proper : ∀ p ∈ parts, p.IsProper)
    (apart : AreApart parts) : tokens (written parts) = .ok (tokensOf parts) := by
  have told : merge (symbolsFrom 0 parts) = tokensOf parts := by
    rw [merge_symbolsFrom proper apart, tokensFrom_zero]
  rw [tokens, written, String.toList_ofList, scan_written proper, ← told]
  rfl

/-- A template of parts is read as these parts, and where no label is there twice, it has their
placeholders. -/
theorem read_written {parts : List Part} (proper : ∀ p ∈ parts, p.IsProper)
    (apart : AreApart parts) :
    tokens (written parts) = .ok (tokensOf parts) ∧
      ((parts.filterMap Part.label?).Nodup → Template.read (written parts) =
        .ok ⟨written parts, matcherOf (tokensOf parts), schemaOf parts⟩) := by
  have lexed := tokens_written proper apart
  refine ⟨lexed, fun distinct => ?_⟩
  rw [← slots_tokensOf]
  refine read_of_tokens lexed ?_
  rw [← tokensFrom_zero]
  exact fault?_tokensFrom distinct (fun _ _ => List.not_mem_nil) _ 0

/-- A text that ends in a brace in front of a placeholder, and one that starts with a brace after
it. -/
def bracedParts : List Part :=
  [.literal ['é', '{'], .slot "p" (some ["x", "y"]), .literal ['}', '\\'], .slot "q-1" none]

/-- The template of these parts. -/
theorem read_bracedParts :
    written bracedParts = "é\x7b\x7b\x7bp:x|y\x7d\x7d\x7d\\\\\x7bq-1\x7d" ∧
      tokens (written bracedParts) =
        .ok [.literal ['é', '{'], .slot 4 "p" (some "x|y"), .literal ['}', '\\'],
          .slot 15 "q-1" none] ∧
      (Template.read (written bracedParts)).map (·.schema) =
        .ok [⟨"p", "x|y", 4⟩, ⟨"q-1", "string", 15⟩] := by
  have p : IsLabel "p" := ⟨'p', [], by decide, by decide, List.forall_mem_nil _⟩
  have q : IsLabel "q-1" := by
    refine ⟨'q', ['-', '1'], by decide, by decide, List.forall_mem_cons.2 ⟨by decide, ?_⟩⟩
    exact List.forall_mem_singleton.2 (by decide)
  have x : IsMember "x" := ⟨by decide, List.forall_mem_singleton.2 (by decide)⟩
  have y : IsMember "y" := ⟨by decide, List.forall_mem_singleton.2 (by decide)⟩
  have braced : (Part.slot "p" (some ["x", "y"])).IsProper := by
    refine ⟨p, fun ms hms => ?_⟩
    cases hms
    exact ⟨by decide, List.forall_mem_cons.2 ⟨x, List.forall_mem_singleton.2 y⟩⟩
  have bare : (Part.slot "q-1" none).IsProper := ⟨q, fun ms hms => by cases hms⟩
  have proper : ∀ p ∈ bracedParts, p.IsProper :=
    List.forall_mem_cons.2 ⟨List.cons_ne_nil _ _, List.forall_mem_cons.2 ⟨braced,
      List.forall_mem_cons.2 ⟨List.cons_ne_nil _ _, List.forall_mem_singleton.2 bare⟩⟩⟩
  have apart : AreApart bracedParts := by
    unfold AreApart bracedParts
    decide
  obtain ⟨lexed, accepted⟩ := read_written proper apart
  refine ⟨by decide, lexed.trans (by decide), ?_⟩
  rw [accepted (by decide)]
  decide

end Template

end PlainSteps
