import PlainSteps.Proofs.Regex.ReadBack
import PlainSteps.Template.Basic

/-!
# The written expression of a template

The expression of a template can be read back from the way it is written, and what is read matches
like it.

* `Template.groupName_injective`: different groups have different names.
* `Template.groupOf`: what the reader knows a group by.
* `Template.readsBack_form`, `Template.readsBack_opening`, `Template.readsBack_body`: the pieces.
* `Template.read?_source`: the whole expression.

Proof-only: no module that runs imports this one.
-/

namespace PlainSteps.Template

open Regex

/-! ## The names of groups -/

theorem toList_groupName (name : FormName) :
    (groupName name).toList = 'p' :: (Nat.toDigits 10 name.1 ++ '_' :: name.2.name.toList) := by
  have start : "p".toList = ['p'] := by decide
  have mark : "_".toList = ['_'] := by decide
  rw [groupName, String.toList_append, String.toList_append, String.toList_append, start, mark,
    Nat.toString_eq_repr, Nat.toList_repr]
  simp only [List.cons_append, List.nil_append, List.append_assoc]

theorem mem_digits {c : Char} {n : Nat} (h : c ∈ Nat.toDigits 10 n) : c ∈ "0123456789".toList := by
  obtain ⟨low, high⟩ :=
    Char.isDigit_iff_toNat.1 (Nat.isDigit_of_mem_toDigits (by decide) (by decide) h)
  have listed : ∀ k < 58, 48 ≤ k → Char.ofNat k ∈ "0123456789".toList := by decide
  have member := listed c.toNat (Nat.lt_succ_of_le high) low
  rwa [Char.ofNat_toNat] at member

theorem name_injective {o o' : Origin} (h : o.name = o'.name) : o = o' := by
  cases o <;> cases o' <;> first | rfl | exact absurd h (by decide)

/-- Different groups have different names. -/
theorem groupName_injective {name name' : FormName} (h : groupName name = groupName name') :
    name = name' := by
  have texts := congrArg String.toList h
  rw [toList_groupName, toList_groupName] at texts
  have texts := (List.cons.inj texts).2
  have digits (n : Nat) : ∀ c ∈ Nat.toDigits 10 n, (c != '_') = true :=
    fun c hc => bne_iff_ne.2 fun eq => Nat.underscore_not_in_toDigits (eq ▸ hc)
  have index := congrArg (List.takeWhile (· != '_')) texts
  have origin := congrArg (List.dropWhile (· != '_')) texts
  rw [List.takeWhile_append_of_pos (digits _), List.takeWhile_append_of_pos (digits _),
    List.takeWhile_cons_of_neg (by decide), List.takeWhile_cons_of_neg (by decide),
    List.append_nil, List.append_nil] at index
  rw [List.dropWhile_append_of_pos (digits _), List.dropWhile_append_of_pos (digits _),
    List.dropWhile_cons_of_neg (by decide), List.dropWhile_cons_of_neg (by decide)] at origin
  have same : name.1 = name'.1 := by
    rw [← @Nat.ofDigitChars_ten_toDigits name.1, index, Nat.ofDigitChars_ten_toDigits]
  exact Prod.ext same (name_injective (String.toList_inj.1 (List.cons.inj origin).2))

theorem isGroupName_groupName (name : FormName) : isGroupName (groupName name).toList = true := by
  have initial : (('p' == '_') || Text.isAlphabetic 'p') = true := by decide +kernel
  have digits : "0123456789".toList.all Text.isNumeric = true := by decide +kernel
  have letters :
      ('_' :: name.2.name.toList).all (fun d => d == '_' || Text.isAlphabetic d) = true := by
    cases name.2 <;> decide +kernel
  rw [toList_groupName, isGroupName, initial, Bool.true_and, List.all_eq_true]
  intro d hd
  rcases List.mem_append.1 hd with hd | hd
  · rw [List.all_eq_true.1 digits d (mem_digits hd), Bool.or_true]
  · have letter := List.all_eq_true.1 letters d hd
    simp only [Bool.or_eq_true] at letter ⊢
    rcases letter with underscore | alphabetic
    · simp [underscore]
    · simp [alphabetic]

theorem not_mem_groupName (name : FormName) : '>' ∉ (groupName name).toList := by
  have letters : '>' ∉ '_' :: name.2.name.toList := by
    cases name.2 <;> decide
  rw [toList_groupName, List.mem_cons, List.mem_append]
  rintro (eq | h | h)
  · exact absurd eq (by decide)
  · exact absurd (mem_digits h) (by decide)
  · exact letters h

/-- The groups of the forms of terms, in the order in which they open. -/
def groupAt (n : Nat) : FormName := (n / 6, Origin.forms.getD (n % 6) .statement)

/-- What a group is known by to a reader of the expression. -/
def groupOf (name : FormName) : GroupName :=
  ⟨6 * name.1 + Origin.forms.idxOf name.2 + 1, some (groupName name)⟩

/-- The first groups have opened. -/
def opened : Nat → Opened
  | 0 => ⟨0, []⟩
  | n + 1 => (opened n).open (groupName (groupAt n)).toList

theorem groups_opened (n : Nat) : (opened n).groups = n := by
  induction n with
  | zero => rfl
  | succ n ih => exact congrArg (· + 1) ih

theorem mem_names_opened {n : Nat} {name : String} (h : name ∈ (opened n).names) :
    ∃ k < n, name = groupName (groupAt k) := by
  induction n with
  | zero => cases h
  | succ n ih =>
    rcases List.mem_cons.1 h with rfl | h
    · exact ⟨n, Nat.lt_succ_self n, String.ofList_toList⟩
    · obtain ⟨k, hk, eq⟩ := ih h
      exact ⟨k, Nat.lt_succ_of_lt hk, eq⟩

theorem groupOf_groupAt (n : Nat) :
    groupOf (groupAt n) = ⟨n + 1, some (groupName (groupAt n))⟩ := by
  have rank : ∀ k < 6, Origin.forms.idxOf (Origin.forms.getD k .statement) = k := by decide
  have number :
      6 * (n / 6) + Origin.forms.idxOf (Origin.forms.getD (n % 6) .statement) + 1 = n + 1 := by
    rw [rank (n % 6) (Nat.mod_lt n (by decide))]
    omega
  rw [groupOf, groupAt, number]

/-- The next group has a name of its own. -/
theorem fresh_opened (n : Nat) : groupName (groupAt n) ∉ (opened n).names := by
  intro h
  obtain ⟨k, hk, eq⟩ := mem_names_opened h
  -- A name tells the number of the group, which is greater than those of the groups before.
  have same := congrArg (fun name => (groupOf name).number) (groupName_injective eq)
  simp only [groupOf_groupAt] at same
  omega

/-! ## Terms -/

theorem groupAt_add (index : Nat) {k : Nat} (hk : k < 6) :
    groupAt (6 * index + k) = (index, Origin.forms.getD k .statement) := by
  have place : (6 * index + k) / 6 = index := by omega
  have rank : (6 * index + k) % 6 = k := by omega
  rw [groupAt, place, rank]

/-- What is read from a term in one form. -/
def readForm (index : Nat) (short : Bool) (origin : Origin) : List Nested :=
  let recorded (body : Regex GroupName) (depth : Nat) : Nested :=
    ⟨.named (groupOf (index, origin)) body, depth + 1⟩
  match origin.delimiters? with
  | some (first, last) =>
    let body : Regex GroupName := .oneOf (.spans (around last.toNat))
    [⟨.text [first], 0⟩, recorded (if origin = .quoted then body.zeroOrMore else body.oneOrMore) 2,
      ⟨.text [last], 0⟩]
  | none =>
    let body : Regex GroupName := .oneOf (.spans (CharSet.toSpans .notNewline))
    [recorded (if short then body.oneOrMoreLazy else body.oneOrMore) 1]

section Terms

variable {body : Regex FormName} {n : Nat} {name : FormName} {x : Nested}

/-- A text that is recorded. -/
theorem atom_recorded (next : groupAt n = name)
    (h : ReadsBack groupName groupOf body 1 (opened (n + 1)) (opened (n + 1)) [x])
    (shallow : x.depth + 2 < depthLimit) :
    AtomReadsBack groupName groupOf (.named name body) 2 (opened n) (opened (n + 1))
      ⟨.named (groupOf name) x.expression, x.depth + 1⟩ := by
  subst next
  refine h.named (isGroupName_groupName _) (not_mem_groupName _) (fresh_opened n) ?_ shallow
  rw [groups_opened]
  exact groupOf_groupAt n

/-- A text that is recorded, between delimiters. -/
theorem readsBack_delimited (next : groupAt n = name) (first last : Char)
    (h : ReadsBack groupName groupOf body 1 (opened (n + 1)) (opened (n + 1)) [x])
    (shallow : x.depth + 2 < depthLimit) :
    ReadsBack groupName groupOf (.sequence [.text [first], .named name body, .text [last]]) 2
      (opened n) (opened (n + 1))
      [⟨.text [first], 0⟩, ⟨.named (groupOf name) x.expression, x.depth + 1⟩, ⟨.text [last], 0⟩] :=
  (readsBack_text [first]).cat ((atom_recorded next h shallow).readsBack.cat
    ((readsBack_text [last]).cat readsBack_empty))

/-- A term in one form. -/
theorem readsBack_form {index : Nat} {origin : Origin} (short : Bool)
    (next : groupAt n = (index, origin)) (known : origin ≠ .statement) :
    ReadsBack groupName groupOf (form index short origin) 2 (opened n) (opened (n + 1))
      (readForm index short origin) := by
  have filled (first last : Char) (pos : 0 < last.toNat) (small : last.toNat < 0xD7FF) :=
    readsBack_delimited next first last ((atom_without pos small).oneOrMore rfl)
      (by decide : 4 < depthLimit)
  cases origin with
  | statement => exact absurd rfl known
  | var => exact filled '\x60' '\x60' (by decide) (by decide)
  | env => exact filled '{' '}' (by decide) (by decide)
  | special => exact filled '[' ']' (by decide) (by decide)
  | credential => exact filled '<' '>' (by decide) (by decide)
  | quoted =>
    exact readsBack_delimited next '"' '"' ((atom_without (by decide) (by decide)).zeroOrMore rfl)
      (by decide : 4 < depthLimit)
  | fallthrough =>
    cases short with
    | true =>
      exact (atom_recorded next (atom_notNewline.oneOrMoreLazy rfl)
        (by decide : 3 < depthLimit)).readsBack
    | false =>
      exact (atom_recorded next (atom_notNewline.oneOrMore rfl)
        (by decide : 3 < depthLimit)).readsBack

/-- A term in any form. -/
theorem readsBack_term (index : Nat) (short : Bool) :
    ∃ x, ReadsBack groupName groupOf (term index short) 3
      (opened (6 * index)) (opened (6 * index + 6)) [x] := by
  have each (k : Nat) (hk : k < 6) := readsBack_form short (groupAt_add index hk)
  have all : BranchesReadBack groupName groupOf (Origin.forms.map (form index short)) 2
      (opened (6 * index)) (opened (6 * index + 6))
      (Origin.forms.map fun o => inSequence (readForm index short o).reverse) :=
    .cons (each 0 (by decide) (by decide)) <| .cons (each 1 (by decide) (by decide)) <|
      .cons (each 2 (by decide) (by decide)) <| .cons (each 3 (by decide) (by decide)) <|
        .cons (each 4 (by decide) (by decide)) <|
          branchesReadBack_one (each 5 (by decide) (by decide))
  refine ⟨_, (all.group ?_ ?_).readsBack⟩
  -- A bare term is one piece only, so there is no common start to put in front of the choice.
  · cases short <;> rfl
  · cases short <;> exact (by decide : 7 < depthLimit)

end Terms

/-! ## Opening words -/

/-- What is read from one or more blanks. -/
def readBlanks : Nested := ⟨(Regex.oneOf (.spans ⟨Text.blankSpans⟩)).oneOrMore, 1⟩

section Words

variable {room : Nat} {o : Opened} {branches : List Nested}

theorem readsBack_blanks : ReadsBack groupName groupOf blanks room o o [readBlanks] :=
  atom_blank.oneOrMore rfl

/-- One of several phrases and blanks, or nothing. -/
theorem readsBack_opening {phrases : List String}
    (h : BranchesReadBack groupName groupOf (phrases.map fun p => spaced (Text.words p.toList)) room
      o o branches)
    (normal : (inChoice branches.reverse).expression = alternatives (branches.map (·.expression)))
    (solid : (ofParts [(inChoice branches.reverse).expression, readBlanks.expression]).isHollow =
      false)
    (shallow : (inChoice branches.reverse).depth ≤ 3) :
    ∃ x, ReadsBack groupName groupOf (opening phrases) (room + 2) o o [x] := by
  have limit : depthLimit = 250 := rfl
  have choice := h.group normal (by omega)
  have phrase := branchesReadBack_one (choice.readsBack.cat readsBack_blanks)
  have outer : (inSequence [readBlanks, enclose none (inChoice branches.reverse)]).depth + 2 <
      depthLimit := by
    have depth : (inSequence [readBlanks, enclose none (inChoice branches.reverse)]).depth =
        max 1 ((inChoice branches.reverse).depth + 1) + 1 := rfl
    omega
  exact ⟨_, (phrase.group rfl outer).optional solid⟩

/-- A keyword and blanks, or nothing. -/
theorem readsBack_keyword :
    ∃ x, ReadsBack groupName groupOf (opening (Keyword.all.map Keyword.word)) 2 o o [x] := by
  have words : (Keyword.all.map Keyword.word).map (fun p => spaced (Text.words p.toList)) =
      [.text "Given".toList, .text "When".toList, .text "Then".toList, .text "And".toList,
        .text "But".toList] := by
    decide
  have all : BranchesReadBack groupName groupOf _ 0 o o _ :=
    .cons (readsBack_text "Given".toList) <| .cons (readsBack_text "When".toList) <|
      .cons (readsBack_text "Then".toList) <| .cons (readsBack_text "And".toList) <|
        branchesReadBack_one (readsBack_text "But".toList)
  rw [← words] at all
  exact readsBack_opening all rfl rfl (by decide)

/-- A politeness phrase and blanks, or nothing. -/
theorem readsBack_politeness : ∃ x, ReadsBack groupName groupOf (opening politeness) 2 o o [x] := by
  have words : politeness.map (fun p => spaced (Text.words p.toList)) =
      [.text "the".toList, .text "I'm".toList,
        .cat (.text "I".toList) (.cat blanks (.text "am".toList)), .text "I".toList] := by
    decide
  have iAm : ReadsBack groupName groupOf _ 0 o o _ :=
    (readsBack_text "I".toList).cat (readsBack_blanks.cat (readsBack_text "am".toList))
  have all : BranchesReadBack groupName groupOf _ 0 o o _ :=
    .cons (readsBack_text "the".toList) <| .cons (readsBack_text "I'm".toList) <|
      .cons iAm <| branchesReadBack_one (readsBack_text "I".toList)
  rw [← words] at all
  exact readsBack_opening all rfl rfl (by decide)

end Words

/-! ## Whole templates -/

/-- The tokens of a template, of which the first placeholder has the given index. -/
theorem readsBack_body (tokens : List Token) (index : Nat) :
    ∃ items o, ReadsBack groupName groupOf (.sequence (body index tokens)) 3 (opened (6 * index)) o
      items := by
  induction tokens generalizing index with
  | nil => exact ⟨[], _, readsBack_empty⟩
  | cons token rest ih =>
    cases token with
    | slot position label domain =>
      obtain ⟨x, first⟩ := readsBack_term index _
      obtain ⟨items, o, others⟩ := ih (index + 1)
      exact ⟨_, o, first.cat others⟩
    | literal cs =>
      obtain ⟨items, o, others⟩ := ih index
      exact ⟨_, o, (readsBack_text cs).cat others⟩
    | strayOpen position =>
      obtain ⟨items, o, others⟩ := ih index
      exact ⟨_, o, (readsBack_text ['{']).cat others⟩
    | strayClose position =>
      obtain ⟨items, o, others⟩ := ih index
      exact ⟨_, o, (readsBack_text ['}']).cat others⟩

/-- What is read from the written expression of a template matches like the expression. -/
theorem read?_source (tokens : List Token) :
    ∃ r, Regex.read? (String.ofList ((matcherOf tokens).source groupName)) = some r ∧
      Alike groupOf (matcherOf tokens) r := by
  obtain ⟨items, o, others⟩ := readsBack_body tokens 0
  obtain ⟨x, keyword⟩ := readsBack_keyword (o := opened 0)
  obtain ⟨y, polite⟩ := readsBack_politeness (o := opened 0)
  have words := (keyword.cat polite).mono (by decide : 2 ≤ 3)
  have whole : ReadsBack groupName groupOf (matcherOf tokens) 3 (opened 0) o _ :=
    atom_start.readsBack.cat (words.cat (others.cat atom_stop.readsBack))
  exact whole.read? (by decide)

end PlainSteps.Template
