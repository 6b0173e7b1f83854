import Mathlib.Algebra.Group.Nat.Even
import Mathlib.Data.List.Infix
import PlainSteps.Proofs.Text.Pieces
import PlainSteps.Source.Basic

/-!
# The lines of a source

A source has a line for each of its raw lines that says something: that is not blank, not a comment
and not in a fenced block. The line is what stands before a comment that ends it.

* `FeatureSource.Speaks`, `FeatureSource.IsOutside`: the raw lines that say something, and where a
  fenced block is not open.
* `FeatureSource.IsSaid`: what a raw line says; `FeatureSource.isSaid_uncommented`.
* `FeatureSource.linesFrom_append`: raw lines are read one after another.
* `FeatureSource.mem_linesFrom_iff`: which lines there are.
* `FeatureSource.IsSilentBlock`: raw lines that can be put in without effect.
* `FeatureSource.lines_reading`: the lines of a source, of the texts of its lines, and of the source
  with more raw lines that say nothing.

Proof-only: no module that runs imports this one.
-/

namespace PlainSteps

/-! ## Texts before a mark -/

namespace Text

theorem prefix_before (mark cs : List Char) : before mark cs <+: cs := by
  induction cs with
  | nil => exact List.nil_prefix
  | cons c cs ih =>
    rw [before]
    split
    · exact List.nil_prefix
    · exact (List.prefix_cons_inj c).2 ih

/-- What follows is nothing, or the mark and more. -/
theorem exists_before_append (mark cs : List Char) :
    ∃ rest, cs = before mark cs ++ rest ∧ (rest = [] ∨ mark <+: rest) := by
  induction cs with
  | nil => exact ⟨[], rfl, .inl rfl⟩
  | cons c cs ih =>
    rw [before]
    split
    · next here => exact ⟨c :: cs, rfl, .inr (List.isPrefixOf_iff_prefix.1 here)⟩
    · obtain ⟨rest, whole, start⟩ := ih
      exact ⟨rest, congrArg (c :: ·) whole, start⟩

/-- The mark does not stand before its first occurrence. -/
theorem not_infix_before {mark : List Char} (ne : mark ≠ []) (cs : List Char) :
    ¬ mark <:+: before mark cs := by
  induction cs with
  | nil => exact fun h => ne (List.infix_nil.1 h)
  | cons c cs ih =>
    rw [before]
    split
    · exact fun h => ne (List.infix_nil.1 h)
    · next elsewhere =>
      intro h
      rcases List.infix_cons_iff.1 h with start | later
      · refine elsewhere (List.isPrefixOf_iff_prefix.2 (start.trans ?_))
        exact (List.prefix_cons_inj c).2 (prefix_before mark cs)
      · exact ih later

theorem before_eq_self {mark cs : List Char} (h : ¬ mark <:+: cs) : before mark cs = cs := by
  obtain ⟨rest, whole, rfl | start⟩ := exists_before_append mark cs
  · exact (List.append_nil _ ▸ whole).symm
  · have suffix_ : rest <:+ cs := ⟨_, whole.symm⟩
    exact absurd (start.isInfix.trans suffix_.isInfix) h

theorem prefix_trimEnd (cs : List Char) : trimEnd cs <+: cs := by
  rw [trimEnd, ← List.reverse_suffix, List.reverse_reverse]
  exact List.dropWhile_suffix isBlank

/-- From a text that starts with something solid, blanks are taken at its end only. -/
theorem trim_eq_trimEnd {cs : List Char} (solid : cs.head?.any isBlank = false) :
    trim cs = trimEnd cs := by
  cases cs with
  | nil => rfl
  | cons c cs => exact congrArg trimEnd (List.dropWhile_cons_of_neg (Bool.eq_false_iff.1 solid))

/-- What is taken from the end of a text is blank. -/
theorem exists_trimEnd_append (cs : List Char) :
    ∃ blanks, cs = trimEnd cs ++ blanks ∧ ∀ c ∈ blanks, isBlank c = true := by
  refine ⟨(cs.reverse.takeWhile isBlank).reverse, ?_, fun c mem => ?_⟩
  · rw [trimEnd, ← List.reverse_append, List.takeWhile_append_dropWhile, List.reverse_reverse]
  · exact List.all_eq_true.1 List.all_takeWhile c (List.mem_reverse.1 mem)

end Text

namespace FeatureSource

/-! ## Raw lines -/

/-- A raw line that opens or closes a fenced block. -/
def IsFence (raw : List Char) : Prop := "\x60\x60\x60".toList <+: Text.trim raw

/-- A raw line that is a comment. -/
def IsComment (raw : List Char) : Prop :=
  "#".toList <+: Text.trim raw ∨ ";;".toList <+: Text.trim raw

instance : DecidablePred IsFence := fun raw =>
  inferInstanceAs (Decidable (_ <+: Text.trim raw))

instance : DecidablePred IsComment := fun raw =>
  inferInstanceAs (Decidable (_ <+: Text.trim raw ∨ _ <+: Text.trim raw))

/-- A raw line that says something, unless it stands in a fenced block. -/
def Speaks (raw : List Char) : Prop := ¬ IsFence raw ∧ Text.trim raw ≠ [] ∧ ¬ IsComment raw

instance : DecidablePred Speaks := fun raw =>
  inferInstanceAs (Decidable (¬ IsFence raw ∧ _ ≠ _ ∧ ¬ IsComment raw))

/-- Raw lines after which no fenced block is open. -/
def IsOutside (before : List (List Char)) : Prop := Even (before.countP (IsFence ·))

instance : DecidablePred IsOutside := fun before =>
  inferInstanceAs (Decidable (Even (before.countP _)))

/-- What a raw line says: the text up to the first comment mark in it, without outer blanks. -/
structure IsSaid (raw text : List Char) : Prop where
  starts : text <+: Text.trim raw
  ne_nil : text ≠ []
  trimmed : Text.IsTrimmed text
  plain : ¬ " ;;".toList <:+: text
  rest : ∃ blanks comment, Text.trim raw = text ++ blanks ++ comment ∧
    (∀ c ∈ blanks, Text.isBlank c = true) ∧ (comment = [] ∨ " ;;".toList <+: comment)

theorem isFence_iff {raw : List Char} : fence.isPrefixOf (Text.trim raw) = true ↔ IsFence raw :=
  List.isPrefixOf_iff_prefix

theorem isSilent_iff {raw : List Char} :
    isSilent (Text.trim raw) = true ↔ Text.trim raw = [] ∨ IsComment raw := by
  have hash : (Text.trim raw).head? = some '#' ↔ "#".toList <+: Text.trim raw := by
    cases Text.trim raw <;> simp [eq_comm]
  rw [isSilent, Bool.or_eq_true, Bool.or_eq_true, List.isEmpty_iff, beq_iff_eq, hash, or_assoc,
    List.isPrefixOf_iff_prefix]
  rfl

/-- What a raw line says is what is left of it without the comment that ends it. -/
theorem isSaid_uncommented {raw : List Char} (h : Text.trim raw ≠ []) :
    IsSaid raw (uncommented (Text.trim raw)) := by
  obtain ⟨comment, whole, start⟩ := Text.exists_before_append trailingMark (Text.trim raw)
  obtain ⟨blanks, cut, blank⟩ :=
    Text.exists_trimEnd_append (Text.before trailingMark (Text.trim raw))
  obtain ⟨c, more, found⟩ := List.exists_cons_of_ne_nil h
  have solid : Text.isBlank c = false := by
    have first := (Text.isTrimmed_trim raw).1
    rwa [found] at first
  -- the mark starts with a blank, so the first character stands before it
  have other : ¬ trailingMark.isPrefixOf (c :: more) = true := fun here => by
    obtain ⟨rest, same⟩ := List.isPrefixOf_iff_prefix.1 here
    cases same
    exact absurd solid (by decide)
  have starts : Text.before trailingMark (Text.trim raw) = c :: Text.before trailingMark more := by
    rw [found, Text.before, if_neg other]
  constructor
  · exact (Text.prefix_trimEnd _).trans (Text.prefix_before _ _)
  · intro empty
    rw [uncommented] at empty
    rw [empty, starts, List.nil_append] at cut
    have own := blank c (cut ▸ List.mem_cons_self)
    rw [solid] at own
    cases own
  · have first : (Text.before trailingMark (Text.trim raw)).head?.any Text.isBlank = false := by
      rw [starts]
      exact solid
    rw [uncommented, ← Text.trim_eq_trimEnd first]
    exact Text.isTrimmed_trim _
  · exact fun inside =>
      Text.not_infix_before (by decide) _ (inside.trans (Text.prefix_trimEnd _).isInfix)
  · refine ⟨blanks, comment, ?_, blank, start⟩
    rw [uncommented, ← cut]
    exact whole

/-! ## Raw lines one after another -/

/-- Whether a fenced block is open after raw lines. -/
def fencedAfter : Bool → List (List Char) → Bool
  | fenced, [] => fenced
  | fenced, raw :: rest => fencedAfter (fenced ^^ decide (IsFence raw)) rest

/-- An even number of fences leaves a block open if one is open before them, and an odd number if
none is. -/
theorem fencedAfter_eq_false_iff (fenced : Bool) (raws : List (List Char)) :
    fencedAfter fenced raws = false ↔ (fenced = false ↔ IsOutside raws) := by
  induction raws generalizing fenced with
  | nil => simp [fencedAfter, IsOutside]
  | cons raw rest ih =>
    rw [fencedAfter, ih, IsOutside, IsOutside, List.countP_cons]
    by_cases fence : IsFence raw
    · cases fenced <;> simp [fence, Nat.even_add_one]
    · cases fenced <;> simp [fence]

/-- The line that one raw line gives, if it gives one. -/
def lineOf (path : String) (number : Nat) (fenced : Bool) (raw : List Char) : List SourcedLine :=
  if fenced = false ∧ Speaks raw then
    [⟨⟨path, number⟩, String.ofList (uncommented (Text.trim raw))⟩]
  else []

theorem linesFrom_cons (path : String) (number : Nat) (fenced : Bool) (raw : List Char)
    (rest : List (List Char)) :
    linesFrom path number fenced (raw :: rest) = lineOf path number fenced raw ++
      linesFrom path (number + 1) (fenced ^^ decide (IsFence raw)) rest := by
  simp only [linesFrom, lineOf, Speaks, isFence_iff, Bool.or_eq_true, isSilent_iff]
  by_cases fence : IsFence raw
  · simp [fence]
  · cases fenced with
    | true => simp [fence]
    | false =>
      by_cases silent : Text.trim raw = [] ∨ IsComment raw
      · have quiet : ¬ (Text.trim raw ≠ [] ∧ ¬ IsComment raw) := by tauto
        simp [fence, silent, quiet]
      · have spoken : Text.trim raw ≠ [] ∧ ¬ IsComment raw := by tauto
        simp [fence, spoken]

theorem linesFrom_append (path : String) (number : Nat) (fenced : Bool)
    (before after : List (List Char)) :
    linesFrom path number fenced (before ++ after) = linesFrom path number fenced before ++
      linesFrom path (number + before.length) (fencedAfter fenced before) after := by
  induction before generalizing number fenced with
  | nil => rfl
  | cons raw rest ih =>
    rw [List.cons_append, linesFrom_cons, linesFrom_cons, ih, List.append_assoc, fencedAfter,
      List.length_cons, Nat.add_right_comm, Nat.add_assoc]

/-! ## Which lines there are -/

/-- A line that a source with these raw lines has. -/
inductive IsLineOf (path : String) : List (List Char) → SourcedLine → Prop
  | intro {before : List (List Char)} {raw text : List Char} (after : List (List Char))
    (outside : IsOutside before) (speaks : Speaks raw) (said : IsSaid raw text) :
    IsLineOf path (before ++ raw :: after) ⟨⟨path, before.length + 1⟩, String.ofList text⟩

/-- The lines of a source with these raw lines: they are in order, each is what a raw line says, and
none is left out. -/
structure IsReading (path : String) (raws : List (List Char)) (lines : List SourcedLine) :
    Prop where
  order : lines.Pairwise (·.source.line < ·.source.line)
  each : ∀ line ∈ lines, IsLineOf path raws line
  all {before : List (List Char)} {raw : List Char} {after : List (List Char)}
    (split : raws = before ++ raw :: after) (outside : IsOutside before) (speaks : Speaks raw) :
    ∃ line ∈ lines, line.source.line = before.length + 1

theorem mem_lineOf {path : String} {number : Nat} {fenced : Bool} {raw : List Char}
    {line : SourcedLine} : line ∈ lineOf path number fenced raw ↔ fenced = false ∧ Speaks raw ∧
      line = ⟨⟨path, number⟩, String.ofList (uncommented (Text.trim raw))⟩ := by
  rw [lineOf]
  split
  · next spoken => simp [spoken]
  · next silent =>
    refine iff_of_false List.not_mem_nil fun ⟨outside, speaks, _⟩ => silent ⟨outside, speaks⟩

/-- There is a line for each raw line that says something and stands outside of fenced blocks. -/
theorem mem_linesFrom_iff {path : String} {number : Nat} {fenced : Bool} {raws : List (List Char)}
    {line : SourcedLine} : line ∈ linesFrom path number fenced raws ↔
      ∃ before raw after, raws = before ++ raw :: after ∧ fencedAfter fenced before = false ∧
        Speaks raw ∧ line = ⟨⟨path, number + before.length⟩,
          String.ofList (uncommented (Text.trim raw))⟩ := by
  constructor
  · intro mem
    induction raws generalizing number fenced with
    | nil => exact absurd mem List.not_mem_nil
    | cons raw rest ih =>
      rw [linesFrom_cons, List.mem_append] at mem
      rcases mem with own | later
      · obtain ⟨outside, speaks, rfl⟩ := mem_lineOf.1 own
        exact ⟨[], raw, rest, rfl, outside, speaks, rfl⟩
      · obtain ⟨before, raw', after, rfl, outside, speaks, rfl⟩ := ih later
        refine ⟨raw :: before, raw', after, rfl, outside, speaks, ?_⟩
        rw [List.length_cons, Nat.add_assoc, Nat.add_comm 1]
  · rintro ⟨before, raw, after, rfl, outside, speaks, rfl⟩
    rw [linesFrom_append, linesFrom_cons]
    refine List.mem_append_right _ (List.mem_append_left _ (mem_lineOf.2 ⟨outside, speaks, rfl⟩))

theorem number_of_mem_linesFrom {path : String} {number : Nat} {fenced : Bool}
    {raws : List (List Char)} {line : SourcedLine} (h : line ∈ linesFrom path number fenced raws) :
    number ≤ line.source.line ∧ line.source.line < number + raws.length := by
  obtain ⟨before, raw, after, rfl, -, -, rfl⟩ := mem_linesFrom_iff.1 h
  simp only [List.length_append, List.length_cons]
  omega

/-- The numbers of lines increase. -/
theorem pairwise_linesFrom (path : String) (number : Nat) (fenced : Bool)
    (raws : List (List Char)) :
    (linesFrom path number fenced raws).Pairwise (·.source.line < ·.source.line) := by
  induction raws generalizing number fenced with
  | nil => exact .nil
  | cons raw rest ih =>
    rw [linesFrom_cons, List.pairwise_append]
    refine ⟨?_, ih _ _, fun line own later mem => ?_⟩
    · rw [lineOf]
      split
      · exact List.pairwise_singleton _ _
      · exact .nil
    · obtain ⟨-, -, rfl⟩ := mem_lineOf.1 own
      exact (number_of_mem_linesFrom mem).1

theorem isReading_lines (s : FeatureSource) :
    IsReading s.path (Text.lines s.content.toList) s.lines where
  order := pairwise_linesFrom s.path 1 false _
  each line mem := by
    obtain ⟨before, raw, after, split, outside, speaks, rfl⟩ := mem_linesFrom_iff.1 mem
    rw [split, Nat.add_comm 1]
    exact .intro after (((fencedAfter_eq_false_iff _ _).1 outside).1 rfl) speaks
      (isSaid_uncommented speaks.2.1)
  all {before raw after} split outside speaks := by
    refine ⟨_, mem_linesFrom_iff.2 ⟨before, raw, after, split, ?_, speaks, rfl⟩, Nat.add_comm 1 _⟩
    exact (fencedAfter_eq_false_iff _ _).2 (iff_of_true rfl outside)

/-! ## The texts of lines -/

/-- A text that says itself is read as it is. -/
theorem linesFrom_texts {texts : List String}
    (plain : ∀ text ∈ texts, Speaks text.toList ∧ uncommented (Text.trim text.toList) = text.toList)
    (path : String) (number : Nat) :
    linesFrom path number false (texts.map String.toList) =
      (texts.zipIdx number).map fun (text, n) => ⟨⟨path, n⟩, text⟩ := by
  induction texts generalizing number with
  | nil => rfl
  | cons text rest ih =>
    obtain ⟨⟨speaks, own⟩, others⟩ := List.forall_mem_cons.1 plain
    have outside : (false ^^ decide (IsFence text.toList)) = false := by simp [speaks.1]
    rw [List.map_cons, linesFrom_cons, lineOf, if_pos ⟨rfl, speaks⟩, outside, ih others, own,
      String.ofList_toList]
    rfl

/-- What a raw line says is said by a raw line that consists of it. -/
theorem IsSaid.again {raw text : List Char} (said : IsSaid raw text) (speaks : Speaks raw) :
    Speaks text ∧ uncommented (Text.trim text) = text := by
  have own : Text.trim text = text := said.trimmed.trim_eq
  have heads {mark : List Char} (h : mark <+: Text.trim text) : mark <+: Text.trim raw := by
    rw [own] at h
    exact h.trans said.starts
  refine ⟨⟨fun fence => speaks.1 (heads fence), ?_,
    fun comment => speaks.2.2 (comment.imp heads heads)⟩, ?_⟩
  · rw [own]
    exact said.ne_nil
  · have whole : Text.before trailingMark text = text := Text.before_eq_self said.plain
    rw [own, uncommented, whole, ← Text.trim_eq_trimEnd said.trimmed.1, own]

/-- The texts of lines, one on each line, are read again with the numbers from one on. -/
theorem lines_texts (s : FeatureSource) (path base : String) :
    lines ⟨path, "\n".intercalate (s.lines.map (·.text)), base⟩ =
      ((s.lines.map (·.text)).zipIdx 1).map fun (text, n) => ⟨⟨path, n⟩, text⟩ := by
  have each : ∀ text ∈ s.lines.map (·.text), '\n' ∉ text.toList ∧ Speaks text.toList ∧
      uncommented (Text.trim text.toList) = text.toList := by
    intro text mem
    obtain ⟨line, hline, rfl⟩ := List.mem_map.1 mem
    obtain ⟨before, raw, after, split, -, speaks, rfl⟩ := mem_linesFrom_iff.1 hline
    have said := isSaid_uncommented speaks.2.1
    rw [String.toList_ofList]
    refine ⟨fun inside => ?_, said.again speaks⟩
    have piece : raw ∈ s.content.toList.splitOn '\n' := by
      rw [← Text.lines, split]
      simp
    exact Text.not_mem_of_mem_splitOn piece (Text.mem_of_mem_trim (said.starts.subset inside))
  generalize s.lines.map (·.text) = texts at each
  cases texts with
  | nil => rfl
  | cons first rest =>
    have raws : Text.lines ("\n".intercalate (first :: rest)).toList =
        (first :: rest).map String.toList := by
      rw [Text.lines, String.toList_intercalate]
      refine List.splitOn_intercalate '\n' (fun raw mem => ?_) (by simp)
      obtain ⟨text, htext, rfl⟩ := List.mem_map.1 mem
      exact (each text htext).1
    show linesFrom path 1 false (Text.lines ("\n".intercalate (first :: rest)).toList) = _
    rw [raws]
    exact linesFrom_texts (fun text mem => (each text mem).2) path 1

/-! ## Raw lines that say nothing -/

/-- Raw lines that can be put in without effect: a blank one, a comment, or a fenced block that is
closed. -/
inductive IsSilentBlock : List (List Char) → Prop
  | blank {raw : List Char} (h : Text.trim raw = []) : IsSilentBlock [raw]
  | comment {raw : List Char} (h : IsComment raw) : IsSilentBlock [raw]
  | fenced {first last : List Char} {inner : List (List Char)} (opens : IsFence first)
    (plain : ∀ raw ∈ inner, ¬ IsFence raw) (closes : IsFence last) :
    IsSilentBlock (first :: inner ++ [last])

/-- A raw line that says nothing and is no fence gives no line. -/
theorem linesFrom_silent {raw : List Char} (fence : ¬ IsFence raw) {fenced : Bool}
    (silent : fenced = true ∨ ¬ Speaks raw) (path : String) (number : Nat)
    (rest : List (List Char)) :
    linesFrom path number fenced (raw :: rest) = linesFrom path (number + 1) fenced rest := by
  have none_ : ¬ (fenced = false ∧ Speaks raw) := by
    rintro ⟨rfl, speaks⟩
    exact silent.elim (fun h => nomatch h) fun h => h speaks
  rw [linesFrom_cons, lineOf, if_neg none_, decide_eq_false fence, Bool.xor_false]
  rfl

/-- A fence gives no line, and opens or closes a block. -/
theorem linesFrom_fence {raw : List Char} (fence : IsFence raw) (path : String) (number : Nat)
    (fenced : Bool) (rest : List (List Char)) :
    linesFrom path number fenced (raw :: rest) = linesFrom path (number + 1) (!fenced) rest := by
  have none_ : ¬ (fenced = false ∧ Speaks raw) := fun h => h.2.1 fence
  rw [linesFrom_cons, lineOf, if_neg none_, decide_eq_true fence, Bool.xor_true]
  rfl

theorem IsComment.not_isFence {raw : List Char} (h : IsComment raw) : ¬ IsFence raw := by
  rintro ⟨more, found⟩
  rcases h with ⟨rest, same⟩ | ⟨rest, same⟩ <;> cases found.trans same.symm

/-- Such raw lines give no lines and leave no block open. -/
theorem IsSilentBlock.linesFrom_append {block : List (List Char)} (h : IsSilentBlock block)
    (path : String) (number : Nat) (rest : List (List Char)) :
    linesFrom path number false (block ++ rest) =
      linesFrom path (number + block.length) false rest := by
  cases h with
  | @blank raw empty =>
    have fence : ¬ IsFence raw := fun h => by
      rw [IsFence, empty] at h
      exact absurd h (by decide)
    exact linesFrom_silent fence (.inr fun speaks => speaks.2.1 empty) path number rest
  | @comment raw comment =>
    exact linesFrom_silent comment.not_isFence (.inr fun speaks => speaks.2.2 comment) path number
      rest
  | @fenced first last inner opens plain closes =>
    have within (number : Nat) : linesFrom path number true (inner ++ last :: rest) =
        linesFrom path (number + inner.length + 1) false rest := by
      induction inner generalizing number with
      | nil => exact linesFrom_fence closes path number true rest
      | cons raw inner ih =>
        obtain ⟨own, others⟩ := List.forall_mem_cons.1 plain
        rw [List.cons_append, linesFrom_silent own (.inl rfl), ih others, List.length_cons]
        congr 1
        omega
    rw [List.append_assoc, List.cons_append, linesFrom_fence opens, List.singleton_append,
      Bool.not_false, within, List.length_append, List.length_cons, List.length_singleton]
    congr 1
    omega

/-- A line whose number is greater by some, if it is beyond a bound. -/
def movedDown (bound count : Nat) (line : SourcedLine) : SourcedLine :=
  if line.source.line ≤ bound then line
  else { line with source.line := line.source.line + count }

/-- Raw lines that start further down give the same lines further down. -/
theorem linesFrom_add (path : String) {number bound : Nat} (beyond : bound < number) (count : Nat)
    (fenced : Bool) (raws : List (List Char)) :
    linesFrom path (number + count) fenced raws =
      (linesFrom path number fenced raws).map (movedDown bound count) := by
  induction raws generalizing number fenced with
  | nil => rfl
  | cons raw rest ih =>
    rw [linesFrom_cons, linesFrom_cons, List.map_append, Nat.add_right_comm,
      ih (Nat.lt_succ_of_lt beyond)]
    refine congrArg (· ++ _) ?_
    rw [lineOf, lineOf]
    split
    · simp [movedDown, Nat.not_le.2 beyond]
    · rfl

/-- Raw lines that say nothing can be put in where no block is open: the lines after them have
greater numbers, and nothing else changes. -/
theorem lines_insert {s t : FeatureSource} {before block after : List (List Char)}
    (path : t.path = s.path) (silent : IsSilentBlock block) (outside : IsOutside before)
    (split : Text.lines s.content.toList = before ++ after)
    (more : Text.lines t.content.toList = before ++ block ++ after) :
    t.lines = s.lines.map (movedDown before.length block.length) := by
  have closed : fencedAfter false before = false :=
    (fencedAfter_eq_false_iff _ _).2 (iff_of_true rfl outside)
  have earlier : (linesFrom s.path 1 false before).map (movedDown before.length block.length) =
      linesFrom s.path 1 false before := by
    refine (List.map_congr_left fun line mem => if_pos ?_).trans (List.map_id' _)
    have bound := (number_of_mem_linesFrom mem).2
    omega
  have beyond : before.length < 1 + before.length := Nat.lt_add_of_pos_left Nat.one_pos
  have later := linesFrom_add s.path beyond block.length false after
  rw [lines, lines, path, split, more, List.append_assoc,
    linesFrom_append s.path 1 false before (block ++ after),
    linesFrom_append s.path 1 false before after, closed, silent.linesFrom_append, List.map_append,
    earlier, ← later]

/-- The lines of a source are what its raw lines say that are no comments and stand outside of
fenced blocks, in order. Their texts, one on each line, are read again with the numbers from one on.
Where a blank line, a comment or a closed fenced block is put in outside of the others, the lines
after it have greater numbers, and nothing else changes. -/
theorem lines_reading (s : FeatureSource) :
    IsReading s.path (Text.lines s.content.toList) s.lines ∧
    (∀ path base, lines ⟨path, "\n".intercalate (s.lines.map (·.text)), base⟩ =
      ((s.lines.map (·.text)).zipIdx 1).map fun (text, n) => ⟨⟨path, n⟩, text⟩) ∧
    ∀ (t : FeatureSource) (before block after : List (List Char)), t.path = s.path →
      IsSilentBlock block → IsOutside before →
      Text.lines s.content.toList = before ++ after →
      Text.lines t.content.toList = before ++ block ++ after →
      t.lines = s.lines.map (movedDown before.length block.length) :=
  ⟨s.isReading_lines, s.lines_texts, fun _ _ _ _ path silent outside split more =>
    lines_insert path silent outside split more⟩

/-- A source with a fenced block and comments, one of which has a mark in it. -/
def stroll : FeatureSource :=
  ⟨"walk.feature",
    "\tgo out  ;; a ;; b\r\n\x60\x60\x60sh\n# no\n\x60\x60\x60\n\nlook\rup\n;; end\n", ""⟩

/-- The same with another fenced block after the first line. -/
def strollWithBlock : FeatureSource :=
  ⟨"walk.feature", "\tgo out  ;; a ;; b\r\n \x60\x60\x60\nsing\n\x60\x60\x60\x60\r\n" ++
    "\x60\x60\x60sh\n# no\n\x60\x60\x60\n\nlook\rup\n;; end\n", ""⟩

/-- The second line is three further down. -/
theorem lines_strollWithBlock :
    stroll.lines = [⟨⟨"walk.feature", 1⟩, "go out"⟩, ⟨⟨"walk.feature", 6⟩, "look\rup"⟩] ∧
    strollWithBlock.lines =
      [⟨⟨"walk.feature", 1⟩, "go out"⟩, ⟨⟨"walk.feature", 9⟩, "look\rup"⟩] := by
  have read : stroll.lines =
      [⟨⟨"walk.feature", 1⟩, "go out"⟩, ⟨⟨"walk.feature", 6⟩, "look\rup"⟩] := by decide +kernel
  have plain : ∀ raw ∈ ["sing".toList], ¬ IsFence raw := by decide +kernel
  have block : IsSilentBlock
      [" \x60\x60\x60".toList, "sing".toList, "\x60\x60\x60\x60\r".toList] :=
    .fenced (by decide +kernel) plain (by decide +kernel)
  have outside : IsOutside ["\tgo out  ;; a ;; b\r".toList] := by decide +kernel
  obtain ⟨-, -, inserted⟩ := stroll.lines_reading
  have moved := inserted strollWithBlock _ _ (Text.lines stroll.content.toList).tail rfl block
    outside (by decide +kernel) (by decide +kernel)
  rw [read] at moved
  exact ⟨read, moved⟩

end FeatureSource

end PlainSteps
