import PlainSteps.Regex.Reader

/-!
# Reading what is written

The reader takes the written form of an expression in pieces, one after the other: characters,
classes, groups, each perhaps with the mark of a repetition.

* `Regex.Reads`: a text is read as given expressions, whatever follows it.
* `Regex.ReadsBranches`: a text is read as given branches, where a closing parenthesis follows.
* `Reads.append`, `Reads.marked`, `Reads.group`, `Reads.named`: pieces that consist of others.
* `reads_text`, `reads_blank`, `reads_notNewline`, `reads_place`, `reads_without`: the other pieces.
* `read?_of_reads`: a whole text.

Proof-only: no module that runs imports this one.
-/

namespace PlainSteps.Regex

/-! ## Pieces -/

/-- The groups that have opened: their number and their names. -/
structure Opened where
  groups : Nat
  names : List String

/-- What remains to be read where some groups have opened. -/
def Opened.before (o : Opened) (text : List Char) : Remaining := ⟨text, o.groups, o.names⟩

/-- Whether no mark follows that makes a repetition lazy. -/
def Unmarked (rest : List Char) : Prop := rest.head? ≠ some '?'

/-- Whether a text is read as some expressions, where `room` levels may be open and what follows it
is as `next` says. -/
def Reads (room : Nat) (next : List Char → Prop) (source : List Char) (o o' : Opened)
    (items : List Nested) : Prop :=
  ∀ fuel levels before others rest, room ≤ levels → next rest → (source ++ rest).length < fuel →
    ∃ fuel', rest.length < fuel' ∧
      readBranches? fuel levels before others (o.before (source ++ rest)) =
        readBranches? fuel' levels before (items.reverse ++ others) (o'.before rest)

/-- Whether a text before a closing parenthesis is read as some branches. -/
def ReadsBranches (room : Nat) (source : List Char) (o o' : Opened) (branches : List Nested) :
    Prop :=
  ∀ fuel levels before rest, room ≤ levels → (source ++ ')' :: rest).length < fuel →
    readBranches? fuel levels before [] (o.before (source ++ ')' :: rest)) =
      some (inChoice (branches.reverse ++ before), o'.before (')' :: rest))

section Rules

variable {room : Nat} {next later : List Char → Prop} {source more : List Char}
  {o o₁ o₂ : Opened} {items others branches : List Nested} {x : Nested}

theorem Reads.mono {room' : Nat} (h : Reads room next source o o₁ items) (le : room ≤ room')
    (imp : ∀ rest, later rest → next rest) : Reads room' later source o o₁ items :=
  fun fuel levels before others rest hl hn =>
    h fuel levels before others rest (by omega) (imp rest hn)

theorem reads_nil : Reads room next [] o o [] :=
  fun fuel _ _ _ _ _ _ hf => ⟨fuel, hf, rfl⟩

theorem Reads.append (h : Reads room next source o o₁ items)
    (h' : Reads room later more o₁ o₂ others) (follows : ∀ rest, later rest → next (more ++ rest)) :
    Reads room later (source ++ more) o o₂ (items ++ others) := by
  intro fuel levels before below rest hl hn hf
  rw [List.append_assoc] at hf ⊢
  obtain ⟨mid, hmid, first⟩ := h fuel levels before below (more ++ rest) hl (follows rest hn) hf
  obtain ⟨last, hlast, second⟩ := h' mid levels before (items.reverse ++ below) rest hl hn hmid
  refine ⟨last, hlast, ?_⟩
  rw [first, second, List.reverse_append, List.append_assoc]

/-- A text that is read in one step. -/
theorem reads_of_step (nonempty : source ≠ [])
    (step : ∀ fuel levels before others rest, room ≤ levels →
      readBranches? (fuel + 1) levels before others (o.before (source ++ rest)) =
        readBranches? fuel levels before (x :: others) (o₁.before rest)) :
    Reads room next source o o₁ [x] := by
  intro fuel levels before others rest hl _ hf
  have pos := List.length_pos_iff.2 nonempty
  rw [List.length_append] at hf
  obtain ⟨fuel, rfl⟩ : ∃ n, fuel = n + 1 := ⟨fuel - 1, by omega⟩
  exact ⟨fuel, by omega, step fuel levels before others rest hl⟩

end Rules

/-! ## Characters -/

/-- A character that opens nothing and marks no repetition is read on its own. -/
theorem readBranches?_atom {fuel levels : Nat} {before others : List Nested} {o : Opened} {c : Char}
    {cs rest : List Char} {x : Nested} (plain : c ∉ [')', '|', '(', '['])
    (mark : startsRepeat c = false) (read : readAtom? c cs = some (x, rest)) :
    readBranches? (fuel + 1) levels before others (o.before (c :: cs)) =
      readBranches? fuel levels before (x :: others) (o.before rest) := by
  simp only [List.mem_cons, not_or, List.not_mem_nil, not_false_eq_true, and_true] at plain
  obtain ⟨close, bar, opens, bracket⟩ := plain
  rw [Opened.before, readBranches?]
  · simp only [mark, read]
    rfl

/-- Anything may follow. -/
def Anything (_ : List Char) : Prop := True

theorem reads_atom {room : Nat} {o : Opened} {c : Char} {cs : List Char} {x : Nested}
    (plain : c ∉ [')', '|', '(', '[']) (mark : startsRepeat c = false)
    (read : ∀ rest, readAtom? c (cs ++ rest) = some (x, rest)) :
    Reads room Anything (c :: cs) o o [x] :=
  reads_of_step (List.cons_ne_nil c cs) fun _ _ _ _ rest _ =>
    readBranches?_atom plain mark (read rest)

theorem readEscape?_reserved {c : Char} (h : c ∈ reserved) (rest : List Char) :
    readEscape? (c :: rest) = some (.char c, rest) := by
  have listed : reserved = ['\\', '.', '+', '*', '?', '(', ')', '|', '[', ']', '\x7b', '\x7d', '^',
    '$', '#', '&', '-', '~'] := by decide
  rw [listed] at h
  simp only [List.mem_cons, List.not_mem_nil, or_false] at h
  rcases h with rfl | rfl | rfl | rfl | rfl | rfl | rfl | rfl | rfl | rfl | rfl | rfl | rfl | rfl |
    rfl | rfl | rfl | rfl <;> rfl

theorem readAtom?_plain {c : Char} (h : c ∉ reserved) (rest : List Char) :
    readAtom? c rest = some (⟨.text [c], 0⟩, rest) := by
  have ne (d : Char) (hd : d ∈ reserved) : c ≠ d := fun eq => h (eq ▸ hd)
  rw [readAtom?]
  · exact ne '.' (by decide)
  · exact ne '^' (by decide)
  · exact ne '$' (by decide)
  · exact ne '\\' (by decide)

theorem mem_reserved_of_startsRepeat {c : Char} (h : startsRepeat c = true) : c ∈ reserved := by
  simp only [startsRepeat, Bool.or_eq_true, beq_iff_eq] at h
  rcases h with ((rfl | rfl) | rfl) | rfl <;> decide

/-- A character is read as that character. -/
theorem reads_escapeChar {room : Nat} {o : Opened} (c : Char) :
    Reads room Anything (escapeChar c) o o [⟨.text [c], 0⟩] := by
  rw [escapeChar]
  split
  · next h =>
    refine reads_atom (by decide) (by decide) fun rest => ?_
    exact congrArg (Option.map _) (readEscape?_reserved h rest)
  · next h =>
    have plain : c ∉ [')', '|', '(', '['] := by
      have opening : [')', '|', '(', '['] ⊆ reserved := by decide
      exact fun hc => h (opening hc)
    have mark : startsRepeat c = false :=
      Bool.eq_false_iff.2 fun hc => h (mem_reserved_of_startsRepeat hc)
    exact reads_atom plain mark (readAtom?_plain h)

/-- A text is read character by character. -/
theorem reads_text {room : Nat} {o : Opened} (cs : List Char) :
    Reads room Anything (escape cs) o o (cs.map fun c => ⟨.text [c], 0⟩) := by
  induction cs with
  | nil => exact reads_nil
  | cons c cs ih => exact (reads_escapeChar c).append ih fun _ _ => trivial

theorem reads_start {room : Nat} {o : Opened} :
    Reads room Anything ['^'] o o [⟨.place .start, 0⟩] :=
  reads_atom (by decide) (by decide) fun _ => rfl

theorem reads_stop {room : Nat} {o : Opened} :
    Reads room Anything ['$'] o o [⟨.place .stop, 0⟩] :=
  reads_atom (by decide) (by decide) fun _ => rfl

/-! ## Sets -/

theorem reads_notNewline {room : Nat} {o : Opened} :
    Reads room Anything ['.'] o o [⟨.oneOf (.spans (CharSet.toSpans .notNewline)), 0⟩] :=
  reads_atom (by decide) (by decide) fun _ => rfl

theorem reads_blank {room : Nat} {o : Opened} :
    Reads room Anything "\\s".toList o o [⟨.oneOf (.spans ⟨Text.blankSpans⟩), 0⟩] :=
  reads_atom (by decide) (by decide) fun _ => rfl

theorem readItem?_escapeChar (c : Char) (rest : List Char) :
    readItem? (escapeChar c ++ ']' :: rest) = some (.single c.toNat, ']' :: rest) := by
  rw [escapeChar]
  split
  · next h =>
    rw [List.cons_append, List.cons_append, List.nil_append, readItem?, readEscape?_reserved h]
    rfl
  · next h =>
    have plain : c ≠ '\\' := fun eq => h (eq ▸ by decide)
    rw [List.cons_append, List.nil_append, readItem?]
    · rfl
    · exact plain

theorem readItems?_item {fuel room : Nat} {items : ClassItems} {c : Char} {cs rest : List Char}
    {set : Spans} (plain : c ∉ [']', '[', '&', '-', '~'])
    (read : readItem? (c :: cs) = some (set, rest)) :
    readItems? (fuel + 1) room none items (c :: cs) =
      readItems? fuel room none (items.push ⟨set, 0⟩) rest := by
  simp only [List.mem_cons, not_or, List.not_mem_nil, not_false_eq_true, and_true] at plain
  obtain ⟨close, bracket, both, hyphen, tilde⟩ := plain
  have noOperator : readOperator? (c :: cs) = none := by
    rw [readOperator?]
    all_goals
      intros
      simp_all
  rw [readItems?]
  · simp only [noOperator, read]
    rfl
  · exact List.cons_ne_nil c cs
  · exact fun _ eq => close (List.cons.inj eq).1
  · exact fun _ eq => bracket (List.cons.inj eq).1

theorem readClass?_negated {fuel room : Nat} {c : Char} {cs : List Char}
    (plain : c ∉ [']', '[', '&', '-', '~']) :
    readClass? (fuel + 1) (room + 1) ('^' :: c :: cs) =
      (readItems? fuel room none {} (c :: cs)).map fun (inner, rest) =>
        (⟨negate inner.set, inner.depth + 1⟩, rest) := by
  simp only [List.mem_cons, not_or, List.not_mem_nil, not_false_eq_true, and_true] at plain
  obtain ⟨close, _, _, hyphen, _⟩ := plain
  have noHyphen : (c == '-') = false := beq_eq_false_iff_ne.2 hyphen
  rw [readClass?]
  simp only [List.head?_cons, beq_self_eq_true, if_true, List.drop_succ_cons, List.drop_zero,
    List.takeWhile_cons, noHyphen, List.dropWhile_cons, Bool.false_eq_true, if_false,
    List.foldl_nil]
  split
  · next eq => exact (close (List.cons.inj eq).1).elim
  · cases readItems? fuel room none {} (c :: cs) <;> rfl

/-- The first character of an escaped one opens nothing in a class. -/
theorem escapeChar_cons (c : Char) :
    ∃ d ds, escapeChar c = d :: ds ∧ d ∉ [']', '[', '&', '-', '~'] := by
  rw [escapeChar]
  split
  · exact ⟨'\\', [c], rfl, by decide⟩
  · next h =>
    have opening : [']', '[', '&', '-', '~'] ⊆ reserved := by decide
    exact ⟨c, [], rfl, fun hc => h (opening hc)⟩

/-- The class of the characters other than one is read as the negated class of that one. -/
theorem readClass?_without (c : Char) (fuel room : Nat) (rest : List Char) :
    readClass? (fuel + 3) (room + 1) ('^' :: (escapeChar c ++ ']' :: rest)) =
      some (⟨negate (.single c.toNat), 1⟩, rest) := by
  have item := readItem?_escapeChar c rest
  obtain ⟨d, ds, eq, plain⟩ := escapeChar_cons c
  rw [eq, List.cons_append] at item ⊢
  rw [readClass?_negated plain, readItems?_item plain item, readItems?]
  have one : (ClassItems.push {} ⟨.single c.toNat, 0⟩).toSet = ⟨.single c.toNat, 0⟩ := by
    simp [ClassItems.push, ClassItems.toSet, Spans.single, Spans.ofList, Spans.join]
  rw [one]
  rfl

/-- The class of the characters other than one. -/
theorem reads_without {room : Nat} {o : Opened} (c : Char) :
    Reads (room + 1) Anything (CharSet.complement (.char c)).source o o
      [⟨ofSet (negate (.single c.toNat)), 1⟩] := by
  refine reads_of_step (List.cons_ne_nil _ _) fun fuel levels before others rest le => ?_
  obtain ⟨levels, rfl⟩ : ∃ n, levels = n + 1 := ⟨levels - 1, by omega⟩
  have source : (CharSet.complement (.char c)).source ++ rest =
      '[' :: '^' :: (escapeChar c ++ ']' :: rest) := by
    simp [CharSet.source, CharSet.items]
  have long : ∃ fuel, ('^' :: (escapeChar c ++ ']' :: rest)).length + 1 = fuel + 3 :=
    ⟨(escapeChar c).length + rest.length, by
      simp only [List.length_cons, List.length_append]
      omega⟩
  obtain ⟨enough, long⟩ := long
  rw [source, Opened.before, readBranches?]
  simp only
  rw [long, readClass?_without]
  rfl

/-! ## Repetitions -/

theorem readBranches?_mark {fuel levels : Nat} {before others : List Nested} {o : Opened} {c : Char}
    {cs rest : List Char} {x y : Nested} (plain : c ∉ [')', '|', '(', '['])
    (mark : startsRepeat c = true) (read : readPasses? x c cs = some (y, rest)) :
    readBranches? (fuel + 1) levels before (x :: others) (o.before (c :: cs)) =
      readBranches? fuel levels before (y :: others) (o.before rest) := by
  simp only [List.mem_cons, not_or, List.not_mem_nil, not_false_eq_true, and_true] at plain
  obtain ⟨close, bar, opens, bracket⟩ := plain
  rw [Opened.before, readBranches?]
  · simp only [mark, read]
    rfl

/-- A piece with a mark after it. -/
theorem Reads.mark {room : Nat} {next : List Char → Prop} {source mark : List Char}
    {o o' : Opened} {x y : Nested} {c : Char} (h : Reads room Anything source o o' [x])
    (plain : c ∉ [')', '|', '(', '[']) (starts : startsRepeat c = true)
    (read : ∀ rest, next rest → readPasses? x c (mark ++ rest) = some (y, rest)) :
    Reads room next (source ++ c :: mark) o o' [y] := by
  intro fuel levels before others rest hl hn hf
  rw [List.append_assoc] at hf ⊢
  obtain ⟨mid, hmid, first⟩ := h fuel levels before others (c :: mark ++ rest) hl trivial hf
  rw [List.cons_append, List.length_cons, List.length_append] at hmid
  obtain ⟨mid, rfl⟩ : ∃ n, mid = n + 1 := ⟨mid - 1, by omega⟩
  refine ⟨mid, by omega, ?_⟩
  rw [first]
  exact readBranches?_mark plain starts (read rest hn)

/-- The mark of a greedy repetition: none that makes it lazy may follow. -/
theorem readPasses?_greedy {x : Nested} {c : Char} {least : Nat} {most : Option Nat}
    (bounds : ∀ cs, readRepeat? c cs = some ((least, most), cs)) {rest : List Char}
    (unmarked : Unmarked rest) :
    readPasses? x c ([] ++ rest) =
      some (⟨ofPasses x.expression least most true, x.depth + 1⟩, rest) := by
  rw [readPasses?, bounds]
  cases rest with
  | nil => rfl
  | cons d ds =>
    have other : d ≠ '?' := fun eq => unmarked (eq ▸ rfl)
    simp only [List.nil_append, Option.bind_eq_bind, Option.bind_some]
    split
    · next eq => exact (other (List.cons.inj eq).1).elim
    · rfl

section Marks

variable {room : Nat} {source : List Char} {o o' : Opened} {x : Nested}

theorem Reads.oneOrMore (h : Reads room Anything source o o' [x]) :
    Reads room Unmarked (source ++ ['+']) o o' [⟨ofPasses x.expression 1 none true, x.depth + 1⟩] :=
  h.mark (by decide) (by decide) fun _ => readPasses?_greedy fun _ => rfl

theorem Reads.zeroOrMore (h : Reads room Anything source o o' [x]) :
    Reads room Unmarked (source ++ ['*']) o o' [⟨ofPasses x.expression 0 none true, x.depth + 1⟩] :=
  h.mark (by decide) (by decide) fun _ => readPasses?_greedy fun _ => rfl

theorem Reads.optional (h : Reads room Anything source o o' [x]) :
    Reads room Unmarked (source ++ ['?']) o o'
      [⟨ofPasses x.expression 0 (some 1) true, x.depth + 1⟩] :=
  h.mark (by decide) (by decide) fun _ => readPasses?_greedy fun _ => rfl

theorem Reads.oneOrMoreLazy (h : Reads room Anything source o o' [x]) :
    Reads room Anything (source ++ ['+', '?']) o o'
      [⟨ofPasses x.expression 1 none false, x.depth + 1⟩] :=
  h.mark (by decide) (by decide) fun _ _ => rfl

end Marks

/-! ## Branches and groups -/

section Groups

variable {room : Nat} {next : List Char → Prop} {source more : List Char} {o o₁ o₂ : Opened}
  {items branches : List Nested}

/-- One branch. -/
theorem readsBranches_one (h : Reads room next source o o₁ items)
    (follows : ∀ rest, next (')' :: rest)) :
    ReadsBranches room source o o₁ [inSequence items.reverse] := by
  intro fuel levels before rest hl hf
  obtain ⟨mid, hmid, first⟩ := h fuel levels before [] (')' :: rest) hl (follows rest) hf
  rw [List.length_cons] at hmid
  obtain ⟨mid, rfl⟩ : ∃ n, mid = n + 1 := ⟨mid - 1, by omega⟩
  rw [first, List.append_nil]
  rfl

/-- A branch in front of others. -/
theorem ReadsBranches.cons (h : Reads room next source o o₁ items)
    (rest : ReadsBranches room more o₁ o₂ branches) (follows : ∀ rest, next ('|' :: rest)) :
    ReadsBranches room (source ++ '|' :: more) o o₂ (inSequence items.reverse :: branches) := by
  intro fuel levels before after hl hf
  rw [List.append_assoc] at hf ⊢
  obtain ⟨mid, hmid, first⟩ :=
    h fuel levels before [] ('|' :: more ++ ')' :: after) hl (follows _) hf
  rw [List.cons_append, List.length_cons] at hmid
  obtain ⟨mid, rfl⟩ : ∃ n, mid = n + 1 := ⟨mid - 1, by omega⟩
  have second := rest mid levels (inSequence items.reverse :: before) after hl (by omega)
  rw [first, List.append_nil, List.reverse_cons, List.append_assoc]
  exact second

/-- A text between the parentheses of a group, of which the first is followed by how it opens. -/
theorem ReadsBranches.enclosed {opening : List Char} {name : Option GroupName}
    (h : ReadsBranches room source o₁ o₂ branches)
    (opens : ∀ rest, readOpening? (o.before (opening ++ rest)) = some (name, o₁.before rest)) :
    Reads (room + 1) Anything ('(' :: opening ++ source ++ [')']) o o₂
      [enclose name (inChoice branches.reverse)] := by
  intro fuel levels before others rest le _ hf
  obtain ⟨levels, rfl⟩ : ∃ n, levels = n + 1 := ⟨levels - 1, by omega⟩
  have text : '(' :: opening ++ source ++ [')'] ++ rest =
      '(' :: (opening ++ (source ++ ')' :: rest)) := by
    simp only [List.cons_append, List.append_assoc, List.nil_append]
  rw [text] at hf ⊢
  simp only [List.length_cons, List.length_append] at hf
  obtain ⟨fuel, rfl⟩ : ∃ n, fuel = n + 1 := ⟨fuel - 1, by omega⟩
  have inner : readBranches? fuel levels [] [] (o₁.before (source ++ ')' :: rest)) =
      some (inChoice branches.reverse, o₂.before (')' :: rest)) := by
    have read := h fuel levels [] rest (by omega) (by
      simp only [List.length_cons, List.length_append]
      omega)
    rwa [List.append_nil] at read
  have opened := opens (source ++ ')' :: rest)
  rw [Opened.before] at opened
  refine ⟨fuel, by omega, ?_⟩
  rw [Opened.before, readBranches?]
  simp only [opened, Option.bind_eq_bind, Option.bind_some, inner]
  rfl

/-- A group whose text is not recorded. -/
theorem ReadsBranches.group (h : ReadsBranches room source o o₁ branches) :
    Reads (room + 1) Anything ("(?:".toList ++ source ++ [')']) o o₁
      [enclose none (inChoice branches.reverse)] := by
  have opening : "(?:".toList = '(' :: ['?', ':'] := by decide
  rw [opening]
  exact h.enclosed fun rest => rfl

/-- The groups that have opened, with one more. -/
def Opened.open (o : Opened) (name : List Char) : Opened :=
  ⟨o.groups + 1, String.ofList name :: o.names⟩

/-- A group whose text is recorded under a name that no group has so far. -/
theorem ReadsBranches.named {name : List Char}
    (h : ReadsBranches room source (o.open name) o₂ branches) (valid : isGroupName name = true)
    (letters : '>' ∉ name) (fresh : String.ofList name ∉ o.names) :
    Reads (room + 1) Anything ("(?P<".toList ++ name ++ '>' :: source ++ [')']) o o₂
      [enclose (some ⟨o.groups + 1, some (String.ofList name)⟩) (inChoice branches.reverse)] := by
  have opening : "(?P<".toList ++ name ++ '>' :: source ++ [')'] =
      '(' :: ('?' :: 'P' :: '<' :: (name ++ ['>'])) ++ source ++ [')'] := by
    have start : "(?P<".toList = ['(', '?', 'P', '<'] := by decide
    rw [start]
    simp only [List.cons_append, List.append_assoc, List.nil_append]
  rw [opening]
  refine h.enclosed fun rest => ?_
  have others : ∀ c ∈ name, (c != '>') = true :=
    fun c hc => bne_iff_ne.2 fun eq => letters (eq ▸ hc)
  have before : (name ++ '>' :: rest).takeWhile (· != '>') = name := by
    rw [List.takeWhile_append_of_pos others, List.takeWhile_cons_of_neg (by decide),
      List.append_nil]
  have after : (name ++ '>' :: rest).dropWhile (· != '>') = '>' :: rest := by
    rw [List.dropWhile_append_of_pos others, List.dropWhile_cons_of_neg (by decide)]
  have accepted : (isGroupName name && !o.names.contains (String.ofList name)) = true := by
    rw [valid, Bool.true_and, Bool.not_eq_true', ← Bool.not_eq_true, List.contains_iff_mem]
    exact fresh
  have text : '?' :: 'P' :: '<' :: (name ++ ['>']) ++ rest =
      '?' :: 'P' :: '<' :: (name ++ '>' :: rest) := by
    simp only [List.cons_append, List.append_assoc, List.nil_append]
  rw [text, Opened.before, readOpening?]
  simp only [readName?, before, after]
  rw [if_pos accepted]
  rfl

end Groups

/-! ## Whole texts -/

/-- A text that is read as a sequence that is not nested too deeply. -/
theorem read?_of_reads {room : Nat} {next : List Char → Prop} {source : List Char} {o : Opened}
    {items : List Nested} (h : Reads room next source ⟨0, []⟩ o items) (enough : room ≤ depthLimit)
    (ends : next []) (shallow : (inSequence items.reverse).depth ≤ depthLimit) :
    read? (String.ofList source) = some (inSequence items.reverse).expression := by
  have long : (source ++ []).length < (String.ofList source).length + 1 := by
    rw [List.append_nil, String.length_ofList]
    exact Nat.lt_succ_self _
  obtain ⟨fuel, hf, read⟩ := h _ depthLimit [] [] [] enough ends long
  obtain ⟨fuel, rfl⟩ : ∃ n, fuel = n + 1 := ⟨fuel - 1, by omega⟩
  rw [List.append_nil, List.append_nil] at read
  have whole : readBranches? ((String.ofList source).length + 1) depthLimit [] []
      ⟨(String.ofList source).toList, 0, []⟩ =
        some (inSequence items.reverse, ⟨[], o.groups, o.names⟩) := by
    rw [String.toList_ofList]
    exact read
  rw [read?, whole]
  exact if_pos shallow

end PlainSteps.Regex
