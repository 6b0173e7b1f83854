import PlainSteps.Proofs.Regex.Alike
import PlainSteps.Proofs.Regex.Written

/-!
# Reading expressions back

What is read from the written form of an expression matches like the expression.

* `Regex.ReadsBack`: the written form of an expression is read as pieces that match like it.
* `Regex.AtomReadsBack`: it is read as one piece, whatever follows.
* `Regex.BranchesReadBack`: the branches of a choice.
* `ReadsBack.cat`, `AtomReadsBack.times`, `BranchesReadBack.group`, `ReadsBack.named`: expressions
  that consist of others.
* `ReadsBack.read?`: a whole text.

Proof-only: no module that runs imports this one.
-/

namespace PlainSteps.Regex

variable {ν : Type}

/-! ## Pieces -/

/-- Whether the written form of an expression, which no repetition mark follows, is read as some
pieces, which match like the expression. -/
structure ReadsBack (write : ν → String) (f : ν → GroupName) (r : Regex ν) (room : Nat)
    (o o' : Opened) (items : List Nested) : Prop where
  reads : Reads room Unmarked (r.source write) o o' items
  unmarked : ∀ rest, Unmarked rest → Unmarked (r.source write ++ rest)
  shallow : ∀ x ∈ items, x.depth < depthLimit
  alike : Alike f r (sequence (items.map (·.expression)))

/-- Whether the written form of an expression is read as one piece, to which a mark may be
applied. -/
structure AtomReadsBack (write : ν → String) (f : ν → GroupName) (r : Regex ν) (room : Nat)
    (o o' : Opened) (x : Nested) : Prop where
  reads : Reads room Anything (r.source write) o o' [x]
  unmarked : ∀ rest, Unmarked (r.source write ++ rest)
  shallow : x.depth + 1 < depthLimit
  alike : Alike f r x.expression

/-- Whether the written form of a choice is read as some branches, which match like those of the
choice. -/
structure BranchesReadBack (write : ν → String) (f : ν → GroupName) (rs : List (Regex ν))
    (room : Nat) (o o' : Opened) (branches : List Nested) : Prop where
  reads : ReadsBranches room ((alternatives rs).source write) o o' branches
  alike : List.Forall₂ (Alike f) rs (branches.map (·.expression))

/-! ## Sequences -/

theorem run_inSequence {α : Type} (reversed : List Nested) :
    (inSequence reversed).expression.run (α := α) =
      (sequence (reversed.reverse.map (·.expression))).run := by
  match reversed with
  | [] => rfl
  | [_] => rfl
  | x :: y :: rest => exact run_ofParts _

theorem Alike.inSequence {f : ν → GroupName} {r : Regex ν} {items : List Nested}
    (h : Alike f r (sequence (items.map (·.expression)))) :
    Alike f r (inSequence items.reverse).expression := by
  refine Alike.of_run h ?_
  intro α
  rw [run_inSequence, List.reverse_reverse]

theorem depth_inSequence {items : List Nested} (h : ∀ x ∈ items, x.depth < depthLimit) :
    (inSequence items.reverse).depth ≤ depthLimit := by
  have shallow : ∀ x ∈ items.reverse, x.depth < depthLimit :=
    fun x hx => h x (List.mem_reverse.1 hx)
  have greatest (xs : List Nested) (n : Nat) (hn : n < depthLimit)
      (hxs : ∀ x ∈ xs, x.depth < depthLimit) :
      xs.foldl (fun n r => max n r.depth) n < depthLimit := by
    induction xs generalizing n with
    | nil => exact hn
    | cons x xs ih =>
      refine ih _ (Nat.max_lt.2 ⟨hn, hxs x List.mem_cons_self⟩) fun y hy => ?_
      exact hxs y (List.mem_cons_of_mem x hy)
  -- One piece is as deep as it is, more are one level deeper.
  match items.reverse, shallow with
  | [], _ => exact Nat.zero_le _
  | [x], hx => exact Nat.le_of_lt (hx x List.mem_cons_self)
  | x :: y :: rest, hx => exact greatest _ 0 (by decide) hx

section Rules

variable {write : ν → String} {f : ν → GroupName} {r s : Regex ν} {room : Nat}
  {o o₁ o₂ : Opened} {items others branches : List Nested} {x : Nested}

/-- What starts with another character starts with no mark. -/
theorem unmarked_append {cs : List Char} (head : cs.head?.any (· != '?') = true)
    (rest : List Char) : Unmarked (cs ++ rest) := by
  obtain ⟨c, hc, other⟩ := (Option.any_eq_true _ _).1 head
  rw [Unmarked, List.head?_append, hc]
  exact fun eq => bne_iff_ne.1 other (Option.some.inj eq)

theorem unmarked_cons {c : Char} (other : c ≠ '?') (rest : List Char) : Unmarked (c :: rest) :=
  fun eq => other (Option.some.inj eq)

theorem readsBack_empty : ReadsBack write f .empty room o o [] :=
  ⟨reads_nil, fun _ h => h, fun _ h => (List.not_mem_nil h).elim, alike_empty⟩

theorem unmarked_escape (cs rest : List Char) (h : Unmarked rest) :
    Unmarked (escape cs ++ rest) := by
  cases cs with
  | nil => exact h
  | cons c cs =>
    rw [escape, List.flatMap_cons, escapeChar]
    split
    · exact unmarked_cons (by decide) _
    · next plain => exact unmarked_cons (fun eq : c = _ => plain (by rw [eq]; decide)) _

theorem readsBack_text (cs : List Char) :
    ReadsBack write f (.text cs) room o o (cs.map fun c => ⟨.text [c], 0⟩) := by
  refine ⟨(reads_text cs).mono (Nat.le_refl room) fun _ _ => trivial, unmarked_escape cs, ?_, ?_⟩
  · intro x hx
    obtain ⟨c, -, rfl⟩ := List.mem_map.1 hx
    exact Nat.zero_lt_succ _
  · rw [List.map_map]
    exact alike_characters cs

theorem ReadsBack.cat (h : ReadsBack write f r room o o₁ items)
    (h' : ReadsBack write f s room o₁ o₂ others) :
    ReadsBack write f (.cat r s) room o o₂ (items ++ others) := by
  refine ⟨h.reads.append h'.reads h'.unmarked, fun rest hr => ?_, fun x hx => ?_, ?_⟩
  · show Unmarked (r.source write ++ s.source write ++ rest)
    rw [List.append_assoc]
    exact h.unmarked _ (h'.unmarked rest hr)
  · exact (List.mem_append.1 hx).elim (h.shallow x) (h'.shallow x)
  · rw [List.map_append]
    exact Alike.sequence_append h.alike h'.alike

theorem ReadsBack.mono {room' : Nat} (h : ReadsBack write f r room o o₁ items) (le : room ≤ room') :
    ReadsBack write f r room' o o₁ items :=
  ⟨h.reads.mono le fun _ hn => hn, h.unmarked, h.shallow, h.alike⟩

/-! ## Atoms -/

theorem AtomReadsBack.readsBack (h : AtomReadsBack write f r room o o₁ x) :
    ReadsBack write f r room o o₁ [x] := by
  refine ⟨h.reads.mono (Nat.le_refl room) fun _ _ => trivial, fun rest _ => h.unmarked rest, ?_,
    h.alike⟩
  intro y hy
  rw [List.mem_singleton.1 hy]
  exact Nat.lt_of_succ_lt h.shallow

theorem atom_start : AtomReadsBack write f (.place .start) room o o ⟨.place .start, 0⟩ :=
  ⟨reads_start, unmarked_append (by decide : "^".toList.head?.any (· != '?') = true), by decide,
    alike_place _⟩

theorem atom_stop : AtomReadsBack write f (.place .stop) room o o ⟨.place .stop, 0⟩ :=
  ⟨reads_stop, unmarked_append (by decide : "$".toList.head?.any (· != '?') = true), by decide,
    alike_place _⟩

theorem atom_blank :
    AtomReadsBack write f (.oneOf .blank) room o o ⟨.oneOf (.spans ⟨Text.blankSpans⟩), 0⟩ :=
  ⟨reads_blank, unmarked_append (by decide : "\\s".toList.head?.any (· != '?') = true), by decide,
    alike_blank⟩

theorem atom_notNewline :
    AtomReadsBack write f (.oneOf .notNewline) room o o
      ⟨.oneOf (.spans (CharSet.toSpans .notNewline)), 0⟩ :=
  ⟨reads_notNewline, unmarked_append rfl, by decide, alike_notNewline⟩

theorem atom_without {c : Char} (pos : 0 < c.toNat) (small : c.toNat < 0xD7FF) :
    AtomReadsBack write f (.oneOf (.complement (.char c))) (room + 1) o o
      ⟨.oneOf (.spans (around c.toNat)), 1⟩ := by
  have reads : Reads (room + 1) Anything (CharSet.complement (.char c)).source o o _ :=
    reads_without c
  rw [negate_single pos small] at reads
  exact ⟨reads, unmarked_append rfl, (by decide : 2 < depthLimit), alike_without pos⟩

/-- The repetition of what does not match the empty text only. -/
theorem ofPasses_of_solid {r : Regex GroupName} {least : Nat} {most : Option Nat} {greedy : Bool}
    (solid : r.isHollow = false) (some_ : ¬(least = 0 ∧ most = some 0))
    (many : ¬(least = 1 ∧ most = some 1)) :
    ofPasses r least most greedy = .times r least most greedy := by
  rw [ofPasses, solid]
  exact (if_neg some_).trans (if_neg many)

/-- An atom that is repeated. -/
theorem AtomReadsBack.times {least : Nat} {most : Option Nat} {greedy : Bool}
    (h : AtomReadsBack write f r room o o₁ x) (solid : x.expression.isHollow = false)
    (some_ : ¬(least = 0 ∧ most = some 0))
    (many : ¬(least = 1 ∧ most = some 1))
    (reads : Reads room Unmarked (r.source write ++ repeatMark least most greedy) o o₁
      [⟨ofPasses x.expression least most greedy, x.depth + 1⟩]) :
    ReadsBack write f (.times r least most greedy) room o o₁
      [⟨.times x.expression least most greedy, x.depth + 1⟩] := by
  rw [ofPasses_of_solid solid some_ many] at reads
  refine ⟨reads, fun rest _ => ?_, fun y hy => ?_, (h.alike.times least most greedy).single⟩
  · show Unmarked (r.source write ++ repeatMark least most greedy ++ rest)
    rw [List.append_assoc]
    exact h.unmarked _
  · rw [List.mem_singleton.1 hy]
    exact h.shallow

theorem AtomReadsBack.oneOrMore (h : AtomReadsBack write f r room o o₁ x)
    (solid : x.expression.isHollow = false) :
    ReadsBack write f r.oneOrMore room o o₁ [⟨x.expression.oneOrMore, x.depth + 1⟩] :=
  h.times solid (by decide) (by decide) h.reads.oneOrMore

theorem AtomReadsBack.zeroOrMore (h : AtomReadsBack write f r room o o₁ x)
    (solid : x.expression.isHollow = false) :
    ReadsBack write f r.zeroOrMore room o o₁ [⟨x.expression.zeroOrMore, x.depth + 1⟩] :=
  h.times solid (by decide) (by decide) h.reads.zeroOrMore

theorem AtomReadsBack.optional (h : AtomReadsBack write f r room o o₁ x)
    (solid : x.expression.isHollow = false) :
    ReadsBack write f r.optional room o o₁ [⟨x.expression.optional, x.depth + 1⟩] :=
  h.times solid (by decide) (by decide) h.reads.optional

theorem AtomReadsBack.oneOrMoreLazy (h : AtomReadsBack write f r room o o₁ x)
    (solid : x.expression.isHollow = false) :
    ReadsBack write f r.oneOrMoreLazy room o o₁ [⟨x.expression.oneOrMoreLazy, x.depth + 1⟩] :=
  h.times solid (by decide) (by decide)
    (h.reads.oneOrMoreLazy.mono (Nat.le_refl room) fun _ _ => trivial)

/-! ## Branches and groups -/

theorem branchesReadBack_one (h : ReadsBack write f r room o o₁ items) :
    BranchesReadBack write f [r] room o o₁ [inSequence items.reverse] :=
  ⟨readsBranches_one h.reads (unmarked_cons (by decide)), .cons h.alike.inSequence .nil⟩

theorem BranchesReadBack.cons {rs : List (Regex ν)} (h : ReadsBack write f r room o o₁ items)
    (rest : BranchesReadBack write f (s :: rs) room o₁ o₂ branches) :
    BranchesReadBack write f (r :: s :: rs) room o o₂ (inSequence items.reverse :: branches) :=
  ⟨ReadsBranches.cons h.reads rest.reads (unmarked_cons (by decide)),
    .cons h.alike.inSequence rest.alike⟩

theorem BranchesReadBack.group {rs : List (Regex ν)}
    (h : BranchesReadBack write f rs room o o₁ branches)
    (normal : (inChoice branches.reverse).expression = alternatives (branches.map (·.expression)))
    (shallow : (inChoice branches.reverse).depth + 2 < depthLimit) :
    AtomReadsBack write f (.group (alternatives rs)) (room + 1) o o₁
      (enclose none (inChoice branches.reverse)) := by
  refine ⟨h.reads.group, fun rest => ?_, shallow, ?_⟩
  · show Unmarked ("(?:".toList ++ (alternatives rs).source write ++ [')'] ++ rest)
    rw [List.append_assoc, List.append_assoc]
    exact unmarked_append (by decide) _
  · have alike := (Alike.alternatives h.alike).group
    rwa [← normal] at alike

theorem ReadsBack.named {n : ν} (h : ReadsBack write f r room (o.open (write n).toList) o₁ items)
    (valid : isGroupName (write n).toList = true) (letters : '>' ∉ (write n).toList)
    (fresh : write n ∉ o.names) (number : f n = ⟨o.groups + 1, some (write n)⟩)
    (shallow : (inSequence items.reverse).depth + 2 < depthLimit) :
    AtomReadsBack write f (.named n r) (room + 1) o o₁
      (enclose (some (f n)) (inSequence items.reverse)) := by
  have branch : ReadsBranches room (r.source write) (o.open (write n).toList) o₁
      [inSequence items.reverse] := readsBranches_one h.reads (unmarked_cons (by decide))
  have unused : String.ofList (write n).toList ∉ o.names := by rwa [String.ofList_toList]
  have reads := branch.named valid letters unused
  rw [String.ofList_toList, ← number] at reads
  refine ⟨reads, fun rest => ?_, shallow, h.alike.inSequence.named n⟩
  show Unmarked ("(?P<".toList ++ (write n).toList ++ '>' :: r.source write ++ [')'] ++ rest)
  rw [List.append_assoc, List.append_assoc, List.append_assoc]
  exact unmarked_append (by decide) _

/-! ## Whole texts -/

/-- What is read from the written form of an expression matches like it. -/
theorem ReadsBack.read? (h : ReadsBack write f r room ⟨0, []⟩ o items)
    (enough : room ≤ depthLimit) :
    ∃ r', Regex.read? (String.ofList (r.source write)) = some r' ∧ Alike f r r' := by
  refine ⟨(inSequence items.reverse).expression, ?_, h.alike.inSequence⟩
  exact read?_of_reads h.reads enough (fun eq => nomatch eq) (depth_inSequence h.shallow)

end Rules

end PlainSteps.Regex
