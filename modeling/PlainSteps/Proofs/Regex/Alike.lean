import Mathlib.Data.List.Forall2
import PlainSteps.Regex.Class
import PlainSteps.Regex.Normal
import PlainSteps.Regex.SearchLemmas

/-!
# Expressions that match alike

Two expressions match alike where their searches go through the same places in the same order and
record the same texts, under names that correspond. An expression and its normal form do.

* `Regex.Alike`: expressions that match alike, for a function between their names.
* `Alike.cat`, `Alike.alternatives`, `Alike.named`, `Alike.times`: expressions made of such.
* `Alike.search?`: what a search gives.
* `Regex.run_ofParts`: a sequence in normal form.
* `alike_characters`, `alike_blank`, `alike_notNewline`, `alike_without`: texts and sets in the
  forms that the reader gives them.

Proof-only: no module that runs imports this one.
-/

namespace PlainSteps

variable {ν μ α β : Type}

/-- The same place with other names for the groups. -/
def Cursor.rename (f : ν → μ) (s : Cursor ν) : Cursor μ :=
  ⟨s.before, s.position, s.rest, s.found.map fun (n, word) => (f n, word)⟩

namespace Regex

/-- Whether two searches go through corresponding places, for functions between the names and
between the answers: they give corresponding answers to continuations that do. -/
def Follows (f : ν → μ) (g : α → β) (search : Cursor ν → (Cursor ν → Option α) → Option α)
    (search' : Cursor μ → (Cursor μ → Option β) → Option β) : Prop :=
  ∀ s k k', (∀ t : Cursor ν, k' (t.rename f) = (k t).map g) →
    search' (s.rename f) k' = (search s k).map g

/-- Whether two expressions match alike. -/
def Alike (f : ν → μ) (r : Regex ν) (r' : Regex μ) : Prop :=
  ∀ ⦃α β : Type⦄ (g : α → β), Follows f g r.run r'.run

/-! ## Repetitions -/

private theorem map_orElse (g : α → β) (x y : Option α) :
    (x <|> y).map g = (x.map g <|> y.map g) := by
  cases x <;> rfl

section Repetitions

variable {f : ν → μ} {g : α → β} {body : Cursor ν → (Cursor ν → Option α) → Option α}
  {body' : Cursor μ → (Cursor μ → Option β) → Option β}

theorem Follows.passes (h : Follows f g body body') (greedy : Bool) (fuel : Nat) :
    Follows f g (passes body greedy fuel) (passes body' greedy fuel) := by
  induction fuel with
  | zero => exact fun s k k' hk => hk s
  | succ fuel ih =>
    intro s k k' hk
    have more : (body' (s.rename f) fun t => if (s.rename f).position < t.position then
          Regex.passes body' greedy fuel t k' else none) =
        (body s fun t => if s.position < t.position then
          Regex.passes body greedy fuel t k else none).map g := by
      refine h s _ _ fun t => ?_
      rw [apply_ite (Option.map g), ih t k k' hk]
      rfl
    rw [Regex.passes, Regex.passes]
    simp only [more, hk s]
    cases greedy
    · exact (map_orElse g _ _).symm
    · exact (map_orElse g _ _).symm

theorem Follows.onePassOrMore (h : Follows f g body body') (greedy : Bool) :
    Follows f g (onePassOrMore body greedy) (onePassOrMore body' greedy) := by
  intro s k k' hk
  refine h s _ _ fun t => ?_
  rw [apply_ite (Option.map g), ← h.passes greedy t.rest.length t k k' hk, ← hk t]
  rfl

theorem Follows.passesUpTo (h : Follows f g body body') (greedy : Bool) (n : Nat) :
    Follows f g (passesUpTo body greedy n) (passesUpTo body' greedy n) := by
  induction n with
  | zero => exact fun s k k' hk => hk s
  | succ n ih =>
    intro s k k' hk
    have more := h s (fun t => Regex.passesUpTo body greedy n t k)
      (fun t => Regex.passesUpTo body' greedy n t k') fun t => ih t k k' hk
    rw [Regex.passesUpTo, Regex.passesUpTo]
    simp only [more, hk s]
    cases greedy
    · exact (map_orElse g _ _).symm
    · exact (map_orElse g _ _).symm

theorem Follows.passesThen {next : Cursor ν → (Cursor ν → Option α) → Option α}
    {next' : Cursor μ → (Cursor μ → Option β) → Option β} (h : Follows f g body body')
    (hn : Follows f g next next') (n : Nat) :
    Follows f g (passesThen body next n) (passesThen body' next' n) := by
  induction n with
  | zero => exact hn
  | succ n ih => exact fun s k k' hk => h s _ _ fun t => ih t k k' hk

theorem Follows.repeated (h : Follows f g body body') (least : Nat) (most : Option Nat)
    (greedy : Bool) : Follows f g (repeated body least most greedy)
      (repeated body' least most greedy) := by
  intro s k k' hk
  cases most with
  | some m =>
    have times := h.passesThen (h.passesUpTo greedy (m - least)) least s k k' hk
    cases least <;> exact times
  | none =>
    cases least with
    | succ n => exact h.passesThen (h.onePassOrMore greedy) n s k k' hk
    | zero =>
      rw [Regex.repeated, Regex.repeated, h.onePassOrMore greedy s k k' hk, hk s]
      cases greedy
      · exact (map_orElse g _ _).symm
      · exact (map_orElse g _ _).symm

end Repetitions

/-! ## Expressions -/

section Expressions

variable {f : ν → μ} {r s : Regex ν} {r' s' : Regex μ}

theorem alike_empty : Alike f .empty .empty := fun _ _ _ s _ _ hk => hk s

theorem alike_place (p : Place) : Alike f (.place p) (.place p) := by
  intro _ _ g s k k' hk
  rw [run, run, apply_ite (Option.map g), ← hk s]
  rfl

theorem alike_text (cs : List Char) : Alike f (.text cs) (.text cs) := by
  intro _ _ g s k k' hk
  rw [run, run, Cursor.skip?, Cursor.skip?]
  change ((cs.isPrefixOf? s.rest).map _).bind k' = _
  cases cs.isPrefixOf? s.rest with
  | none => rfl
  | some rest => exact hk ⟨cs.reverse ++ s.before, s.position + cs.length, rest, s.found⟩

/-- Sets of the same characters. -/
theorem alike_oneOf {set set' : CharSet} (same : ∀ c, set'.contains c = set.contains c) :
    Alike f (.oneOf set) (.oneOf set') := by
  intro _ _ g s k k' hk
  obtain ⟨before, position, rest, found⟩ := s
  cases rest with
  | nil => rfl
  | cons c rest =>
    rw [run, run, Cursor.step?, Cursor.step?]
    simp only [Cursor.rename, same c]
    cases set.contains c with
    | false => rfl
    | true => exact hk ⟨c :: before, position + 1, rest, found⟩

theorem Alike.group (h : Alike f r r') : Alike f (.group r) r' := h

theorem Alike.named (h : Alike f r r') (n : ν) : Alike f (.named n r) (.named (f n) r') :=
  fun _ _ g s _ _ hk => h g s _ _ fun t => hk (t.record n s)

theorem Alike.times (h : Alike f r r') (least : Nat) (most : Option Nat) (greedy : Bool) :
    Alike f (.times r least most greedy) (.times r' least most greedy) :=
  fun _ _ g => (h g).repeated least most greedy

theorem Alike.cat (h : Alike f r r') (h' : Alike f s s') : Alike f (.cat r s) (.cat r' s') :=
  fun _ _ g c _ _ hk => h g c _ _ fun t => h' g t _ _ hk

theorem Alike.alt (h : Alike f r r') (h' : Alike f s s') : Alike f (.alt r s) (.alt r' s') := by
  intro _ _ g c k k' hk
  rw [run, run, h g c k k' hk, h' g c k k' hk, map_orElse]

theorem Alike.alternatives {rs : List (Regex ν)} {rs' : List (Regex μ)}
    (h : List.Forall₂ (Alike f) rs rs') : Alike f (alternatives rs) (alternatives rs') := by
  induction h with
  | nil => exact alike_empty
  | cons first rest ih =>
    cases rest with
    | nil => exact first
    | cons second others => exact first.alt ih

theorem placesFrom_rename (before : List Char) (position : Nat) (text : List Char) :
    placesFrom before position text = (placesFrom before position text).map (Cursor.rename f) := by
  induction text generalizing before position with
  | nil => rfl
  | cons c rest ih =>
    rw [placesFrom, ih, placesFrom, List.map_cons]
    rfl

/-- A search gives the same, under corresponding names. -/
theorem Alike.search? (h : Alike f r r') (text : List Char) :
    r'.search? text = (r.search? text).map (List.map fun (n, word) => (f n, word)) := by
  rw [search?_eq, search?_eq, placesFrom_rename (f := f), List.findSome?_map]
  induction placesFrom (ν := ν) [] 0 text with
  | nil => rfl
  | cons c rest ih =>
    have here := h (List.map fun (n, word) => (f n, word)) c (fun t => some t.found)
      (fun t => some t.found) fun t => rfl
    rw [List.findSome?_cons, List.findSome?_cons, Function.comp_apply, here, ih]
    cases r.run c fun t => some t.found <;> rfl

end Expressions

/-! ## Normal forms -/

section NormalForms

variable {f : ν → μ} {r : Regex ν} {r' r'' : Regex μ}

theorem Alike.of_run (h : Alike f r r') (same : ∀ {α : Type}, r''.run (α := α) = r'.run) :
    Alike f r r'' := by
  intro _ _ g s k k' hk
  rw [same]
  exact h g s k k' hk

theorem run_sequence_append (rs ss : List (Regex ν)) (s : Cursor ν) (k : Cursor ν → Option α) :
    (sequence (rs ++ ss)).run s k = (sequence rs).run s fun t => (sequence ss).run t k := by
  induction rs generalizing s with
  | nil => rfl
  | cons r rs ih => exact congrArg (r.run s) (funext fun t => ih t)

theorem run_text_append (cs ds : List Char) (s : Cursor ν) (k : Cursor ν → Option α) :
    (text (cs ++ ds)).run s k = (text cs).run s fun t => (text ds).run t k := by
  have prefixes : (cs ++ ds).isPrefixOf? s.rest = (cs.isPrefixOf? s.rest).bind ds.isPrefixOf? := by
    refine Option.ext fun rest => ?_
    simp only [Option.bind_eq_some_iff, Text.isPrefixOf?_eq_some_iff, List.append_assoc]
    constructor
    · exact fun h => ⟨ds ++ rest, h, rfl⟩
    · rintro ⟨_, h, rfl⟩
      exact h
  rw [run, run, Cursor.skip?, Cursor.skip?, prefixes]
  cases cs.isPrefixOf? s.rest with
  | none => rfl
  | some rest =>
    change ((ds.isPrefixOf? rest).map _).bind k = (Cursor.skip? ds _).bind k
    rw [Cursor.skip?]
    cases ds.isPrefixOf? rest with
    | none => rfl
    | some last => simp [Nat.add_assoc]

theorem run_chain (rs : List (Regex ν)) (s : Cursor ν) (k : Cursor ν → Option α) :
    (chain rs).run s k = (sequence rs).run s k := by
  induction rs generalizing s with
  | nil => rfl
  | cons r rs ih =>
    cases rs with
    | nil => rfl
    | cons next others => exact congrArg (r.run s) (funext fun t => ih t)

theorem run_joinTexts (rs : List (Regex ν)) (s : Cursor ν) (k : Cursor ν → Option α) :
    (sequence (joinTexts rs)).run s k = (sequence rs).run s k := by
  induction rs generalizing s with
  | nil => rfl
  | cons r rs ih =>
    have after : (sequence (r :: joinTexts rs)).run s k = (sequence (r :: rs)).run s k :=
      congrArg (r.run s) (funext fun t => ih t)
    unfold joinTexts
    split
    · next cs ds more joined =>
      rw [← after, joined]
      exact run_text_append cs ds s _
    · exact after

theorem run_parts (r : Regex ν) (s : Cursor ν) (k : Cursor ν → Option α) :
    (sequence r.parts).run s k = r.run s k := by
  induction r generalizing s k with
  | cat a b iha ihb =>
    rw [parts, run_sequence_append, iha]
    exact congrArg (a.run s) (funext fun t => ihb t k)
  | _ => rfl

/-- A sequence in normal form. -/
theorem run_ofParts (rs : List (Regex ν)) : (ofParts rs).run (α := α) = (sequence rs).run := by
  funext s k
  rw [ofParts, run_chain, run_joinTexts]
  induction rs generalizing s with
  | nil => rfl
  | cons r rs ih =>
    rw [List.flatMap_cons, run_sequence_append, run_parts]
    exact congrArg (r.run s) (funext fun t => ih t)

end NormalForms

/-! ## Sequences -/

section Sequences

variable {f : ν → μ} {r s : Regex ν} {xs ys : List (Regex μ)}

theorem Alike.single {r' : Regex μ} (h : Alike f r r') : Alike f r (sequence [r']) := h

theorem Alike.sequence_append (h : Alike f r (sequence xs)) (h' : Alike f s (sequence ys)) :
    Alike f (.cat r s) (sequence (xs ++ ys)) :=
  Alike.of_run (h.cat h') (funext fun c => funext fun k => run_sequence_append xs ys c k)

/-- A text, character by character. -/
theorem alike_characters (cs : List Char) :
    Alike f (.text cs) (sequence (cs.map fun c => .text [c])) := by
  refine Alike.of_run (alike_text cs) (funext fun s => funext fun k => ?_)
  induction cs generalizing s with
  | nil => rfl
  | cons c cs ih =>
    have first := run_text_append [c] cs s k
    rw [List.singleton_append] at first
    rw [first]
    exact congrArg ((text [c]).run s) (funext fun t => ih t)

end Sequences

/-! ## Sets -/

section Sets

variable {f : ν → μ} {c : Char}

/-- The code points around one that is not the first and lies before the surrogates. -/
def around (n : Nat) : Spans := ⟨[(0, n - 1), (n + 1, Spans.lastCode)]⟩

theorem has_around (pos : 0 < c.toNat) (d : Char) : (around c.toNat).has d.toNat = !(c == d) := by
  have last : d.toNat ≤ Spans.lastCode := by
    rcases d.valid with h | ⟨-, h⟩
    · exact Nat.le_of_lt (Nat.lt_trans h (by decide))
    · exact Nat.le_of_lt_succ h
  have same : (c == d) = decide (c.toNat = d.toNat) :=
    decide_eq_decide.2 Char.toNat_inj.symm
  rw [same, Bool.eq_iff_iff]
  simp only [around, Spans.has, Spans.hasIn, Bool.and_eq_true, Bool.or_eq_true, decide_eq_true_eq,
    Bool.not_eq_true', decide_eq_false_iff_not, Bool.false_eq_true, or_false]
  omega

theorem complement_single {n : Nat} (pos : 0 < n) (small : n < 0xD7FF) :
    (Spans.single n).complement = around n := by
  have after : Spans.codeAfter n = n + 1 := if_neg (by omega)
  have before : Spans.codeBefore n = n - 1 := if_neg (by omega)
  have more : n + 1 ≤ Spans.lastCode := by
    rw [Spans.lastCode]
    omega
  simp only [Spans.complement, Spans.single, Spans.gaps, if_pos pos, after, before, if_pos more,
    around]

theorem negate_single {n : Nat} (pos : 0 < n) (small : n < 0xD7FF) :
    negate (.single n) = around n := by
  have after : Spans.codeAfter n = n + 1 := if_neg (by omega)
  have before : Spans.codeBefore n = n - 1 := if_neg (by omega)
  have more : n < Spans.lastCode := by
    rw [Spans.lastCode]
    omega
  simp only [negate, Spans.single, negatedAfter, if_pos pos, after, before, if_pos more, around,
    List.singleton_append]

theorem alike_blank : Alike f (.oneOf .blank) (.oneOf (.spans ⟨Text.blankSpans⟩)) :=
  alike_oneOf fun _ => rfl

/-- The set that is read from a dot. -/
theorem contains_toSpans_notNewline (d : Char) :
    (CharSet.spans (CharSet.toSpans .notNewline)).contains d = (d != '\n') := by
  have spans : CharSet.toSpans .notNewline = around '\n'.toNat :=
    complement_single (by decide) (by decide)
  have others : (around '\n'.toNat).has d.toNat = !('\n' == d) := has_around (by decide) d
  rw [spans]
  change (around '\n'.toNat).has d.toNat = !(d == '\n')
  rw [others, Bool.beq_comm]

theorem alike_notNewline :
    Alike f (.oneOf .notNewline) (.oneOf (.spans (CharSet.toSpans .notNewline))) :=
  alike_oneOf contains_toSpans_notNewline

/-- The class of the characters other than one. -/
theorem alike_without (pos : 0 < c.toNat) :
    Alike f (.oneOf (.complement (.char c))) (.oneOf (.spans (around c.toNat))) :=
  alike_oneOf (has_around pos)

end Sets

end Regex

end PlainSteps
