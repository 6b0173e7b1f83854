import PlainSteps.Proofs.Regex.Choices
import PlainSteps.Proofs.Template.Lines

/-!
# The ways to read a line

A template can describe a line in several ways, which differ in the opening words and in the terms.
The ways come in an order of preference, in which an earlier part of the line outweighs the later
ones.

* `Way`: opening words and terms, `Way.Describes`.
* `Template.describes_iff`: a line is described if it is in one of the ways.
* `Way.Before`: the order of preference, `Way.Before.asymm`.
* `Template.offers_openingWords`, `Template.offers_term`, `Template.offers_body`: the parts of the
  expression of a template choose in this order.

Proof-only: no module that runs imports this one.
-/

namespace PlainSteps

open Regex

/-! ## Opening words -/

/-- A politeness phrase as a line writes it. -/
inductive Courtesy
  | the
  | contracted
  | iAm (blanks : List Char)
  | i

namespace Courtesy

/-- The blanks between the words of a phrase. -/
def inner : Courtesy → List Char
  | iAm blanks => blanks
  | _ => []

/-- The text of a phrase. -/
def text : Courtesy → List Char
  | the => "the".toList
  | contracted => "I'm".toList
  | iAm blanks => 'I' :: blanks ++ "am".toList
  | i => "I".toList

/-- The words of a phrase are apart. -/
def Valid : Courtesy → Prop
  | iAm blanks => IsBlanks blanks
  | _ => True

/-- The place of a phrase in the order in which the phrases are tried. -/
def rank : Courtesy → Nat
  | the => 0
  | contracted => 1
  | iAm _ => 2
  | i => 3

/-- The phrases are tried in turn, each with as many blanks as possible. -/
def Before (c d : Courtesy) : Prop :=
  c.rank < d.rank ∨ c.rank = d.rank ∧ d.inner.length < c.inner.length

end Courtesy

theorem polite_iff {cs : List Char} : Polite cs ↔ ∃ c : Courtesy, c.Valid ∧ c.text = cs := by
  constructor
  · rintro (_ | _ | h | _)
    · exact ⟨.the, trivial, rfl⟩
    · exact ⟨.contracted, trivial, rfl⟩
    · exact ⟨.iAm _, h, rfl⟩
    · exact ⟨.i, trivial, rfl⟩
  · rintro ⟨_ | _ | blanks | _, h, rfl⟩
    · exact .the
    · exact .contracted
    · exact .iAm h
    · exact .i

/-- Words that are followed by blanks are preferred to none; words are tried in their order, each
with as many blanks after them as possible. -/
def WordsFirst {ι : Type} (before : ι → ι → Prop) :
    Option (ι × List Char) → Option (ι × List Char) → Prop :=
  Choices.SomeFirst (Prod.Lex before (Choices.ByLength true))

/-! ## Terms -/

/-- One of two terms in the same place is preferred: one with delimiters to a bare one, and the
longer of two bare ones, or the shorter. -/
def Written.Before (short : Bool) (v w : Written) : Prop :=
  w.origin = .fallthrough ∧ (v.origin ≠ .fallthrough ∨ Choices.ByLength (!short) v.term w.term)

/-- A valid term is bare or stands between the delimiters of its form. -/
theorem Written.Valid.delimited {w : Written} (h : w.Valid) :
    w.origin = .fallthrough ∨ ∃ first last, w.origin.delimiters? = some (first, last) ∧
      w.text = first :: w.term ++ [last] ∧ last ∉ w.term := by
  obtain ⟨o, term⟩ := w
  cases o with
  | fallthrough => exact .inl rfl
  | statement => exact h.elim
  | quoted => exact .inr ⟨_, _, rfl, rfl, h⟩
  | _ => exact .inr ⟨_, _, rfl, rfl, h.2⟩

/-- A form is known by its first delimiter. -/
theorem Origin.eq_of_delimiters {o o' : Origin} {first last last' : Char}
    (h : o.delimiters? = some (first, last)) (h' : o'.delimiters? = some (first, last')) :
    o = o' ∧ last = last' := by
  cases o <;> cases h <;> cases o' <;> cases h' <;> exact ⟨rfl, rfl⟩

/-- Texts that are free of a delimiter are the same if it follows them in the same text. -/
private theorem eq_of_delimited {last : Char} {v w cs : List Char} (hv : last ∉ v) (hw : last ∉ w)
    (pv : v ++ [last] <+: cs) (pw : w ++ [last] <+: cs) : v = w := by
  have before {u : List Char} (hu : last ∉ u) (pu : u ++ [last] <+: cs) :
      cs.takeWhile (· != last) = u := by
    obtain ⟨rest, rfl⟩ := pu
    rw [List.append_assoc, List.takeWhile_append_of_pos]
    · simp
    · intro c hc
      simpa using fun h : c = last => hu (h ▸ hc)
  exact (before hv pv).symm.trans (before hw pw)

/-- At most one term with delimiters starts a text. -/
theorem Written.eq_of_prefix {v w : Written} {cs : List Char} (hv : v.Valid) (hw : w.Valid)
    (dv : v.origin ≠ .fallthrough) (dw : w.origin ≠ .fallthrough) (pv : v.text <+: cs)
    (pw : w.text <+: cs) : v = w := by
  obtain ⟨first, last, ov, tv, fv⟩ := hv.delimited.resolve_left dv
  obtain ⟨first', last', ow, tw, fw⟩ := hw.delimited.resolve_left dw
  rw [tv, List.cons_append] at pv
  rw [tw, List.cons_append] at pw
  cases cs with
  | nil => exact absurd (List.prefix_nil.1 pv) (List.cons_ne_nil _ _)
  | cons c cs =>
    obtain ⟨rfl, sv⟩ := List.cons_prefix_cons.1 pv
    obtain ⟨rfl, sw⟩ := List.cons_prefix_cons.1 pw
    obtain ⟨form, rfl⟩ := Origin.eq_of_delimiters ov ow
    have term := eq_of_delimited fv fw sv sw
    cases v
    cases w
    cases form
    cases term
    rfl

/-- The first terms that differ decide which terms are preferred. -/
def TermsBefore : (shorts : List Bool) → List Written → List Written → Prop
  | short :: shorts, v :: vs, w :: ws => v.Before short w ∨ v = w ∧ TermsBefore shorts vs ws
  | _, _, _ => False

/-- Whether bare terms are as short as possible: those for a statement that has another placeholder
after it. -/
def shorts : List Placeholder → List Bool
  | [] => []
  | p :: ps => (p.isStatement && !ps.isEmpty) :: shorts ps

/-! ## Ways -/

/-- A way to read a line. -/
structure Way where
  /-- The keyword and the blanks after it, if there is one. -/
  keyword : Option (Keyword × List Char)
  /-- The politeness phrase and the blanks after it, if there is one. -/
  courtesy : Option (Courtesy × List Char)
  /-- The terms for the placeholders. -/
  terms : List Written

namespace Way

/-- The opening words. -/
def opening (way : Way) : List Char :=
  (way.keyword.elim [] fun p => p.1.word.toList ++ p.2) ++
    way.courtesy.elim [] fun p => p.1.text ++ p.2

/-- A line is the opening words and the literal texts of a template, with the terms for its
placeholders. -/
structure Describes (way : Way) (tokens : List Template.Token) (line : List Char) : Prop where
  keyword : ∀ p ∈ way.keyword, IsBlanks p.2
  courtesy : ∀ p ∈ way.courtesy, p.1.Valid ∧ IsBlanks p.2
  length : way.terms.length = (Template.slots tokens).length
  valid : ∀ w ∈ way.terms, w.Valid
  split : way.opening ++ Template.spell (Template.segments tokens) way.terms = line

/-- The keyword outweighs the politeness phrase, and that outweighs the terms. Keywords are not
compared, since no text starts with two of them. -/
def Before (shorts : List Bool) (x y : Way) : Prop :=
  WordsFirst (fun _ _ => False) x.keyword y.keyword ∨
    x.keyword = y.keyword ∧
      (WordsFirst Courtesy.Before x.courtesy y.courtesy ∨
        x.courtesy = y.courtesy ∧ TermsBefore shorts x.terms y.terms)

end Way

/-- A template describes a line if the line is in one of the ways. -/
theorem Template.describes_iff {tokens : List Template.Token} {ws : List Written}
    {line : List Char} :
    Describes tokens ws line ↔ ∃ way : Way, way.Describes tokens line ∧ way.terms = ws := by
  constructor
  · rintro ⟨length, valid, _, ⟨first, second, rfl, hfirst, hsecond⟩, rfl⟩
    have keyword : ∃ o : Option (Keyword × List Char), (∀ p ∈ o, IsBlanks p.2) ∧
        (o.elim [] fun p => p.1.word.toList ++ p.2) = first := by
      rcases hfirst with rfl | ⟨k, blanks, hb, rfl⟩
      · exact ⟨none, by simp, rfl⟩
      · exact ⟨some (k, blanks), by simpa using hb, rfl⟩
    have courtesy : ∃ o : Option (Courtesy × List Char),
        (∀ p ∈ o, p.1.Valid ∧ IsBlanks p.2) ∧ (o.elim [] fun p => p.1.text ++ p.2) = second := by
      rcases hsecond with rfl | ⟨_, blanks, hp, hb, rfl⟩
      · exact ⟨none, by simp, rfl⟩
      · obtain ⟨c, hc, rfl⟩ := polite_iff.1 hp
        exact ⟨some (c, blanks), by simpa using ⟨hc, hb⟩, rfl⟩
    obtain ⟨k, hk, rfl⟩ := keyword
    obtain ⟨c, hc, rfl⟩ := courtesy
    exact ⟨⟨k, c, ws⟩, ⟨hk, hc, length, valid, rfl⟩, rfl⟩
  · rintro ⟨⟨k, c, ws⟩, ⟨hk, hc, length, valid, rfl⟩, rfl⟩
    refine ⟨length, valid, _, ⟨_, _, rfl, ?_, ?_⟩, rfl⟩
    · cases k with
      | none => exact .inl rfl
      | some p => exact .inr ⟨p.1, p.2, hk p rfl, rfl⟩
    · cases c with
      | none => exact .inl rfl
      | some p => exact .inr ⟨_, p.2, polite_iff.2 ⟨p.1, (hc p rfl).1, rfl⟩, (hc p rfl).2, rfl⟩

/-! ## The order of preference -/

/-- A preference that is decided by one thing, and by another where the two do not differ in it. -/
private theorem not_preferred {α : Type} (before : α → α → Prop)
    (asymm : ∀ {x y}, before x y → ¬ before y x) {x y : α} {p q : Prop} (later : p → ¬ q)
    (h : before x y ∨ x = y ∧ p) : ¬ (before y x ∨ y = x ∧ q) := by
  rcases h with h | ⟨rfl, h⟩
  · rintro (h' | ⟨rfl, -⟩)
    · exact asymm h h'
    · exact asymm h h
  · rintro (h' | ⟨-, h'⟩)
    · exact asymm h' h'
    · exact later h h'

theorem Courtesy.Before.asymm {c d : Courtesy} (h : c.Before d) : ¬ d.Before c := by
  unfold Courtesy.Before at *
  omega

theorem WordsFirst.asymm {ι : Type} {before : ι → ι → Prop}
    (asymm : ∀ {i j}, before i j → ¬ before j i) {x y : Option (ι × List Char)}
    (h : WordsFirst before x y) : ¬ WordsFirst before y x := by
  cases x with
  | none => cases h
  | some p =>
    cases y with
    | none => exact id
    | some q =>
      have h : Prod.Lex before (Choices.ByLength true) p q := h
      show ¬ Prod.Lex before (Choices.ByLength true) q p
      rw [Prod.lex_def] at *
      exact not_preferred before asymm Choices.ByLength.asymm h

theorem Written.Before.asymm {short : Bool} {v w : Written} (h : v.Before short w) :
    ¬ w.Before short v := by
  rintro ⟨hv, hw | hw⟩
  · exact hw h.1
  · exact Choices.ByLength.asymm hw (h.2.resolve_left (absurd hv))

theorem TermsBefore.asymm {flags : List Bool} {vs ws : List Written} (h : TermsBefore flags vs ws) :
    ¬ TermsBefore flags ws vs := by
  induction flags generalizing vs ws with
  | nil => exact h.elim
  | cons short flags ih =>
    cases vs with
    | nil => exact h.elim
    | cons v vs =>
      cases ws with
      | nil => exact h.elim
      | cons w ws => exact not_preferred (Written.Before short) Written.Before.asymm ih h

/-- Of two ways at most one is preferred to the other. -/
theorem Way.Before.asymm {flags : List Bool} {x y : Way} (h : x.Before flags y) :
    ¬ y.Before flags x := by
  refine not_preferred (WordsFirst _) (WordsFirst.asymm False.elim) ?_ h
  exact not_preferred (WordsFirst _) (WordsFirst.asymm Courtesy.Before.asymm) TermsBefore.asymm

namespace Template

/-! ## The expressions of the opening words -/

/-- Blanks, as many as possible. -/
theorem offers_blanks : blanks.readings.Offers (.texts FormName IsBlanks true) := offers_oneOrMore

/-- Choices without groups. -/
def phrases {ι : Type} (valid : ι → Prop) (text : ι → List Char) (before : ι → ι → Prop) :
    Choices FormName ι := ⟨valid, text, fun _ => [], before⟩

/-- Phrases that are followed by blanks, or nothing. -/
def spoken {ι : Type} (C : Choices FormName ι) : Choices FormName (Option (ι × List Char)) :=
  phrases (fun o => ∀ p ∈ o, C.valid p.1 ∧ IsBlanks p.2)
    (fun o => o.elim [] fun p => C.text p.1 ++ p.2) (WordsFirst C.before)

/-- One of several phrases and blanks, or nothing. -/
theorem offers_opening {ι : Type} {strings : List String} {valid : ι → Prop}
    {text : ι → List Char} {before : ι → ι → Prop}
    (h : (Regex.alternatives (strings.map fun p => spaced (Text.words p.toList))).readings.Offers
      (phrases valid text before)) :
    (opening strings).readings.Offers (spoken (phrases valid text before)) := by
  have words : (Regex.group (Regex.cat (.group _) blanks)).readings.Offers _ :=
    h.andThen offers_blanks
  refine (offers_optional words).rename id (fun o => ⟨fun h => ⟨o, h, rfl⟩, ?_⟩) (fun o _ => rfl)
    (fun o _ => ?_) (fun _ _ _ _ _ h => h)
  · rintro ⟨_, h, rfl⟩
    exact h
  · cases o <;> rfl

/-- The texts of two keywords do not start each other. -/
theorem not_prefix_of_ne {k l : Keyword} (h : k ≠ l) : ¬ k.word.toList <+: l.word.toList := by
  cases k <;> cases l <;> first | exact absurd rfl h | decide

theorem words_keyword (k : Keyword) : Text.words k.word.toList = [k.word.toList] := by
  cases k <;> decide

/-- One of the keywords. -/
def keywords : Choices FormName Keyword :=
  phrases (fun _ => True) (fun k => k.word.toList) fun _ _ => False

theorem offers_keyword (k : Keyword) :
    (spaced (Text.words k.word.toList)).readings.Offers (keywords.ofKind (id · = k)) := by
  rw [words_keyword]
  refine (offers_text k.word.toList).rename (fun _ => k) (fun l => ?_) (fun _ _ => rfl)
    (fun _ _ => rfl) fun _ _ _ _ _ h => h
  constructor
  · rintro ⟨rfl, -⟩
    exact ⟨(), trivial, rfl⟩
  · rintro ⟨-, -, rfl⟩
    exact ⟨rfl, trivial⟩

theorem offers_keywords : (Regex.alternatives ((Keyword.all.map Keyword.word).map
    fun p => spaced (Text.words p.toList))).readings.Offers keywords := by
  rw [List.map_map]
  refine (offers_alternatives (List.cons_ne_nil _ _) (fun k _ => offers_keyword k) ?_).rename id
    (fun k => ?_) (fun _ _ => rfl) (fun _ _ => rfl) fun _ _ _ _ _ h => h
  · have apart : Keyword.all.Pairwise (· ≠ ·) := by decide
    refine apart.imp fun hne cs k l hk hl ⟨_, hstart⟩ ⟨_, hstart'⟩ => ?_
    obtain rfl : k = _ := hk
    obtain rfl : l = _ := hl
    rcases List.prefix_or_prefix_of_prefix hstart hstart' with h | h
    · exact not_prefix_of_ne hne h
    · exact not_prefix_of_ne hne.symm h
  · have every : k ∈ Keyword.all := by cases k <;> decide
    exact ⟨fun h => ⟨k, ⟨every, h⟩, rfl⟩, fun _ => trivial⟩

/-- One of the politeness phrases. -/
def courtesies : Choices FormName Courtesy := phrases Courtesy.Valid Courtesy.text Courtesy.Before

/-- The expression of the phrase in a place of the order. -/
def courtesyExpression : Nat → Regex FormName
  | 0 => .text "the".toList
  | 1 => .text "I'm".toList
  | 2 => .cat (.text "I".toList) (.cat blanks (.text "am".toList))
  | _ => .text "I".toList

theorem spaced_politeness : (politeness.map fun p => spaced (Text.words p.toList)) =
    [0, 1, 2, 3].map courtesyExpression := by
  have the : Text.words "the".toList = ["the".toList] := by decide
  have contracted : Text.words "I'm".toList = ["I'm".toList] := by decide
  have iAm : Text.words "I am".toList = ["I".toList, "am".toList] := by decide
  have i : Text.words "I".toList = ["I".toList] := by decide
  simp only [politeness, List.map_cons, List.map_nil, the, contracted, iAm, i]
  rfl

theorem offers_courtesy {rank : Nat} (h : rank ∈ [0, 1, 2, 3]) :
    (courtesyExpression rank).readings.Offers (courtesies.ofKind (Courtesy.rank · = rank)) := by
  have single (c : Courtesy) (valid : c.Valid) (alone : ∀ d : Courtesy, d.rank = c.rank → d = c) :
      (Regex.text c.text).readings.Offers (courtesies.ofKind (Courtesy.rank · = c.rank)) := by
    refine (offers_text c.text).rename (fun _ => c) (fun d => ?_) (fun _ _ => rfl)
      (fun _ _ => rfl) fun _ _ _ _ _ h => h.elim
    constructor
    · rintro ⟨hd, -⟩
      exact ⟨(), trivial, (alone d hd).symm⟩
    · rintro ⟨-, -, rfl⟩
      exact ⟨rfl, valid⟩
  simp only [List.mem_cons, List.not_mem_nil, or_false] at h
  rcases h with rfl | rfl | rfl | rfl
  · exact single .the trivial fun d hd => by cases d <;> first | rfl | cases hd
  · exact single .contracted trivial fun d hd => by cases d <;> first | rfl | cases hd
  · refine (offers_cat (offers_text _) (offers_cat offers_blanks (offers_text _))).rename
      (fun p => .iAm p.2.1) (fun d => ?_) (fun _ _ => rfl) (fun _ _ => rfl)
      fun _ _ _ _ _ h => .inr ⟨rfl, ?_⟩
    · constructor
      · cases d <;> rintro ⟨hd, valid⟩
        case iAm blanks => exact ⟨((), blanks, ()), ⟨trivial, valid, trivial⟩, rfl⟩
        all_goals cases hd
      · rintro ⟨_, ⟨-, valid, -⟩, rfl⟩
        exact ⟨rfl, valid⟩
    · rcases h with ⟨_, _, h⟩ | ⟨_, ⟨_, _, h⟩ | ⟨_, h⟩⟩
      · exact h.elim
      · exact h
      · exact h.elim
  · exact single .i trivial fun d hd => by cases d <;> first | rfl | cases hd

theorem offers_courtesies : (Regex.alternatives
    (politeness.map fun p => spaced (Text.words p.toList))).readings.Offers courtesies := by
  rw [spaced_politeness]
  refine (offers_alternatives (List.cons_ne_nil _ _) (fun _ => offers_courtesy) ?_).rename id
    (fun c => ?_) (fun _ _ => rfl) (fun _ _ => rfl) fun _ _ _ _ _ h => h
  · have ascending : [0, 1, 2, 3].Pairwise (· < ·) := by decide
    exact ascending.imp fun hlt _ c d hc hd _ _ => .inl (hc ▸ hd ▸ hlt)
  · have every : c.rank ∈ [0, 1, 2, 3] := by cases c <;> simp [Courtesy.rank]
    exact ⟨fun h => ⟨c, ⟨every, h⟩, rfl⟩, fun ⟨_, ⟨_, h⟩, e⟩ => e ▸ h⟩

/-- A keyword or none, and then a politeness phrase or none. -/
theorem offers_openingWords :
    openingWords.readings.Offers ((spoken keywords).andThen (spoken courtesies)) :=
  offers_cat (offers_opening offers_keywords) (offers_opening offers_courtesies)

/-! ## The expressions of terms -/

/-- The terms for the placeholder with an index. -/
def terms (index : Nat) (short : Bool) : Choices FormName Written :=
  ⟨Written.Valid, Written.text, fun w => [((index, w.origin), w.term)], Written.Before short⟩

/-- The text inside delimiters, as long as possible; there may be nothing to choose. -/
theorem offers_delimited {index : Nat} {short : Bool} {o : Origin} {first last : Char}
    {body : Regex FormName} {inside : List Char → Prop} (ho : o.delimiters? = some (first, last))
    (valid : ∀ term, Written.Valid ⟨o, term⟩ ↔ inside term)
    (h : body.readings.Offers (.texts FormName inside true)) :
    (Regex.sequence [.text [first], .named (index, o) body, .text [last]]).readings.Offers
      ((terms index short).ofKind (·.origin = o)) := by
  have bare : o ≠ .fallthrough := by
    rintro rfl
    cases ho
  have text (term : List Char) (h : inside term) :
      Written.text ⟨o, term⟩ = first :: term ++ [last] := by
    obtain ⟨_, _, ho', text, -⟩ := ((valid term).2 h).delimited.resolve_left bare
    cases ho.symm.trans ho'
    exact text
  refine (offers_cat (offers_text _) (offers_cat (offers_named _ h)
    (offers_cat (offers_text _) offers_empty))).rename (fun p => ⟨o, p.2.1⟩) (fun w => ?_)
    (fun p hp => ?_) (fun _ _ => rfl) (fun cs p q hp hq hpq => ?_)
  · constructor
    · rintro ⟨rfl, hw⟩
      exact ⟨((), w.term, (), ()), ⟨trivial, (valid _).1 hw, trivial, trivial⟩, rfl⟩
    · rintro ⟨p, ⟨-, hp, -⟩, rfl⟩
      exact ⟨rfl, (valid _).2 hp⟩
  · exact text p.2.1 hp.2.1
  -- a second term of this form does not fit
  · have fits {p : Unit × List Char × Unit × Unit} (hp : inside p.2.1 ∧
        first :: p.2.1 ++ [last] <+: cs) :
        Written.Valid ⟨o, p.2.1⟩ ∧ Written.text ⟨o, p.2.1⟩ <+: cs :=
      ⟨(valid _).2 hp.1, (text _ hp.1).symm ▸ hp.2⟩
    have hp := fits (p := p) ⟨hp.1.2.1, hp.2⟩
    have hq := fits (p := q) ⟨hq.1.2.1, hq.2⟩
    have same := Written.eq_of_prefix hp.1 hq.1 bare bare hp.2 hq.2
    rcases hpq with ⟨_, _, h⟩ | ⟨_, ⟨_, _, h⟩ | ⟨_, ⟨_, _, h⟩ | ⟨_, h⟩⟩⟩
    · exact h.elim
    · cases same
      exact absurd h (Nat.lt_irrefl _)
    · exact h.elim
    · exact h.elim

theorem isRun_inside {last : Char} {w : List Char} : IsRun (inside last) w ↔ last ∉ w := by
  simp only [IsRun, inside, CharSet.contains, Bool.not_eq_true', beq_eq_false_iff_ne]
  exact ⟨fun h hw => h last hw rfl, fun h c hc heq => h (heq ▸ hc)⟩

theorem isRun_notNewline {w : List Char} : IsRun .notNewline w ↔ '\n' ∉ w := by
  simp only [IsRun, CharSet.contains, bne_iff_ne]
  exact ⟨fun h hw => h '\n' hw rfl, fun h c hc heq => h (heq ▸ hc)⟩

/-- A bare term, as long as possible or as short as possible. -/
theorem offers_bare (index : Nat) (short : Bool) :
    (Regex.named (index, Origin.fallthrough)
      (.times (.oneOf .notNewline) 1 none !short)).readings.Offers
      ((terms index short).ofKind (·.origin = .fallthrough)) := by
  refine (offers_named _ offers_oneOrMore).rename (fun term => ⟨.fallthrough, term⟩) (fun w => ?_)
    (fun _ _ => rfl) (fun _ _ => rfl) fun _ _ _ _ _ h => ⟨rfl, .inr h⟩
  constructor
  · obtain ⟨o, term⟩ := w
    rintro ⟨rfl, hne, hline⟩
    exact ⟨term, ⟨hne, isRun_notNewline.2 hline⟩, rfl⟩
  · rintro ⟨term, ⟨hne, hline⟩, rfl⟩
    exact ⟨rfl, hne, isRun_notNewline.1 hline⟩

/-- A term in one form. -/
theorem offers_form (index : Nat) (short : Bool) {o : Origin} (ho : o ∈ Origin.forms) :
    (form index short o).readings.Offers ((terms index short).ofKind (·.origin = o)) := by
  have filled {last : Char} (term : List Char) :
      (term ≠ [] ∧ last ∉ term) ↔ term ≠ [] ∧ IsRun (inside last) term :=
    and_congr_right' isRun_inside.symm
  cases o with
  | statement => simp [Origin.forms] at ho
  | quoted => exact offers_delimited rfl (fun _ => isRun_inside.symm) offers_zeroOrMore
  | fallthrough =>
    have h := offers_bare index short
    cases short <;> exact h
  | _ => exact offers_delimited rfl filled offers_oneOrMore

/-- A term in any form. -/
theorem offers_term (index : Nat) (short : Bool) :
    (term index short).readings.Offers (terms index short) := by
  refine (offers_alternatives (List.cons_ne_nil _ _) (fun _ => offers_form index short) ?_).rename
    id (fun w => ?_) (fun _ _ => rfl) (fun _ _ => rfl) fun _ _ _ _ _ h => h
  · have apart : Origin.forms.Pairwise fun o o' => o ≠ .fallthrough ∧ o ≠ o' := by decide
    refine apart.imp fun ⟨first, ne⟩ cs v w hv hw fv fw => ?_
    by_cases bare : w.origin = .fallthrough
    · exact ⟨bare, .inl (hv ▸ first)⟩
    · have same := Written.eq_of_prefix fv.1 fw.1 (hv ▸ first) bare fv.2 fw.2
      exact absurd (hv.symm.trans (same ▸ hw)) ne
  · have form (h : w.Valid) : w.origin ∈ Origin.forms := by
      obtain ⟨o, term⟩ := w
      cases o with
      | statement => exact h.elim
      | _ => simp [Origin.forms]
    exact ⟨fun h => ⟨w, ⟨form h, h⟩, rfl⟩, fun ⟨_, ⟨_, h⟩, e⟩ => e ▸ h⟩

/-! ## The expressions of tokens -/

/-- The groups that terms are recorded in, of which the first belongs to the placeholder with the
given index; the latest first. -/
def groups : (index : Nat) → List Written → List (FormName × List Char)
  | _, [] => []
  | index, w :: ws => groups (index + 1) ws ++ [((index, w.origin), w.term)]

/-- The terms for the placeholders among tokens, of which the first has the given index. -/
def fillings (index : Nat) (tokens : List Token) : Choices FormName (List Written) where
  valid ws := ws.length = (slots tokens).length ∧ ∀ w ∈ ws, w.Valid
  text := spell (segments tokens)
  found := groups index
  before := TermsBefore (shorts (slots tokens))

/-- A placeholder is as short as possible if the order of preference says so. -/
theorem short_eq (position : Nat) (label : String) (domain : Option String) (rest : List Token) :
    shorts (slots (.slot position label domain :: rest)) =
      (domain == some Domain.statement && rest.any (·.placeholder?.isSome)) ::
        shorts (slots rest) := by
  have statement : (domain.getD Domain.string == Domain.statement) =
      (domain == some Domain.statement) := by
    cases domain with
    | none => decide
    | some d => rfl
  have more : (!(slots rest).isEmpty) = rest.any (·.placeholder?.isSome) := by
    induction rest with
    | nil => rfl
    | cons token rest ih =>
      cases h : token.placeholder? <;> simp_all [slots]
  show (_ && _) :: _ = _
  rw [← more, ← statement]
  rfl

/-- Literal texts and terms, of which an earlier one outweighs the later ones. -/
theorem offers_body (index : Nat) (tokens : List Token) :
    (Regex.sequence (body index tokens)).readings.Offers (fillings index tokens) := by
  have literal {index : Nat} {token : Token} {rest : List Token} (cs : List Char)
      (slots_eq : slots (token :: rest) = slots rest)
      (segments_eq : segments (token :: rest) = prepend cs (segments rest))
      (ih : (Regex.sequence (body index rest)).readings.Offers (fillings index rest)) :
      (Regex.cat (.text cs) (.sequence (body index rest))).readings.Offers
        (fillings index (token :: rest)) := by
    refine (offers_cat (offers_text cs) ih).rename Prod.snd (fun ws => ?_) (fun p _ => ?_)
      (fun p _ => ?_) fun _ p q _ _ h => ?_
    · simp only [fillings, slots_eq]
      exact ⟨fun h => ⟨((), ws), ⟨trivial, h⟩, rfl⟩, fun ⟨_, ⟨_, h⟩, e⟩ => e ▸ h⟩
    · show spell (segments (token :: rest)) p.2 = _
      rw [segments_eq, spell_prepend cs (segments_ne_nil rest)]
      rfl
    · exact (List.append_nil _).symm
    · simp only [fillings, slots_eq]
      rcases h with ⟨_, _, h⟩ | ⟨_, h⟩
      · exact h.elim
      · exact h
  induction tokens generalizing index with
  | nil =>
    refine offers_empty.rename (fun _ => []) (fun ws => ?_) (fun _ _ => rfl) (fun _ _ => rfl)
      fun _ _ _ _ _ h => h
    constructor
    · rintro ⟨length, -⟩
      exact ⟨(), trivial, (List.eq_nil_of_length_eq_zero length).symm⟩
    · rintro ⟨-, -, rfl⟩
      exact ⟨rfl, by simp⟩
  | cons token rest ih =>
    cases token with
    | literal cs => exact literal cs rfl rfl (ih index)
    | strayOpen _ => exact literal ['{'] rfl rfl (ih index)
    | strayClose _ => exact literal ['}'] rfl rfl (ih index)
    | slot position label domain =>
      refine (offers_cat (offers_term index _) (ih (index + 1))).rename (fun p => p.1 :: p.2)
        (fun ws => ?_) (fun _ _ => rfl) (fun _ _ => rfl) fun _ p q _ _ h => ?_
      · constructor
        · rintro ⟨length, valid⟩
          obtain ⟨w, ws, rfl⟩ := List.exists_cons_of_length_eq_add_one length
          obtain ⟨hw, hws⟩ := List.forall_mem_cons.1 valid
          exact ⟨(w, ws), ⟨hw, Nat.succ.inj length, hws⟩, rfl⟩
        · rintro ⟨p, ⟨hw, length, hws⟩, rfl⟩
          exact ⟨congrArg (· + 1) length, List.forall_mem_cons.2 ⟨hw, hws⟩⟩
      · simp only [fillings, short_eq]
        exact Prod.lex_def.1 h

end Template

end PlainSteps
