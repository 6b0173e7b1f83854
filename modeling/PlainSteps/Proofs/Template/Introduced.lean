import Mathlib.Data.List.TakeWhile
import PlainSteps.Proofs.Template.Phrase
import PlainSteps.Proofs.Template.Preferred

/-!
# Lines that a keyword introduces

A keyword and blanks in front of a line change nothing of what a template or an exact step captures,
unless the line opens with a keyword of its own. A template tries its keyword first and takes all
blanks after it, so the rest is read as the line was; an exact step skips the same.

* `Phrase.OpensWithKeyword`: a text opens with a keyword that blanks follow.
* `Way.IsFirst.introduced`: the preferred way to read a line stays so after a keyword.
* `Phrase.normalize_introduced`: so does the form under which exact steps are compared.
* `match?_introduced`: what a form captures.

Proof-only: no module that runs imports this one.
-/

namespace PlainSteps

/-- Whether a text opens with a keyword and a blank after it. -/
def Phrase.OpensWithKeyword (cs : List Char) : Prop :=
  ∃ (k : Keyword) (c : Char) (rest : List Char), Text.isBlank c = true ∧
    cs = k.word.toList ++ c :: rest

/-! ## Templates -/

section Way

variable {tokens : List Template.Token} {line : List Char}

/-- A line that does not open with a keyword is read without one. -/
theorem Way.Describes.keyword_eq_none {way : Way} (h : way.Describes tokens line)
    (plain : ¬ Phrase.OpensWithKeyword line) : way.keyword = none := by
  cases keyword : way.keyword with
  | none => rfl
  | some p =>
    obtain ⟨k, blanks⟩ := p
    have spaced : IsBlanks blanks := h.keyword _ keyword
    obtain ⟨c, more, rfl⟩ := List.exists_cons_of_ne_nil spaced.1
    refine absurd ⟨k, c, ?_, spaced.2 c List.mem_cons_self, ?_⟩ plain
    · exact more ++ ((way.courtesy.elim [] fun p => p.1.text ++ p.2) ++
        Template.spell (Template.segments tokens) way.terms)
    · rw [← h.split, Way.opening, keyword]
      simp

/-- A way with its keyword replaced. -/
def Way.after (keyword : Option (Keyword × List Char)) (way : Way) : Way :=
  { way with keyword := keyword }

/-- A way to read a line without a keyword is one to read it after a keyword. -/
theorem Way.Describes.introduced {way : Way} (h : way.Describes tokens line)
    (bare : way.keyword = none) (k : Keyword) {blanks : List Char} (spaced : IsBlanks blanks) :
    (way.after (some (k, blanks))).Describes tokens (k.word.toList ++ (blanks ++ line)) where
  keyword p hp := by
    obtain rfl := Option.some.inj hp
    exact spaced
  courtesy := h.courtesy
  length := h.length
  valid := h.valid
  split := by
    rw [← h.split, Way.opening, Way.opening, bare]
    simp [Way.after]

/-- What is left of a way that reads a line after all its blanks reads the line alone. -/
theorem Way.Describes.alone {way : Way} {k : Keyword} {blanks : List Char}
    (h : way.Describes tokens (k.word.toList ++ (blanks ++ line)))
    (own : way.keyword = some (k, blanks)) : (way.after none).Describes tokens line where
  keyword p hp := by cases hp
  courtesy := h.courtesy
  length := h.length
  valid := h.valid
  split := by
    have split := h.split
    rw [Way.opening, own] at split
    simpa [Way.opening, Way.after] using split

/-- Of the blanks in front of a solid text, others take a part. -/
theorem IsBlanks.prefix_of_append {blanks others more : List Char} (h : IsBlanks others)
    (solid : line.head?.any Text.isBlank = false) (same : others ++ more = blanks ++ line) :
    others <+: blanks := by
  rcases List.append_eq_append_iff.1 same with ⟨left_, rfl, -⟩ | ⟨left_, rfl, rfl⟩
  · exact List.prefix_append _ _
  · cases left_ with
    | nil => simp
    | cons c left_ =>
      have blank := h.2 c (by simp)
      have none_ : Text.isBlank c = false := solid
      rw [none_] at blank
      cases blank

/-- After a keyword and all blanks, a line that does not open with a keyword is read as it is
without them. -/
theorem Way.IsFirst.introduced {first : Way} (h : first.IsFirst tokens line)
    (solid : line.head?.any Text.isBlank = false) (plain : ¬ Phrase.OpensWithKeyword line)
    (k : Keyword) {blanks : List Char} (spaced : IsBlanks blanks) :
    (first.after (some (k, blanks))).IsFirst tokens (k.word.toList ++ (blanks ++ line)) where
  describes := h.describes.introduced (h.describes.keyword_eq_none plain) k spaced
  preferred way describes := by
    cases keyword : way.keyword with
    | none =>
      -- Words are preferred to none.
      right; left
      rw [keyword]
      trivial
    | some p =>
      obtain ⟨l, others⟩ := p
      have split := describes.split
      rw [Way.opening, keyword] at split
      simp only [Option.elim_some, List.append_assoc] at split
      have same : k = l := by
        by_contra ne
        rcases List.prefix_or_prefix_of_prefix ⟨_, rfl⟩ ⟨_, split⟩ with before | before
        · exact Template.not_prefix_of_ne ne before
        · exact Template.not_prefix_of_ne (Ne.symm ne) before
      subst same
      have part : others <+: blanks :=
        (describes.keyword _ keyword).prefix_of_append solid (List.append_cancel_left split)
      by_cases all : others = blanks
      · subst all
        -- All blanks are taken, so what is left is a way to read the line.
        rcases h.preferred _ (describes.alone keyword) with same | before
        · left
          rw [← same]
          cases way
          cases keyword
          rfl
        · right; right
          refine ⟨keyword.symm, ?_⟩
          rcases before with before | ⟨-, before⟩
          · rw [h.describes.keyword_eq_none plain] at before
            exact before.elim
          · exact before
      · -- More blanks are preferred to fewer.
        have fewer : others.length < blanks.length :=
          lt_of_le_of_ne part.length_le fun length => all (part.eq_of_length length)
        right; left
        rw [keyword]
        exact Prod.lex_def.2 (.inr ⟨rfl, fewer⟩)

end Way

/-- A template captures the terms of the preferred way. -/
theorem Way.IsFirst.captures? {first : Way} {t : Template} {tokens : List Template.Token}
    (matcher : t.matcher = Template.matcherOf tokens) (schema : t.schema = Template.slots tokens)
    {line : String} (h : first.IsFirst tokens (Text.trim line.toList)) :
    t.captures? line = some (List.zipWith Written.capture t.schema first.terms) := by
  rcases Template.captures?_first matcher schema line with
    ⟨-, -, never⟩ | ⟨other, describes, preferred, -, found⟩
  · exact absurd h.describes (never first)
  · rw [found, h.unique ⟨describes, schema ▸ preferred⟩]

/-! ## Exact steps -/

theorem Phrase.afterKeyword?_of_plain {cs : List Char} (plain : ¬ OpensWithKeyword cs) :
    afterKeyword? cs = none := by
  have each (k : Keyword) : afterWord? k.word.toList cs = none := by
    refine afterWord?_eq_none fun rest whole => ?_
    cases rest with
    | nil => rfl
    | cons c rest =>
      exact Bool.eq_false_iff.2 fun blank => plain ⟨k, c, rest, blank, whole⟩
  simp [afterKeyword?, Keyword.all, each]

theorem Phrase.normalize_introduced {line introduced : List Char} {k : Keyword}
    {blanks : List Char} (spaced : IsBlanks blanks) (plain : ¬ OpensWithKeyword (Text.trim line))
    (whole : Text.trim introduced = k.word.toList ++ (blanks ++ Text.trim line)) :
    normalize introduced = normalize line := by
  have taken : afterKeyword? (Text.trim introduced) = some (k, Text.trim line) := by
    rw [whole]
    exact afterKeyword?_append k spaced (Text.isTrimmed_trim line).1
  unfold normalize
  rw [strip_of_keyword taken, strip_of_no_keyword (afterKeyword?_of_plain plain)]

/-! ## Forms -/

/-- A keyword and blanks, those in front of the line included, come before what is left of it. -/
theorem trim_introduced (k : Keyword) (blanks : List Char) {line : List Char}
    (ne : Text.trim line ≠ []) : Text.trim (k.word.toList ++ blanks ++ line) =
      k.word.toList ++ ((blanks ++ line.takeWhile Text.isBlank) ++ Text.trim line) := by
  have solid : (k.word.toList ++ blanks).head?.any Text.isBlank = false := by
    cases k <;> rfl
  have filled : k.word.toList ++ blanks ≠ [] := by cases k <;> simp [Keyword.word]
  rw [Text.trim_append solid filled ne]
  simp only [List.append_assoc]

/-- What the form of a template or of an exact step captures from a line that does not open with a
keyword, it captures also where a keyword and blanks are put in front of the line. -/
theorem match?_introduced {known : List String} {form : StepForm} {m : Matcher}
    (read : Matcher.ofForm known form = .ok m) (noPattern : ∀ text, form ≠ .pattern text)
    (k : Keyword) {blanks : List Char} (spaced : IsBlanks blanks) {line : String}
    (ne : Text.trim line.toList ≠ [])
    (plain : ¬ Phrase.OpensWithKeyword (Text.trim line.toList)) {captures : List Capture}
    (h : m.match? line = some captures) :
    m.match? (k.word ++ String.ofList blanks ++ line) = some captures := by
  let leading := line.toList.takeWhile Text.isBlank
  have whole : Text.trim (k.word ++ String.ofList blanks ++ line).toList =
      k.word.toList ++ ((blanks ++ leading) ++ Text.trim line.toList) := by
    rw [String.toList_append, String.toList_append, String.toList_ofList]
    exact trim_introduced k blanks ne
  have allBlanks : IsBlanks (blanks ++ leading) := by
    refine ⟨by simp [spaced.1], fun c hc => ?_⟩
    rcases List.mem_append.1 hc with hc | hc
    · exact spaced.2 c hc
    · exact List.mem_takeWhile_imp hc
  cases form with
  | pattern text => exact absurd rfl (noPattern text)
  | exact text =>
    cases read
    change (if _ then _ else _) = _ at h ⊢
    rw [Phrase.normalize_introduced allBlanks plain whole]
    exact h
  | template text =>
    obtain ⟨t, compiled, rfl⟩ := ok_of_map read
    obtain ⟨tokens, -, matcher, schema⟩ := Template.read_eq_ok (Template.read_of_compile compiled)
    change t.captures? _ = _ at h ⊢
    rcases Template.captures?_first matcher schema line with
      ⟨-, nothing, -⟩ | ⟨first, describes, preferred, -, found⟩
    · rw [nothing] at h
      cases h
    · have isFirst : first.IsFirst tokens (Text.trim line.toList) := ⟨describes, schema ▸ preferred⟩
      have after := isFirst.introduced (Text.isTrimmed_trim _).1 plain k allBlanks
      rw [← whole] at after
      rw [after.captures? matcher schema, ← h, found]
      rfl

/-- The tokens of a template that starts with a placeholder. -/
def waitsTokens : List Template.Token := [.slot 0 "who" none, .literal " waits".toList]

/-- This template. -/
def waitsTemplate : Template :=
  ⟨"\x7bwho\x7d waits", Template.matcherOf waitsTokens, Template.slots waitsTokens⟩

/-- The keyword is not a part of the term that starts the line. -/
theorem match?_introduced_waits :
    (Matcher.template waitsTemplate).match? "When \t  old Bob waits" =
      some [⟨"who", "old Bob", .fallthrough, Domain.string⟩] := by
  have scanned : Template.tokens waitsTemplate.text = .ok waitsTokens := by decide +kernel
  have compiled : Template.compile (some [Domain.string]) waitsTemplate.text =
      .ok waitsTemplate :=
    Template.compile_of_tokens scanned (by decide) (by decide) (by decide +kernel)
  have read : Matcher.ofForm [Domain.string] (.template waitsTemplate.text) =
      .ok (.template waitsTemplate) := by
    rw [Matcher.ofForm, compiled]
    rfl
  have plain : ¬ Phrase.OpensWithKeyword (Text.trim " old Bob waits".toList) := by
    rintro ⟨k, c, rest, -, whole⟩
    have trimmed : Text.trim " old Bob waits".toList = "old Bob waits".toList := by decide
    rw [trimmed] at whole
    cases k <;> exact absurd (List.cons.inj whole).1 (by decide)
  have spaced : IsBlanks [' ', '\t', ' '] := ⟨by simp, List.all_eq_true.1 (by decide)⟩
  have captured : (Matcher.template waitsTemplate).match? " old Bob waits" =
      some [⟨"who", "old Bob", .fallthrough, Domain.string⟩] := by decide +kernel
  exact match?_introduced read (by simp) .when spaced (by decide) plain captured

end PlainSteps
