import PlainSteps.Proofs.Template.Parts
import PlainSteps.Proofs.Text.Pieces
import PlainSteps.Step.Registry

/-!
# Phrases as templates and as exact steps

A phrase of plain words can be offered as a template or as an exact step. Both skip opening words,
but not the same: a template takes any blanks between `I` and `am`, while an exact step knows one
spelling of the phrase only, and takes it before it tries `I` alone.

* `IsPhrase`: plain words with single spaces between them, without opening words.
* `Template.tokens_phrase`: a phrase is a template of literal text.
* `Phrase.afterWord?_append`, `Phrase.afterPoliteness_append`: what an exact step skips.
* `Way.IsMisread`: opening words that an exact step does not take as a template does.
* `match?_exact_iff`: of the lines that a phrase matches as a template, those that it matches as an
  exact step.

Proof-only: no module that runs imports this one.
-/

namespace PlainSteps

/-- A text of plain words with single spaces between them, which starts with a small letter and has
no opening words. -/
structure IsPhrase (words : List (List Char)) (text : String) : Prop where
  split : text.toList = [' '].intercalate words
  ne_nil : words ≠ []
  solid : ∀ w ∈ words, w ≠ [] ∧ ∀ c ∈ w, Text.isBlank c = false
  plain : ∀ w ∈ words, '{' ∉ w ∧ '}' ∉ w ∧ '\\' ∉ w
  small : ∀ c ∈ text.toList.head?, Text.lower c = [c]
  bare : Phrase.strip text.toList = (none, text.toList)

/-! ## Templates of literal text -/

namespace Template

/-- Text without braces and backslashes is a template of one token. -/
theorem tokens_plain {text : String} (h : ∀ c ∈ text.toList, c ≠ '\\' ∧ c ≠ '{' ∧ c ≠ '}')
    (ne : text.toList ≠ []) : tokens text = .ok [.literal text.toList] := by
  have plain : text.toList.flatMap escaped = text.toList.flatMap fun c => [c] := by
    refine List.flatMap_congr fun c hc => if_neg ?_
    obtain ⟨backslash, opening, closing⟩ := h c hc
    simp [backslash, opening, closing]
  have whole : written [.literal text.toList] = text := by
    simp [written, Part.chars, plain]
  have proper : ∀ p ∈ [Part.literal text.toList], p.IsProper := List.forall_mem_singleton.2 ne
  rw [← whole, tokens_written proper (List.IsChain.singleton _), whole]
  rfl

end Template

/-! ## What an exact step skips -/

namespace Phrase

open Text (isBlank)

/-- A word is skipped with all blanks after it. -/
theorem afterWord?_append (word : List Char) {blanks rest : List Char} (h : IsBlanks blanks)
    (solid : rest.head?.any isBlank = false) :
    afterWord? word (word ++ (blanks ++ rest)) = some rest := by
  obtain ⟨c, more, rfl⟩ := List.exists_cons_of_ne_nil h.1
  obtain ⟨own, others⟩ := List.forall_mem_cons.1 h.2
  have skipped : Text.trimStart (more ++ rest) = rest := by
    rw [Text.trimStart, List.dropWhile_append_of_pos others]
    cases rest with
    | nil => rfl
    | cons d rest => exact List.dropWhile_cons_of_neg (Bool.eq_false_iff.1 solid)
  unfold afterWord?
  rw [Text.isPrefixOf?_eq_some_iff.2 rfl]
  simp only [List.cons_append, own, if_true, skipped]

/-- A word that does not start a text, or is not followed by a blank, is not skipped. -/
theorem afterWord?_eq_none {word cs : List Char}
    (h : ∀ rest, cs = word ++ rest → rest.head?.any isBlank = false) :
    afterWord? word cs = none := by
  unfold afterWord?
  split
  · next c rest found =>
    have solid : isBlank c = false := h _ (Text.isPrefixOf?_eq_some_iff.1 found)
    rw [solid]
    rfl
  · rfl

/-- A keyword is skipped with all blanks after it. -/
theorem afterKeyword?_append (k : Keyword) {blanks rest : List Char} (h : IsBlanks blanks)
    (solid : rest.head?.any isBlank = false) :
    afterKeyword? (k.word.toList ++ (blanks ++ rest)) = some (k, rest) := by
  have own := afterWord?_append k.word.toList h solid
  -- the keywords start with different letters
  have other (k' : Keyword) (ne : k' ≠ k) :
      afterWord? k'.word.toList (k.word.toList ++ (blanks ++ rest)) = none := by
    refine afterWord?_eq_none fun _ same => ?_
    cases k <;> cases k' <;>
      first | exact absurd rfl ne | exact absurd (List.cons.inj same).1 (by decide)
  cases k <;> simp [afterKeyword?, Keyword.all, own, other]

/-- A text that starts with the letter of no keyword has no keyword. -/
theorem afterKeyword?_eq_none {c : Char} {cs : List Char} (h : c ∉ ['G', 'W', 'T', 'A', 'B']) :
    afterKeyword? (c :: cs) = none := by
  have none_ (k : Keyword) : afterWord? k.word.toList (c :: cs) = none := by
    obtain ⟨letter, mem, word, spelled⟩ : ∃ letter ∈ ['G', 'W', 'T', 'A', 'B'], ∃ word,
        k.word.toList = letter :: word := by
      cases k <;> refine ⟨_, ?_, _, rfl⟩ <;> decide
    refine afterWord?_eq_none fun _ same => absurd ?_ h
    rw [spelled] at same
    rw [(List.cons.inj same).1]
    exact mem
  simp [afterKeyword?, Keyword.all, none_]

/-- Politeness phrases are tried in turn. -/
theorem afterPoliteness_eq (cs : List Char) :
    afterPoliteness cs = ((afterWord? "the".toList cs).or ((afterWord? "I'm".toList cs).or
      ((afterWord? "I am".toList cs).or (afterWord? "I".toList cs)))).getD cs := by
  unfold afterPoliteness politeness
  simp only [List.findSome?]
  cases afterWord? "the".toList cs <;> cases afterWord? "I'm".toList cs <;>
    cases afterWord? "I am".toList cs <;> cases afterWord? "I".toList cs <;> rfl

/-- After `I` and blanks, only the longer phrase is tried before `I` alone. -/
theorem afterPoliteness_I {blanks rest : List Char} (h : IsBlanks blanks)
    (solid : rest.head?.any isBlank = false) :
    afterPoliteness ('I' :: (blanks ++ rest)) =
      (afterWord? "I am".toList ('I' :: (blanks ++ rest))).getD rest := by
  have the : afterWord? "the".toList ('I' :: (blanks ++ rest)) = none :=
    afterWord?_eq_none fun _ same => absurd (List.cons.inj same).1 (by decide)
  have contracted : afterWord? "I'm".toList ('I' :: (blanks ++ rest)) = none := by
    refine afterWord?_eq_none fun _ same => ?_
    obtain ⟨c, more, rfl⟩ := List.exists_cons_of_ne_nil h.1
    have quote : c = '\'' := (List.cons.inj (List.cons.inj same).2).1
    have blank := h.2 c List.mem_cons_self
    rw [quote] at blank
    exact absurd blank (by decide)
  have alone : afterWord? "I".toList ('I' :: (blanks ++ rest)) = some rest :=
    afterWord?_append ['I'] h solid
  rw [afterPoliteness_eq, the, contracted, alone]
  cases afterWord? "I am".toList ('I' :: (blanks ++ rest)) <;> rfl

/-- After `I` and blanks, the longer phrase is tried in vain unless they are one space, and `am` and
a blank come after it. -/
theorem afterPoliteness_I_alone {blanks rest : List Char} (h : IsBlanks blanks)
    (solid : rest.head?.any isBlank = false)
    (apart : blanks = [' '] → ∀ more, rest = "am".toList ++ more → more.head?.any isBlank = false) :
    afterPoliteness ('I' :: (blanks ++ rest)) = rest := by
  have longer : afterWord? "I am".toList ('I' :: (blanks ++ rest)) = none := by
    refine afterWord?_eq_none fun after same => ?_
    obtain ⟨c, more, rfl⟩ := List.exists_cons_of_ne_nil h.1
    obtain ⟨space, same⟩ := List.cons.inj (List.cons.inj same).2
    cases more with
    | nil => exact apart (congrArg ([·]) space) after same
    | cons d more =>
      have blank := h.2 d (List.mem_cons_of_mem c List.mem_cons_self)
      rw [show d = 'a' from (List.cons.inj same).1] at blank
      exact absurd blank (by decide)
  rw [afterPoliteness_I h solid, longer]
  rfl

/-- With other blanks between its words than a space, only the start of `I am` is skipped. -/
theorem afterPoliteness_iAm {inner : List Char} (h : IsBlanks inner) (other : inner ≠ [' '])
    (rest : List Char) :
    afterPoliteness ((Courtesy.iAm inner).text ++ rest) = "am".toList ++ rest := by
  have taken : afterPoliteness ('I' :: (inner ++ ("am".toList ++ rest))) = "am".toList ++ rest :=
    afterPoliteness_I_alone h rfl fun single => absurd single other
  rw [← List.append_assoc inner] at taken
  exact taken

theorem strip_of_keyword {line rest : List Char} {k : Keyword}
    (h : afterKeyword? (Text.trim line) = some (k, rest)) :
    strip line = (some k, afterPoliteness rest) := by
  simp only [strip, h]

theorem strip_of_no_keyword {line : List Char} (h : afterKeyword? (Text.trim line) = none) :
    strip line = (none, afterPoliteness (Text.trim line)) := by
  simp only [strip, h]

end Phrase

/-! ## Phrases -/

namespace IsPhrase

open Phrase

variable {words : List (List Char)} {text : String} (h : IsPhrase words text)

include h

theorem isTrimmed : Text.IsTrimmed text.toList := by
  rw [h.split]
  exact Text.isTrimmed_intercalate h.solid

theorem text_ne_nil : text.toList ≠ [] := by
  rw [h.split]
  exact Text.intercalate_ne_nil h.solid h.ne_nil

theorem words_text : Text.words text.toList = words := by
  rw [h.split]
  exact Text.words_intercalate h.solid

/-- A phrase has no opening words. -/
theorem no_opening :
    afterKeyword? text.toList = none ∧ afterPoliteness text.toList = text.toList := by
  have bare := h.bare
  have whole := h.isTrimmed.trim_eq
  cases keyword : afterKeyword? text.toList with
  | some found =>
    rw [strip_of_keyword (whole.symm ▸ keyword)] at bare
    cases (Prod.ext_iff.1 bare).1
  | none =>
    rw [strip_of_no_keyword (whole.symm ▸ keyword), whole] at bare
    exact ⟨rfl, (Prod.ext_iff.1 bare).2⟩

/-- A phrase is its own normal form. -/
theorem decapitalize_text : decapitalize text.toList = text.toList := by
  obtain ⟨c, rest, first⟩ := List.exists_cons_of_ne_nil h.text_ne_nil
  have small := h.small c (by rw [first]; rfl)
  rw [first, decapitalize, small]
  rfl

theorem normalize_text : Phrase.normalize text.toList = text.toList := by
  rw [Phrase.normalize, h.bare, h.words_text, ← h.split, h.decapitalize_text]

theorem tokens_text : Template.tokens text = .ok [.literal text.toList] := by
  refine Template.tokens_plain (fun c hc => ?_) h.text_ne_nil
  rw [h.split] at hc
  rcases Text.mem_intercalate hc with hc | ⟨w, hw, hc⟩
  · rw [List.mem_singleton.1 hc]
    decide
  · obtain ⟨opening, closing, backslash⟩ := h.plain w hw
    refine ⟨?_, ?_, ?_⟩ <;> rintro rfl <;> contradiction

end IsPhrase

/-! ## Opening words of both -/

/-- What an exact step does not take as a template does: `I am` with other blanks than a space
between the words, and `I` with a space after it in front of a phrase that goes on with `am`. -/
def Courtesy.IsMisread (words : List (List Char)) (after : List Char) : Courtesy → Prop
  | .iAm blanks => blanks ≠ [' ']
  | .i => after = [' '] ∧ ∃ w ws, words = "am".toList :: w :: ws
  | _ => False

/-- Opening words that an exact step does not take as a template does. -/
def Way.IsMisread (words : List (List Char)) (way : Way) : Prop :=
  ∃ p ∈ way.courtesy, p.1.IsMisread words p.2

/-- After its keyword, a line of literal text has a politeness phrase or none, and the text. -/
theorem Way.Describes.split_literal {way : Way} {text line : List Char}
    (describes : way.Describes [.literal text] line) :
    line = (way.keyword.elim [] fun p => p.1.word.toList ++ p.2) ++
      ((way.courtesy.elim [] fun p => p.1.text ++ p.2) ++ text) := by
  have none_ : way.terms = [] := List.eq_nil_of_length_eq_zero describes.length
  have whole : Template.spell (Template.segments [.literal text]) [] = text := by
    simp [Template.spell, Template.segments, Template.prepend]
  rw [← describes.split, none_, whole, Way.opening, List.append_assoc]

theorem Phrase.length_decapitalize_le (cs : List Char) :
    (decapitalize cs).length ≤ cs.length + 1 := by
  cases cs with
  | nil => exact Nat.zero_le _
  | cons c cs =>
    have short : (Text.lower c).length ≤ 2 := by
      unfold Text.lower
      split
      · exact Nat.le_succ _
      · split
        · exact Nat.le_refl _
        · exact Nat.le_succ _
    rw [decapitalize, List.length_append, List.length_cons]
    omega

namespace IsPhrase

open Phrase

variable {words : List (List Char)} {text : String} (h : IsPhrase words text)

include h

/-- A phrase that goes on with a blank after `am` has this word and others. -/
theorem words_of_am {d : Char} {rest : List Char} (split : text.toList = "am".toList ++ d :: rest)
    (blank : Text.isBlank d = true) : ∃ w ws, words = "am".toList :: w :: ws := by
  have read : words = "am".toList :: Text.words rest := by
    rw [← h.words_text, split, Text.words_append_blank blank,
      Text.words_of_solid (by decide) (by simp; decide)]
    rfl
  cases others : Text.words rest with
  | nil =>
    rw [others] at read
    have short := h.split
    rw [read, List.intercalate_singleton, split] at short
    exact absurd (congrArg List.length short) (by simp)
  | cons w ws => exact ⟨w, ws, by rw [read, others]⟩

/-- A politeness phrase is skipped unless it is misread. -/
theorem afterPoliteness_courtesy {c : Courtesy} {blanks : List Char} (valid : c.Valid)
    (apart : IsBlanks blanks) (read : ¬ c.IsMisread words blanks) :
    afterPoliteness (c.text ++ (blanks ++ text.toList)) = text.toList := by
  have solid := h.isTrimmed.1
  cases c with
  | the =>
    rw [afterPoliteness_eq, Courtesy.text, afterWord?_append _ apart solid]
    rfl
  | contracted =>
    have other : afterWord? "the".toList ("I'm".toList ++ (blanks ++ text.toList)) = none :=
      afterWord?_eq_none fun _ same => absurd (List.cons.inj same).1 (by decide)
    rw [afterPoliteness_eq, Courtesy.text, other, afterWord?_append _ apart solid]
    rfl
  | iAm inner =>
    obtain rfl := not_not.1 read
    have own : afterWord? "I am".toList ("I am".toList ++ (blanks ++ text.toList)) =
        some text.toList := afterWord?_append _ apart solid
    have taken : afterPoliteness ('I' :: ([' '] ++ ("am".toList ++ (blanks ++ text.toList)))) = _ :=
      afterPoliteness_I valid rfl
    exact taken.trans (congrArg (Option.getD · _) own)
  | i =>
    refine afterPoliteness_I_alone apart solid fun single more split => Bool.eq_false_iff.2 fun
      blank => read ⟨single, ?_⟩
    cases more with
    | nil => cases blank
    | cons d more => exact h.words_of_am split blank

/-- What is left of a phrase after a misread politeness phrase has another normal form. -/
theorem decapitalize_ne_of_misread {c : Courtesy} {blanks : List Char} (valid : c.Valid)
    (apart : IsBlanks blanks) (misread : c.IsMisread words blanks) :
    decapitalize ([' '].intercalate
      (Text.words (afterPoliteness (c.text ++ (blanks ++ text.toList))))) ≠ text.toList := by
  cases c with
  | the => exact misread.elim
  | contracted => exact misread.elim
  -- only `I` is taken, and `am` is left as a word of its own
  | iAm inner =>
    obtain ⟨d, more, rfl⟩ := List.exists_cons_of_ne_nil apart.1
    obtain ⟨own, others⟩ := List.forall_mem_cons.1 apart.2
    have read : Text.words ("am".toList ++ (d :: more ++ text.toList)) = "am".toList :: words := by
      rw [List.cons_append, Text.words_append_blank own, Text.words_blanks_append others,
        Text.words_of_solid (by decide) (by simp; decide), h.words_text]
      rfl
    have joined : [' '].intercalate ("am".toList :: words) =
        'a' :: ("m ".toList ++ text.toList) := by
      obtain ⟨w, ws, rfl⟩ := List.exists_cons_of_ne_nil h.ne_nil
      rw [List.intercalate_cons_cons, ← h.split]
      rfl
    rw [afterPoliteness_iAm valid misread _, read, joined, decapitalize,
      show Text.lower 'a' = ['a'] by decide]
    intro same
    have length := congrArg List.length same
    simp at length
    omega
  -- `I am` is taken, and the word `am` of the phrase with it
  | i =>
    obtain ⟨rfl, w, ws, first⟩ := misread
    have split : text.toList = "am".toList ++ ([' '] ++ [' '].intercalate (w :: ws)) := by
      rw [h.split, first, List.intercalate_cons_cons, List.append_assoc]
    have below : ∀ u ∈ w :: ws, u ≠ [] ∧ ∀ c ∈ u, Text.isBlank c = false := fun u hu =>
      h.solid u (first ▸ List.mem_cons_of_mem _ hu)
    have own : afterWord? "I am".toList ('I' :: ([' '] ++ text.toList)) =
        some ([' '].intercalate (w :: ws)) := by
      rw [split]
      exact afterWord?_append "I am".toList apart (Text.isTrimmed_intercalate below).1
    have taken := afterPoliteness_I apart h.isTrimmed.1
    rw [own] at taken
    have left : afterPoliteness (Courtesy.i.text ++ ([' '] ++ text.toList)) =
        [' '].intercalate (w :: ws) := taken
    rw [left, Text.words_intercalate below]
    intro same
    have length := congrArg List.length same
    have le := length_decapitalize_le ([' '].intercalate (w :: ws))
    rw [split, List.length_append, List.length_append, show "am".toList.length = 2 by decide,
      List.length_singleton] at length
    omega

/-- What stands after the keyword starts neither with a blank nor with a keyword. -/
theorem no_keyword (courtesy : Option (Courtesy × List Char)) :
    (((courtesy.elim [] fun p => p.1.text ++ p.2) ++ text.toList).head?.any Text.isBlank = false) ∧
      afterKeyword? ((courtesy.elim [] fun p => p.1.text ++ p.2) ++ text.toList) = none := by
  cases courtesy with
  | none => exact ⟨h.isTrimmed.1, h.no_opening.1⟩
  | some p =>
    obtain ⟨c, blanks⟩ := p
    cases c with
    | the =>
      exact ⟨show Text.isBlank 't' = false by decide,
        afterKeyword?_eq_none (c := 't') (by decide)⟩
    | _ =>
      exact ⟨show Text.isBlank 'I' = false by decide,
        afterKeyword?_eq_none (c := 'I') (by decide)⟩

/-- The keyword of a line is skipped, whatever follows it. -/
theorem strip_eq {way : Way} {line : List Char}
    (describes : way.Describes [.literal text.toList] (Text.trim line)) :
    (strip line).2 =
      afterPoliteness ((way.courtesy.elim [] fun p => p.1.text ++ p.2) ++ text.toList) := by
  have split := describes.split_literal
  obtain ⟨solid, bare⟩ := h.no_keyword way.courtesy
  cases keyword : way.keyword with
  | none =>
    rw [keyword] at split
    rw [strip_of_no_keyword (split ▸ bare), split]
    rfl
  | some p =>
    rw [keyword, Option.elim_some, List.append_assoc] at split
    have skipped := afterKeyword?_append p.1 (describes.keyword p keyword) solid
    rw [← split] at skipped
    rw [strip_of_keyword skipped]

/-- The normal form of a described line is the phrase, unless its opening words are misread. -/
theorem normalize_eq_iff {way : Way} {line : List Char}
    (describes : way.Describes [.literal text.toList] (Text.trim line)) :
    Phrase.normalize line = text.toList ↔ ¬ way.IsMisread words := by
  rw [Phrase.normalize, h.strip_eq describes]
  cases courtesy : way.courtesy with
  | none =>
    have bare : ¬ way.IsMisread words := by
      rintro ⟨p, hp, -⟩
      rw [courtesy] at hp
      cases hp
    rw [Option.elim_none, List.nil_append, h.no_opening.2, h.words_text, ← h.split,
      h.decapitalize_text]
    exact iff_of_true rfl bare
  | some p =>
    obtain ⟨valid, apart⟩ := describes.courtesy p courtesy
    rw [Option.elim_some, List.append_assoc]
    by_cases misread : p.1.IsMisread words p.2
    · refine iff_of_false (h.decapitalize_ne_of_misread valid apart misread) ?_
      exact not_not.2 ⟨p, courtesy, misread⟩
    · rw [h.afterPoliteness_courtesy valid apart misread, h.words_text, ← h.split,
        h.decapitalize_text]
      refine iff_of_true rfl ?_
      rintro ⟨q, hq, also⟩
      rw [courtesy] at hq
      cases hq
      exact misread also

/-- As a template, a phrase matches the lines that consist of opening words and the phrase. -/
theorem match?_template {known : List String} {m : Matcher}
    (compiled : Matcher.ofForm known (.template text) = .ok m) (line : String) :
    (m.match? line).isSome = true ↔
      ∃ way : Way, way.Describes [.literal text.toList] (Text.trim line.toList) := by
  obtain ⟨t, read, rfl⟩ := ok_of_map compiled
  obtain ⟨tokens, scanned, matcher, schema⟩ :=
    Template.read_eq_ok (Template.read_of_compile read)
  obtain rfl := Except.ok.inj (scanned.symm.trans h.tokens_text)
  show (t.captures? line).isSome = true ↔ _
  rcases Template.captures?_first matcher schema line with
    ⟨-, nothing, never⟩ | ⟨first, describes, -, -, found⟩
  · rw [nothing]
    exact iff_of_false Bool.false_ne_true fun ⟨way, describes⟩ => never way describes
  · rw [found]
    exact iff_of_true rfl ⟨first, describes⟩

/-- As an exact step, a phrase matches the lines of which it is the normal form. -/
theorem match?_exact (line : String) :
    ((Matcher.exact (Phrase.normalize text.toList)).match? line).isSome = true ↔
      Phrase.normalize line.toList = text.toList := by
  rw [Matcher.match?, h.normalize_text]
  split
  · next same => exact iff_of_true rfl same
  · next other => exact iff_of_false Bool.false_ne_true other

end IsPhrase

/-- Of a phrase as a template and as an exact step: the template matches the lines that consist of
opening words and the phrase, and of these the exact step matches those whose opening words are not
misread. -/
theorem match?_exact_iff {known : List String} {words : List (List Char)} {text : String}
    (h : IsPhrase words text) {m : Matcher}
    (compiled : Matcher.ofForm known (.template text) = .ok m) (line : String) :
    ((m.match? line).isSome = true ↔
      ∃ way : Way, way.Describes [.literal text.toList] (Text.trim line.toList)) ∧
    ∃ e, Matcher.ofForm known (.exact text) = .ok e ∧
      ∀ way : Way, way.Describes [.literal text.toList] (Text.trim line.toList) →
        ((e.match? line).isSome = true ↔ ¬ way.IsMisread words) := by
  refine ⟨h.match?_template compiled line, _, rfl, fun way describes => ?_⟩
  rw [h.match?_exact, h.normalize_eq_iff describes]

/-- A phrase of one word. -/
theorem isPhrase_late : IsPhrase ["late".toList] "late" where
  split := by decide
  ne_nil := List.cons_ne_nil _ _
  solid := by simp; decide
  plain := by simp
  small := by
    rintro c ⟨⟩
    decide
  bare := by decide

/-- This phrase as a template. -/
def lateTemplate : Template :=
  let tokens : List Template.Token := [.literal "late".toList]
  ⟨"late", Template.matcherOf tokens, Template.slots tokens⟩

theorem ofForm_late : Matcher.ofForm [] (.template "late") = .ok (.template lateTemplate) := by
  have compiled : Template.compile (some []) "late" = .ok lateTemplate :=
    Template.compile_of_tokens isPhrase_late.tokens_text (by decide) rfl (by decide +kernel)
  rw [Matcher.ofForm, compiled]
  rfl

/-- `I am` in front of a phrase, with blanks between its words. -/
def iAmWay (blanks : List Char) : Way := ⟨none, some (.iAm blanks, [' ']), []⟩

theorem describes_iAmWay {blanks : List Char} (h : IsBlanks blanks) (text : List Char) :
    (iAmWay blanks).Describes [.literal text] ('I' :: (blanks ++ ("am ".toList ++ text))) where
  keyword _ none := nomatch none
  courtesy p same := by
    cases same
    exact ⟨h, List.cons_ne_nil _ _, by simp; decide⟩
  length := rfl
  valid _ none := nomatch none
  split := by
    simp [iAmWay, Way.opening, Courtesy.text, Template.spell, Template.segments, Template.prepend]

/-- With two spaces after `I` only the template matches, with one the exact step does too. -/
theorem match?_late : ∃ m e, Matcher.ofForm [] (.template "late") = .ok m ∧
    Matcher.ofForm [] (.exact "late") = .ok e ∧
    (m.match? "I  am late").isSome = true ∧ (e.match? "I  am late").isSome = false ∧
    (m.match? "I am late").isSome = true ∧ (e.match? "I am late").isSome = true := by
  have one : IsBlanks [' '] := ⟨List.cons_ne_nil _ _, by simp; decide⟩
  have two : IsBlanks [' ', ' '] := ⟨List.cons_ne_nil _ _, by simp; decide⟩
  have apart := describes_iAmWay two "late".toList
  have single := describes_iAmWay one "late".toList
  obtain ⟨matched, e, read, exact_⟩ := match?_exact_iff isPhrase_late ofForm_late "I  am late"
  obtain ⟨matched', e', read', exact'⟩ := match?_exact_iff isPhrase_late ofForm_late "I am late"
  obtain rfl := Except.ok.inj (read.symm.trans read')
  refine ⟨_, e, ofForm_late, read, matched.2 ⟨_, apart⟩, ?_, matched'.2 ⟨_, single⟩, ?_⟩
  · refine Bool.eq_false_iff.2 fun some_ => (exact_ _ apart).1 some_ ⟨_, rfl, ?_⟩
    simp [Courtesy.IsMisread]
  · refine (exact' _ single).2 ?_
    rintro ⟨p, same, misread⟩
    cases same
    exact misread rfl

/-- Not every line that a phrase matches as a template is one that it matches as an exact step. -/
theorem not_all_exact_match :
    ¬ ∀ (known : List String) (words : List (List Char)) (text line : String) (m e : Matcher),
      IsPhrase words text → Matcher.ofForm known (.template text) = .ok m →
      Matcher.ofForm known (.exact text) = .ok e →
      (m.match? line).isSome = true → (e.match? line).isSome = true := by
  intro all
  have two : IsBlanks [' ', ' '] := ⟨List.cons_ne_nil _ _, by simp; decide⟩
  have apart := describes_iAmWay two "late".toList
  have matched := (isPhrase_late.match?_template ofForm_late "I  am late").2 ⟨_, apart⟩
  have exact_ := all _ _ _ _ _ _ isPhrase_late ofForm_late rfl matched
  rw [isPhrase_late.match?_exact, isPhrase_late.normalize_eq_iff apart] at exact_
  exact exact_ ⟨_, rfl, by simp [Courtesy.IsMisread]⟩

end PlainSteps
