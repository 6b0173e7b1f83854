import PlainSteps.Proofs.Template.Captures
import PlainSteps.Proofs.Text.Pieces

/-!
# Filling a template with terms

The literal texts of a template with terms in delimiters between them give these terms back. Such a
line may be described in other ways, in which terms are parts of bare ones. But only opening words
are preferred to terms in delimiters, and no way has any: the literal text before the first
delimiter would repeat them up to that delimiter, which opening words do not contain.

* `mem_of_prefix_append`: a text in front of another that starts with both has the next character.
* `Way.Describes.not_mem_opening`: opening words are free of delimiters.
* `Template.opening_eq_nil`: no way to read such a line has opening words.
* `Template.captures?_filled`, `Template.captures?_spell`: the captures of such a line are its
  terms.

Proof-only: no module that runs imports this one.
-/

namespace PlainSteps

/-! ## Texts in front of their own start -/

/-- A text in front of another such that both start that other text and what follows it: the text
has the character that follows. -/
theorem mem_of_prefix_append {p l r : List Char} {c : Char} (h : p ++ l <+: l ++ c :: r)
    (hp : p ≠ []) : c ∈ p := by
  rcases List.prefix_or_prefix_of_prefix ((List.prefix_append p l).trans h)
    (List.prefix_append l (c :: r)) with ⟨l', rfl⟩ | ⟨q, rfl⟩
  -- the other text starts with `p`, and what follows this start is shorter
  · have shorter : l'.length < (p ++ l').length := by
      have := List.length_pos_iff.2 hp
      rw [List.length_append]
      omega
    rw [List.append_assoc p l'] at h
    exact mem_of_prefix_append ((List.prefix_append_right_inj p).1 h) hp
  · rw [List.append_assoc] at h
    have h := (List.prefix_append_right_inj l).1 h
    cases q with
    | nil =>
      cases l with
      | nil => exact absurd rfl hp
      | cons d l =>
        obtain ⟨rfl, -⟩ := List.cons_prefix_cons.1 h
        exact List.mem_append_left _ List.mem_cons_self
    | cons d q =>
      obtain ⟨rfl, -⟩ := List.cons_prefix_cons.1 h
      exact List.mem_append_right _ List.mem_cons_self
termination_by l.length

/-! ## Opening words and delimiters -/

section Delimiters

variable {o : Origin} {first last : Char} (h : o.delimiters? = some (first, last))

include h

theorem isBlank_delimiter : Text.isBlank first = false := by
  cases o <;> cases h <;> decide

theorem IsBlanks.not_mem {cs : List Char} (hcs : IsBlanks cs) : first ∉ cs := fun mem =>
  Bool.false_ne_true ((isBlank_delimiter h).symm.trans (hcs.2 first mem))

theorem Keyword.not_mem_word (k : Keyword) : first ∉ k.word.toList := by
  cases o <;> cases h <;> cases k <;> decide

theorem Courtesy.Valid.not_mem {c : Courtesy} (hc : c.Valid) : first ∉ c.text := by
  cases c with
  | iAm blanks =>
    have apart : first ∉ ['I'] ∧ first ∉ "am".toList := by cases o <;> cases h <;> decide
    have inner : first ∉ blanks := IsBlanks.not_mem h hc
    show first ∉ ['I'] ++ (blanks ++ "am".toList)
    simp only [List.mem_append, not_or]
    exact ⟨apart.1, inner, apart.2⟩
  | _ => cases o <;> cases h <;> decide

/-- Opening words are free of delimiters. -/
theorem Way.Describes.not_mem_opening {way : Way} {tokens : List Template.Token} {line : List Char}
    (describes : way.Describes tokens line) : first ∉ way.opening := by
  obtain ⟨k, c, ws⟩ := way
  obtain ⟨hk, hc, -, -, -⟩ := describes
  rw [Way.opening, List.mem_append, not_or]
  constructor
  · cases k with
    | none => exact List.not_mem_nil
    | some p => simpa using ⟨p.1.not_mem_word h, IsBlanks.not_mem h (hk p rfl)⟩
  · cases c with
    | none => exact List.not_mem_nil
    | some p => simpa using ⟨(hc p rfl).1.not_mem h, IsBlanks.not_mem h (hc p rfl).2⟩

end Delimiters

/-! ## Preferences over terms in delimiters -/

/-- Terms that give way to others have a bare one among them. -/
theorem TermsBefore.exists_bare {flags : List Bool} {vs ws : List Written}
    (h : TermsBefore flags vs ws) : ∃ w ∈ ws, w.origin = .fallthrough := by
  induction flags generalizing vs ws with
  | nil => exact h.elim
  | cons short flags ih =>
    cases vs with
    | nil => exact h.elim
    | cons v vs =>
      cases ws with
      | nil => exact h.elim
      | cons w ws =>
        rcases h with ⟨bare, -⟩ | ⟨-, h⟩
        · exact ⟨w, List.mem_cons_self, bare⟩
        · obtain ⟨u, hu, bare⟩ := ih h
          exact ⟨u, List.mem_cons_of_mem w hu, bare⟩

/-- Whatever is preferred to a way without opening words and bare terms has opening words. -/
theorem Way.Before.opening_ne_nil {flags : List Bool} {x : Way} {ws : List Written}
    (h : x.Before flags ⟨none, none, ws⟩) (delimited : ∀ w ∈ ws, w.origin ≠ .fallthrough)
    {tokens : List Template.Token} {line : List Char} (describes : x.Describes tokens line) :
    x.opening ≠ [] := by
  obtain ⟨k, c, vs⟩ := x
  intro empty
  obtain ⟨hk, hc⟩ := List.append_eq_nil_iff.1 empty
  rcases h with h | ⟨rfl, h | ⟨rfl, h⟩⟩
  · cases k with
    | none => exact h
    | some p => exact (describes.keyword p rfl).1 (List.append_eq_nil_iff.1 hk).2
  · cases c with
    | none => exact h
    | some p => exact (describes.courtesy p rfl).2.1 (List.append_eq_nil_iff.1 hc).2
  · obtain ⟨w, hw, bare⟩ := h.exists_bare
    exact delimited w hw bare

/-! ## Lines -/

namespace Template

/-- No way to read literal texts with terms in delimiters has opening words. -/
theorem opening_eq_nil {tokens : List Token} {way : Way} {ws : List Written}
    (length : ws.length = (slots tokens).length)
    (valid : ∀ w ∈ ws, w.Valid ∧ w.origin ≠ .fallthrough)
    (describes : way.Describes tokens (spell (segments tokens) ws)) : way.opening = [] := by
  have split := describes.split
  cases ws with
  | nil =>
    have none : way.terms = [] :=
      List.eq_nil_of_length_eq_zero (describes.length.trans length.symm)
    rw [none] at split
    exact List.append_left_eq_self.1 split
  | cons w ws =>
    obtain ⟨v, vs, terms⟩ : ∃ v vs, way.terms = v :: vs :=
      List.exists_cons_of_length_eq_add_one (describes.length.trans length.symm)
    obtain ⟨literal, literals, segs⟩ := List.exists_cons_of_ne_nil (segments_ne_nil tokens)
    obtain ⟨hw, delimited⟩ := valid w List.mem_cons_self
    obtain ⟨first, last, form, text, -⟩ := hw.delimited.resolve_left delimited
    rw [terms, segs, spell, spell, text] at split
    have starts : way.opening ++ literal <+: literal ++ first :: (w.term ++ [last] ++
        spell literals ws) := ⟨v.text ++ spell literals vs, by simpa using split⟩
    by_contra some
    exact describes.not_mem_opening form (mem_of_prefix_append starts some)

/-- The captures of literal texts with terms in delimiters between them are the terms. -/
theorem captures?_filled {t : Template} {tokens : List Token}
    (matcher : t.matcher = matcherOf tokens) (schema : t.schema = slots tokens)
    {ws : List Written} (length : ws.length = (slots tokens).length)
    (valid : ∀ w ∈ ws, w.Valid ∧ w.origin ≠ .fallthrough)
    (ends : Text.IsTrimmed (spell (segments tokens) ws)) :
    t.captures? (String.ofList (spell (segments tokens) ws)) =
      some (List.zipWith Written.capture t.schema ws) := by
  let plain : Way := ⟨none, none, ws⟩
  have trimmed : Text.trim (String.ofList (spell (segments tokens) ws)).toList =
      spell (segments tokens) ws := by
    rw [String.toList_ofList, ends.trim_eq]
  have described : plain.Describes tokens (spell (segments tokens) ws) :=
    ⟨by simp [plain], by simp [plain], length, fun w hw => (valid w hw).1, rfl⟩
  have found := captures?_first matcher schema (String.ofList (spell (segments tokens) ws))
  rw [trimmed] at found
  rcases found with ⟨-, -, never⟩ | ⟨first, describes, preferred, -, captured⟩
  · exact absurd described (never plain)
  · rcases preferred plain described with same | before
    · rw [captured, ← same]
    · exact absurd (opening_eq_nil length valid describes)
        (before.opening_ne_nil (fun w hw => (valid w hw).2) describes)

/-- The literal texts of a compiled template with terms in delimiters between them give these terms
back, whatever the texts and terms contain: unless the line starts or ends with a blank, its
captures are the terms, in order and with their forms. -/
theorem captures?_spell {known : Option (List String)} {text : String} {t : Template}
    (h : compile known text = .ok t) :
    ∃ tokens, Template.tokens text = .ok tokens ∧ t.schema = slots tokens ∧
      (segments tokens).length = t.schema.length + 1 ∧
      ∀ ws : List Written, ws.length = t.schema.length →
        (∀ w ∈ ws, w.Valid ∧ w.origin ≠ .fallthrough) →
        Text.IsTrimmed (spell (segments tokens) ws) →
        t.captures? (String.ofList (spell (segments tokens) ws)) =
          some (List.zipWith Written.capture t.schema ws) := by
  obtain ⟨tokens, read, matcher, schema⟩ := read_eq_ok (read_of_compile h)
  refine ⟨tokens, read, schema, ?_, fun ws length valid ends => ?_⟩
  · rw [schema]
    exact length_segments tokens
  · rw [schema] at length
    exact captures?_filled matcher schema length valid ends

/-- The tokens of a template that starts with a keyword. -/
def givenTokens : List Token :=
  [.literal "Given ".toList, .slot 6 "a" none, .literal " and ".toList,
    .slot 14 "b" (some "statement")]

/-- The keyword is a part of the template, and the terms contain its texts. -/
theorem captures?_given : ∃ t, compile none "Given \x7ba\x7d and \x7bb:statement\x7d" = .ok t ∧
    t.captures? "Given [I am Given <x> and y] and \"\"" = some
      [⟨"a", "I am Given <x> and y", .special, "string"⟩, ⟨"b", "", .statement, "statement"⟩] := by
  have scanned : Template.tokens "Given \x7ba\x7d and \x7bb:statement\x7d" = .ok givenTokens := by
    decide +kernel
  have compiled : compile none "Given \x7ba\x7d and \x7bb:statement\x7d" =
      .ok ⟨_, matcherOf givenTokens, slots givenTokens⟩ :=
    compile_of_tokens scanned (by decide) rfl (by decide +kernel)
  obtain ⟨tokens, same, -, -, captures⟩ := captures?_spell compiled
  obtain rfl := Except.ok.inj (same.symm.trans scanned)
  let ws : List Written := [⟨.special, "I am Given <x> and y".toList⟩, ⟨.quoted, []⟩]
  refine ⟨_, compiled, captures ws rfl ?_ ?_⟩
  · simp [ws, Written.Valid]
  · exact ⟨by decide, by decide⟩

end Template

end PlainSteps
