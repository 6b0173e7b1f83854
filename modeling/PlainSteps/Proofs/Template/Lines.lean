import PlainSteps.Template.Basic

/-!
# The lines that a template describes

A line opens with a keyword and a politeness phrase, or without them, and goes on with the literal
texts of the template, between which there are terms. A term is written in one of six forms.

* `Written`: a term as a line writes it, `Written.text` and `Written.Valid`.
* `Opening`: the texts that may stand in front of a step.
* `Template.segments`: the literal texts around the placeholders.
* `Template.spell`: literal texts with terms between them.
* `Template.Describes`: a line consists of opening words, literal texts and terms.

The relation does not refer to expressions. `Template.offers_middle` says that the expression of a
template matches what it describes.

Proof-only: no module that runs imports this one.
-/

namespace PlainSteps

/-! ## Terms -/

/-- A term as a line writes it. -/
structure Written where
  /-- The form. -/
  origin : Origin
  /-- The text without delimiters. -/
  term : List Char

namespace Written

/-- The text of a term with its delimiters. -/
def text : Written → List Char
  | ⟨.var, term⟩ => '\x60' :: term ++ ['\x60']
  | ⟨.env, term⟩ => '{' :: term ++ ['}']
  | ⟨.special, term⟩ => '[' :: term ++ [']']
  | ⟨.credential, term⟩ => '<' :: term ++ ['>']
  | ⟨.quoted, term⟩ => '"' :: term ++ ['"']
  | ⟨.fallthrough, term⟩ | ⟨.statement, term⟩ => term

/-- A term is free of its closing delimiter, and only a quoted one may be empty; a bare one is on
one line. -/
def Valid : Written → Prop
  | ⟨.var, term⟩ => term ≠ [] ∧ '\x60' ∉ term
  | ⟨.env, term⟩ => term ≠ [] ∧ '}' ∉ term
  | ⟨.special, term⟩ => term ≠ [] ∧ ']' ∉ term
  | ⟨.credential, term⟩ => term ≠ [] ∧ '>' ∉ term
  | ⟨.quoted, term⟩ => '"' ∉ term
  | ⟨.fallthrough, term⟩ => term ≠ [] ∧ '\n' ∉ term
  | ⟨.statement, _⟩ => False

/-- What a placeholder gets from a term. -/
def capture (p : Placeholder) (w : Written) : Capture :=
  { label := p.label, term := String.ofList w.term,
    origin := if p.domain = Domain.statement then .statement else w.origin, domain := p.domain }

end Written

/-! ## Opening words -/

/-- One or more blanks. -/
def IsBlanks (cs : List Char) : Prop := cs ≠ [] ∧ ∀ c ∈ cs, Text.isBlank c = true

/-- A politeness phrase, with any blanks between its words. -/
inductive Polite : List Char → Prop
  | the : Polite "the".toList
  | contracted : Polite "I'm".toList
  | iAm {blanks : List Char} (h : IsBlanks blanks) : Polite ('I' :: blanks ++ "am".toList)
  | i : Polite "I".toList

/-- What may stand in front of a step: a keyword and blanks or nothing, and then a politeness phrase
and blanks or nothing. -/
def Opening (cs : List Char) : Prop :=
  ∃ first second, cs = first ++ second ∧
    (first = [] ∨ ∃ (k : Keyword) (blanks : List Char), IsBlanks blanks ∧
      first = k.word.toList ++ blanks) ∧
    (second = [] ∨ ∃ phrase blanks, Polite phrase ∧ IsBlanks blanks ∧ second = phrase ++ blanks)

/-! ## Lines -/

namespace Template

/-- Literal text in front of the first of several texts. -/
def prepend (cs : List Char) : List (List Char) → List (List Char)
  | [] => [cs]
  | first :: rest => (cs ++ first) :: rest

/-- The literal texts before, between and after the placeholders; a stray brace is literal text. -/
def segments : List Token → List (List Char)
  | [] => [[]]
  | .literal cs :: rest => prepend cs (segments rest)
  | .strayOpen _ :: rest => prepend ['{'] (segments rest)
  | .strayClose _ :: rest => prepend ['}'] (segments rest)
  | .slot .. :: rest => [] :: segments rest

/-- Literal texts with terms between them. -/
def spell : List (List Char) → List Written → List Char
  | first :: rest, w :: ws => first ++ w.text ++ spell rest ws
  | segments, _ => segments.flatten

/-- The placeholders among tokens. -/
def slots (tokens : List Token) : List Placeholder := tokens.filterMap (·.placeholder?)

/-- A text consists of opening words and the literal texts of a template, with valid terms for its
placeholders. -/
def Describes (tokens : List Token) (ws : List Written) (line : List Char) : Prop :=
  ws.length = (slots tokens).length ∧ (∀ w ∈ ws, w.Valid) ∧
    ∃ opening, Opening opening ∧ line = opening ++ spell (segments tokens) ws

/-! ## Literal texts -/

theorem segments_ne_nil (tokens : List Token) : segments tokens ≠ [] := by
  cases tokens with
  | nil => exact List.cons_ne_nil _ _
  | cons token rest =>
    cases token <;> simp only [segments, prepend]
    case slot => exact List.cons_ne_nil _ _
    all_goals cases segments rest <;> exact List.cons_ne_nil _ _

theorem spell_prepend (cs : List Char) {segs : List (List Char)} (h : segs ≠ [])
    (ws : List Written) : spell (prepend cs segs) ws = cs ++ spell segs ws := by
  obtain ⟨first, rest, rfl⟩ := List.exists_cons_of_ne_nil h
  cases ws <;> simp [prepend, spell]

end Template

end PlainSteps
