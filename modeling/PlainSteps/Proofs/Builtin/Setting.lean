import Mathlib.Data.List.Infix
import PlainSteps.Builtin.Variables
import PlainSteps.Proofs.Builtin.Forms
import PlainSteps.Proofs.Resolve.Order
import PlainSteps.Proofs.Template.Filled

/-!
# Lines that set a variable

A line that sets a variable, with the name and the value in quotes, is one that the step for setting
describes. Bare terms run across quotes, so that other steps describe it as well where the quoted
texts contain what stands between the terms of these.

* `append_eq_append_cons`: a word without a character, in a text with it, stands on one side of it.
* `comparison_describes_iff`, `typed_describes_iff`: when the steps for comparing and for setting
  with a domain describe the line.
* `candidates_settingLine`: the steps that match the line.
* `findAction_settingLine`: which step the line gets.

Proof-only: no module that runs imports this one.
-/

namespace PlainSteps

/-! ## Words in texts with quotes -/

/-- A word without a character, in a text with that character, stands before or after it. -/
theorem append_eq_append_cons {c : Char} {p w r a b : List Char}
    (h : p ++ (w ++ r) = a ++ c :: b) (apart : c ∉ w) (ne : w ≠ []) :
    (∃ r', a = p ++ (w ++ r') ∧ r = r' ++ c :: b) ∨
      ∃ p', p = a ++ c :: p' ∧ b = p' ++ (w ++ r) := by
  rcases List.append_eq_append_iff.1 h with ⟨q, rfl, split⟩ | ⟨q, rfl, split⟩
  · rcases List.append_eq_append_iff.1 split with ⟨r', rfl, rfl⟩ | ⟨s, rfl, rest⟩
    · exact .inl ⟨r', rfl, rfl⟩
    · cases s with
      | nil => exact .inl ⟨[], by simp, rest.symm⟩
      | cons d s =>
        obtain rfl := (List.cons.inj rest).1
        exact absurd (List.mem_append_right _ List.mem_cons_self) apart
  · cases q with
    | nil =>
      cases w with
      | nil => exact absurd rfl ne
      | cons d w =>
        obtain rfl := (List.cons.inj split).1
        exact absurd List.mem_cons_self apart
    | cons d q =>
      obtain ⟨rfl, rest⟩ := List.cons.inj split
      exact .inr ⟨q, rfl, rest⟩

theorem infix_append_cons {c : Char} {w a b : List Char} (h : w <:+: a ++ c :: b) (apart : c ∉ w)
    (ne : w ≠ []) : w <:+: a ∨ w <:+: b := by
  obtain ⟨p, r, h⟩ := h
  rw [List.append_assoc] at h
  rcases append_eq_append_cons h apart ne with ⟨r', rfl, -⟩ | ⟨p', -, rfl⟩
  · exact .inl ⟨p, r', List.append_assoc ..⟩
  · exact .inr ⟨p', r, List.append_assoc ..⟩

/-! ## What opens a line -/

/-- Opening words start with one of a few letters. -/
theorem Opening.head_mem {cs : List Char} (h : Opening cs) {c : Char} (head : cs.head? = some c) :
    c ∈ "GWTABtI".toList := by
  obtain ⟨first, second, rfl, hfirst, hsecond⟩ := h
  rcases hfirst with rfl | ⟨k, blanks, -, rfl⟩
  · rcases hsecond with rfl | ⟨phrase, blanks, polite, -, rfl⟩
    · cases head
    · cases polite <;> (cases head; decide)
  · cases k <;> (cases head; decide)

theorem Written.Valid.text_ne_nil {w : Written} (h : w.Valid) : w.text ≠ [] := by
  obtain ⟨o, term⟩ := w
  cases o with
  | fallthrough => exact h.1
  | statement => exact h.elim
  | _ => exact List.cons_ne_nil _ _

namespace Template

/-- A line that starts with another letter has no opening words. -/
theorem describes_plain {tokens : List Token} {ws : List Written} {line : List Char}
    (h : Describes tokens ws line) {c : Char} (head : line.head? = some c)
    (other : c ∉ "GWTABtI".toList) : line = spell (segments tokens) ws := by
  obtain ⟨-, -, opening, opens, rfl⟩ := h
  cases opening with
  | nil => rfl
  | cons d more =>
    cases head
    exact absurd (opens.head_mem rfl) other

theorem prefix_spell (first : List Char) (rest : List (List Char)) (ws : List Written) :
    first <+: spell (first :: rest) ws := by
  cases ws with
  | nil => exact List.prefix_append ..
  | cons w ws => exact ⟨w.text ++ spell rest ws, (List.append_assoc ..).symm⟩

end Template

namespace Builtin

open Template

variable {σ : Type}

/-! ## The line -/

/-- The line that sets a variable, with its name and value in quotes. -/
def settingLine (name value : String) : String := "set \"" ++ name ++ "\" to \"" ++ value ++ "\""

/-- The characters of that line. -/
def settingChars (x v : List Char) : List Char :=
  "set ".toList ++ '"' :: (x ++ '"' :: (" to ".toList ++ '"' :: (v ++ ['"'])))

theorem toList_settingLine (name value : String) :
    (settingLine name value).toList = settingChars name.toList value.toList := by
  simp [settingLine, settingChars, String.toList_append]

section Line

variable {x v : List Char}

theorem getLast?_settingChars : (settingChars x v).getLast? = some '"' := by
  have split : settingChars x v =
      "set ".toList ++ '"' :: (x ++ '"' :: (" to ".toList ++ '"' :: v)) ++ ['"'] := by
    simp [settingChars]
  rw [split, List.getLast?_concat]

theorem trim_settingChars : Text.trim (settingChars x v) = settingChars x v := by
  refine Text.IsTrimmed.trim_eq ⟨show Text.isBlank 's' = false by decide, ?_⟩
  rw [getLast?_settingChars]
  decide

/-- A word without quotes stands in the name or the value, if not between them. -/
theorem infix_settingChars {w : List Char} (ne : w ≠ []) (apart : '"' ∉ w)
    (before : ¬ w <:+: "set ".toList) (between : ¬ w <:+: " to ".toList)
    (h : w <:+: settingChars x v) : w <:+: x ∨ w <:+: v := by
  have h := (infix_append_cons h apart ne).resolve_left before
  rcases infix_append_cons h apart ne with h | h
  · exact .inl h
  have h := (infix_append_cons h apart ne).resolve_left between
  rcases infix_append_cons h apart ne with h | h
  · exact .inr h
  · exact absurd (List.infix_nil.1 h) ne

/-! ## Steps that describe it -/

/-- A template that does not open like the line does not describe it. -/
theorem not_describes {tokens : List Token} {first : List Char} {rest : List (List Char)}
    (segs : segments tokens = first :: rest) (other : ¬ first <+: settingChars x v)
    (ws : List Written) : ¬ Describes tokens ws (settingChars x v) := by
  intro h
  have plain := describes_plain h (c := 's') rfl (by decide)
  rw [segs] at plain
  exact other (plain ▸ prefix_spell first rest ws)

/-- The tokens of the step that compares a variable. -/
def isTokens : List Token := [.slot 0 "what" none, .literal " is ".toList, .slot 10 "value" none]

/-- The tokens of the step that sets a variable to a value of a domain. -/
def setAsTokens : List Token :=
  [.literal "set ".toList, .slot 4 "what" none, .literal " as ".toList, .slot 14 "domain" none,
    .literal " to ".toList, .slot 26 "value" none]

/-- Whether the quoted texts make the line a comparison. -/
def ReadsAsComparison (x v : List Char) : Prop := " is ".toList <:+: x ∨ " is ".toList <:+: v

instance (x v : List Char) : Decidable (ReadsAsComparison x v) :=
  inferInstanceAs (Decidable (_ ∨ _))

/-- Whether the quoted texts make the line one that names a domain. -/
def ReadsAsTyped (x v : List Char) : Prop :=
  " as ".toList <:+: x ∨ ∃ before domain after,
    v = before ++ (" as ".toList ++ (domain ++ (" to ".toList ++ after))) ∧ domain ≠ []

/-- A bare term. -/
def bare (cs : List Char) : Written := ⟨.fallthrough, cs⟩

theorem newline_not_mem_settingChars (hx : '\n' ∉ x) (hv : '\n' ∉ v) : '\n' ∉ settingChars x v := by
  simp [settingChars, hx, hv]

theorem comparison_describes_iff (hx : '\n' ∉ x) (hv : '\n' ∉ v) :
    (∃ ws, Describes isTokens ws (settingChars x v)) ↔ ReadsAsComparison x v := by
  constructor
  · rintro ⟨ws, h⟩
    have plain := describes_plain h (c := 's') rfl (by decide)
    match ws, h.1 with
    | [w₁, w₂], _ =>
      refine infix_settingChars (by decide) (by decide) (by decide) (by decide) ?_
      rw [plain]
      exact ⟨w₁.text, w₂.text, by simp [segments, isTokens, prepend, spell]⟩
  · intro h
    have inside : " is ".toList <:+: settingChars x v := by
      rcases h with h | h
      · exact h.trans ⟨"set \"".toList, '"' :: (" to ".toList ++ '"' :: (v ++ ['"'])), by
          simp [settingChars]⟩
      · exact h.trans ⟨"set \"".toList ++ (x ++ '"' :: (" to ".toList ++ ['"'])), ['"'], by
          simp [settingChars]⟩
    obtain ⟨a, b, split⟩ := inside
    have line : '\n' ∉ a ++ " is ".toList ++ b := split ▸ newline_not_mem_settingChars hx hv
    simp only [List.mem_append, not_or] at line
    have front : a ≠ [] := by
      rintro rfl
      cases split
    have back : b ≠ [] := by
      rintro rfl
      have last := getLast?_settingChars (x := x) (v := v)
      rw [← split, List.append_nil, List.getLast?_append] at last
      cases last
    refine ⟨[bare a, bare b], rfl, ?_, [], ⟨[], [], rfl, .inl rfl, .inl rfl⟩, ?_⟩
    · rintro w (_ | ⟨_, _ | ⟨_, ⟨⟩⟩⟩)
      · exact ⟨front, line.1.1⟩
      · exact ⟨back, line.2⟩
    · rw [← split]
      simp [segments, isTokens, prepend, spell, bare, Written.text]

/-- Bare terms around the words of the step describe a line. -/
theorem setAs_describes_bare {p q r : List Char} (hp : p ≠ []) (hq : q ≠ []) (hr : r ≠ [])
    (line : '\n' ∉ p ++ (q ++ r)) : Describes setAsTokens [bare p, bare q, bare r]
      ("set ".toList ++ (p ++ (" as ".toList ++ (q ++ (" to ".toList ++ r))))) := by
  simp only [List.mem_append, not_or] at line
  refine ⟨rfl, ?_, [], ⟨[], [], rfl, .inl rfl, .inl rfl⟩, ?_⟩
  · rintro w (_ | ⟨_, _ | ⟨_, _ | ⟨_, ⟨⟩⟩⟩⟩)
    · exact ⟨hp, line.1⟩
    · exact ⟨hq, line.2.1⟩
    · exact ⟨hr, line.2.2⟩
  · simp [segments, setAsTokens, prepend, spell, bare, Written.text]

/-- The words of the step, with a text between them, stand in the quoted texts only. -/
theorem readsAsTyped_of_split {p q r : List Char} (hq : q ≠ [])
    (h : p ++ (" as ".toList ++ (q ++ (" to ".toList ++ r))) =
      [] ++ '"' :: (x ++ '"' :: (" to ".toList ++ '"' :: (v ++ ['"'])))) : ReadsAsTyped x v := by
  have has : '"' ∉ " as ".toList ∧ " as ".toList ≠ [] := by decide
  have hto : '"' ∉ " to ".toList ∧ " to ".toList ≠ [] := by decide
  rcases append_eq_append_cons h has.1 has.2 with ⟨r', empty, -⟩ | ⟨p₁, -, h⟩
  · simp at empty
  rcases append_eq_append_cons h.symm has.1 has.2 with ⟨r', rfl, -⟩ | ⟨p₂, -, h⟩
  · exact .inl ⟨p₁, r', List.append_assoc ..⟩
  rcases append_eq_append_cons h.symm has.1 has.2 with ⟨r', inside, -⟩ | ⟨p₃, -, h⟩
  · have between : " as ".toList <:+: " to ".toList := ⟨p₂, r', by rw [inside, List.append_assoc]⟩
    exact absurd between (by decide)
  rcases append_eq_append_cons h.symm has.1 has.2 with ⟨r', rfl, last⟩ | ⟨p₄, -, empty⟩
  · rcases append_eq_append_cons last hto.1 hto.2 with ⟨after, rfl, -⟩ | ⟨p₅, -, empty⟩
    · exact .inr ⟨p₃, q, after, rfl, hq⟩
    · simp at empty
  · simp at empty

theorem typed_describes_iff (hx : '\n' ∉ x) (hv : '\n' ∉ v) :
    (∃ ws, Describes setAsTokens ws (settingChars x v)) ↔ ReadsAsTyped x v := by
  constructor
  · rintro ⟨ws, h⟩
    have plain := describes_plain h (c := 's') rfl (by decide)
    obtain ⟨length, valid, -⟩ := h
    match ws, length with
    | [w₁, w₂, w₃], _ =>
      have split : w₁.text ++ (" as ".toList ++ (w₂.text ++ (" to ".toList ++ w₃.text))) =
          [] ++ '"' :: (x ++ '"' :: (" to ".toList ++ '"' :: (v ++ ['"']))) := by
        have words : spell (segments setAsTokens) [w₁, w₂, w₃] = "set ".toList ++
            (w₁.text ++ (" as ".toList ++ (w₂.text ++ (" to ".toList ++ w₃.text)))) := by
          simp [segments, setAsTokens, prepend, spell]
        exact List.append_cancel_left (words.symm.trans plain.symm)
      exact readsAsTyped_of_split (valid w₂ (by simp)).text_ne_nil split
  · rintro (⟨p, q, rfl⟩ | ⟨before, domain, after, rfl, some⟩)
    · have described := setAs_describes_bare (p := '"' :: p) (q := q ++ ['"'])
        (r := '"' :: (v ++ ['"'])) (by simp) (by simp) (by simp)
        (by simp_all)
      exact ⟨_, by simpa [settingChars] using described⟩
    · have described := setAs_describes_bare
        (p := '"' :: (x ++ '"' :: (" to ".toList ++ '"' :: before))) (q := domain)
        (r := after ++ ['"']) (by simp) some (by simp) (by simp_all)
      exact ⟨_, by simpa [settingChars] using described⟩

end Line

/-! ## The steps that match the line -/

/-- What the line gives the step for setting a variable. -/
def settingCaptures (name value : String) : List Capture :=
  [⟨"what", name, .quoted, Domain.string⟩, ⟨"value", value, .quoted, Domain.string⟩]

section Matching

variable {name value : String} (hn : '"' ∉ name.toList ∧ '\n' ∉ name.toList)
  (hv : '"' ∉ value.toList ∧ '\n' ∉ value.toList)

/-- The tokens of the step that sets a variable. -/
def setTokens : List Token :=
  [.literal "set ".toList, .slot 4 "what" none, .literal " to ".toList, .slot 14 "value" none]

theorem trim_settingLine :
    Text.trim (settingLine name value).toList = settingChars name.toList value.toList := by
  rw [toList_settingLine, trim_settingChars]

include hn hv in
/-- The line matches the step for setting a variable. -/
theorem set_answers :
    Answers (settingLine name value) (.template "set \x7bwhat\x7d to \x7bvalue\x7d")
      (· = some (settingCaptures name value)) := by
  have compiles : Compiles "set \x7bwhat\x7d to \x7bvalue\x7d" setTokens :=
    compiles_of_mem (_, setTokens) (by simp [templates, setTokens])
  refine (compiles.answers _).imp fun found hfound => hfound.1.trans ?_
  let ws : List Written := [⟨.quoted, name.toList⟩, ⟨.quoted, value.toList⟩]
  have spelled : spell (segments setTokens) ws = settingChars name.toList value.toList := by
    simp [ws, spell, segments, setTokens, prepend, settingChars, Written.text]
  have ends : Text.IsTrimmed (spell (segments setTokens) ws) := by
    refine ⟨by rfl, ?_⟩
    rw [spelled, getLast?_settingChars]
    decide
  have valid : ∀ w ∈ ws, w.Valid ∧ w.origin ≠ .fallthrough := by
    simp [ws, Written.Valid, hn.1, hv.1]
  have captured := captures?_filled rfl rfl rfl valid ends
    (t := ⟨"set \x7bwhat\x7d to \x7bvalue\x7d", matcherOf setTokens, slots setTokens⟩)
  rw [spelled, ← toList_settingLine, String.ofList_toList] at captured
  rw [captured]
  simp [ws, slots, setTokens, Token.placeholder?, Written.capture, settingCaptures, Domain.string,
    Domain.statement]

include hn hv in
theorem setAs_answers : Answers (settingLine name value)
    (.template "set \x7bwhat\x7d as \x7bdomain\x7d to \x7bvalue\x7d")
    (·.isSome = true ↔ ReadsAsTyped name.toList value.toList) := by
  have compiles : Compiles "set \x7bwhat\x7d as \x7bdomain\x7d to \x7bvalue\x7d" setAsTokens :=
    compiles_of_mem (_, setAsTokens) (by simp [templates, setAsTokens])
  refine (compiles.answers _).imp fun found hfound => hfound.2.trans ?_
  rw [trim_settingLine, typed_describes_iff hn.2 hv.2]

include hn hv in
theorem is_answers : Answers (settingLine name value) (.template "\x7bwhat\x7d is \x7bvalue\x7d")
    (·.isSome = true ↔ ReadsAsComparison name.toList value.toList) := by
  have compiles : Compiles "\x7bwhat\x7d is \x7bvalue\x7d" isTokens :=
    compiles_of_mem (_, isTokens) (by simp [templates, isTokens])
  refine (compiles.answers _).imp fun found hfound => hfound.2.trans ?_
  rw [trim_settingLine, comparison_describes_iff hn.2 hv.2]

/-- A template whose first words do not open the line does not match it. -/
theorem template_misses {text : String} (tokens : List Token) {first : List Char}
    {rest : List (List Char)} (known : (text, tokens) ∈ templates)
    (segs : segments tokens = first :: rest)
    (other : ¬ first <+: settingChars name.toList value.toList) :
    Answers (settingLine name value) (.template text) (· = none) := by
  refine (compiles_of_mem _ known).misses fun ws describes => ?_
  rw [trim_settingLine] at describes
  exact not_describes segs other ws describes

/-- The line does not end with the words of the step that asks whether a variable is set. -/
theorem isSet_misses :
    Answers (settingLine name value) (.template "\x7bwhat\x7d is set") (· = none) := by
  let tokens : List Token := [.slot 0 "what" none, .literal " is set".toList]
  have compiles : Compiles "\x7bwhat\x7d is set" tokens :=
    compiles_of_mem (_, tokens) (by simp [templates, tokens])
  refine compiles.misses fun ws describes => ?_
  rw [trim_settingLine] at describes
  have plain := describes_plain describes (c := 's') rfl (by decide)
  match ws, describes.1 with
  | [w], _ =>
    have last := getLast?_settingChars (x := name.toList) (v := value.toList)
    rw [plain] at last
    simp [spell, segments, tokens, prepend, List.getLast?_append] at last

include hn hv in
/-- The line matches the step for setting a variable, and at most those for setting with a domain
and for comparing besides. -/
theorem candidates_settingLine : ∃ (r : StepRegistry σ) (set setAs is : Matcher)
    (typed compared : Option (List Capture)),
    StepRegistry.ofSteppers steppers .initial = .ok r ∧
    r.candidates (settingLine name value) =
      ⟨⟨"vars", setStep, set⟩, settingCaptures name value⟩ ::
        ((typed.map fun captures => ⟨⟨"vars", setAsStep, setAs⟩, captures⟩).toList ++
          (compared.map fun captures => ⟨⟨"vars", isStep, is⟩, captures⟩).toList) ∧
    (typed.isSome = true ↔ ReadsAsTyped name.toList value.toList) ∧
    (compared.isSome = true ↔ ReadsAsComparison name.toList value.toList) := by
  let line := settingLine name value
  have trimmed : Text.trim line.toList = settingChars name.toList value.toList := trim_settingLine
  obtain ⟨feature, readFeature, noFeature⟩ :
      Answers line (.pattern "^Feature:\\s*(?P<feature>.+)$") (· = none) :=
    heading_misses (c := 'F') (by decide +kernel) (by simp [trimmed, settingChars])
  obtain ⟨scenario, readScenario, noScenario⟩ :
      Answers line (.pattern "^Scenario:\\s*(?P<scenario>.+)$") (· = none) :=
    heading_misses (c := 'S') (by decide +kernel) (by simp [trimmed, settingChars])
  obtain ⟨prose, readProse, noProse⟩ : Answers line (.pattern "^.+[.!?:]$") (· = none) :=
    prose_misses (by rw [trimmed, getLast?_settingChars])
  obtain ⟨endsWith, readEndsWith, noEndsWith⟩ :
      Answers line (.template "ends with \x7bresult\x7d") (· = none) :=
    template_misses [.literal "ends with ".toList, .slot 10 "result" none] (by simp [templates])
      rfl (by simp [settingChars])
  obtain ⟨negation, readNegation, noNegation⟩ :
      Answers line (.template "not \x7bwhat:statement\x7d") (· = none) :=
    template_misses notTokens (by simp [templates]) rfl (by simp [settingChars])
  obtain ⟨pause, readPause, noPause⟩ :
      Answers line (.template "pause for \x7bms:number\x7dms") (· = none) :=
    template_misses [.literal "pause for ".toList, .slot 10 "ms" (some "number"),
      .literal "ms".toList] (by simp [templates]) rfl (by simp [settingChars])
  obtain ⟨setEmpty, readSetEmpty, noSetEmpty⟩ :
      Answers line (.template "set empty \x7bwhat\x7d to \x7bvalue\x7d") (· = none) :=
    template_misses [.literal "set empty ".toList, .slot 10 "what" none, .literal " to ".toList,
      .slot 20 "value" none] (by simp [templates]) rfl (by simp [settingChars])
  obtain ⟨isSet, readIsSet, noIsSet⟩ :
      Answers line (.template "\x7bwhat\x7d is set") (· = none) := isSet_misses
  obtain ⟨showing, readShowing, noShowing⟩ :
      Answers line (.template "show var \x7bwhat\x7d") (· = none) :=
    template_misses [.literal "show var ".toList, .slot 9 "what" none] (by simp [templates]) rfl
      (by simp [settingChars])
  obtain ⟨set, readSet, hasSet⟩ :
      Answers line (.template "set \x7bwhat\x7d to \x7bvalue\x7d") _ := set_answers hn hv
  obtain ⟨setAs, readSetAs, hasSetAs⟩ := setAs_answers hn hv
  obtain ⟨is, readIs, hasIs⟩ := is_answers hn hv
  let steps : List (RegisteredStep σ) :=
    [⟨"haibun", featureStep, feature⟩, ⟨"haibun", scenarioStep, scenario⟩,
      ⟨"haibun", proseStep, prose⟩, ⟨"haibun", endsWithStep, endsWith⟩,
      ⟨"haibun", notStep, negation⟩, ⟨"haibun", pauseStep, pause⟩, ⟨"vars", setStep, set⟩,
      ⟨"vars", setEmptyStep, setEmpty⟩, ⟨"vars", setAsStep, setAs⟩, ⟨"vars", isStep, is⟩,
      ⟨"vars", isSetStep, isSet⟩, ⟨"vars", showStep, showing⟩]
  have registered : StepRegistry.ofSteppers steppers .initial = .ok ⟨steps, domainNames⟩ :=
    ofSteppers_eq_ok
      [feature, scenario, prose, endsWith, negation, pause, set, setEmpty, setAs, is, isSet,
        showing] <|
      .cons readFeature <| .cons readScenario <| .cons readProse <| .cons readEndsWith <|
      .cons readNegation <| .cons readPause <| .cons readSet <| .cons readSetEmpty <|
      .cons readSetAs <| .cons readIs <| .cons readIsSet <| .cons readShowing .nil
  refine ⟨⟨steps, domainNames⟩, set, setAs, is, _, _, registered, ?_, hasSetAs, hasIs⟩
  show StepRegistry.candidates ⟨steps, domainNames⟩ line = _
  simp only [StepRegistry.candidates, steps, List.filterMap_cons, List.filterMap_nil, Option.map,
    noFeature, noScenario, noProse, noEndsWith, noNegation, noPause, hasSet, noSetEmpty, noIsSet,
    noShowing]
  cases setAs.match? line <;> cases is.match? line <;> rfl

end Matching

/-! ## The step that the line gets -/

section Choice

variable {r : StepRegistry σ} {line : String} {location : SourceLocation}
  {set setAs is : Matcher} {captures typed compared : List Capture}

theorem findAction_set (h : r.candidates line = [⟨⟨"vars", setStep, set⟩, captures⟩]) :
    findAction r line location = .ok (.resolved "vars" setStep captures) := by
  unfold findAction
  rw [h]
  rfl

/-- Setting with a domain precludes setting. -/
theorem findAction_setAs (h : r.candidates line =
    [⟨⟨"vars", setStep, set⟩, captures⟩, ⟨⟨"vars", setAsStep, setAs⟩, typed⟩]) :
    findAction r line location = .ok (.resolved "vars" setAsStep typed) := by
  unfold findAction
  rw [h]
  rfl

/-- Setting and comparing do not give way to each other. -/
theorem findAction_is {typed : Option (List Capture)} (h : r.candidates line =
    ⟨⟨"vars", setStep, set⟩, captures⟩ ::
      ((typed.map fun typed => ⟨⟨"vars", setAsStep, setAs⟩, typed⟩).toList ++
        [⟨⟨"vars", isStep, is⟩, compared⟩])) :
    ∃ names, findAction r line location = .error (.ambiguous line location names) ∧
      "vars.set" ∈ names ∧ "vars.is" ∈ names := by
  unfold findAction
  rw [h]
  cases typed with
  | none => exact ⟨["vars.set", "vars.is"], rfl, by simp, by simp⟩
  | some typed => exact ⟨["vars.set", "vars.setAs", "vars.is"], rfl, by simp, by simp⟩

end Choice

section Line

variable {name value : String} (hn : '"' ∉ name.toList ∧ '\n' ∉ name.toList)
  (hv : '"' ∉ value.toList ∧ '\n' ∉ value.toList)

include hn hv

/-- A quoted text that compares makes the line ambiguous. -/
theorem exists_ambiguous (location : SourceLocation)
    (compares : ReadsAsComparison name.toList value.toList) :
    ∃ r : StepRegistry σ, StepRegistry.ofSteppers steppers .initial = .ok r ∧
      ∃ names, findAction r (settingLine name value) location =
        .error (.ambiguous (settingLine name value) location names) ∧
          "vars.set" ∈ names ∧ "vars.is" ∈ names := by
  obtain ⟨r, set, setAs, is, typed, compared, registered, candidates, -, reads⟩ :=
    candidates_settingLine (σ := σ) hn hv
  obtain ⟨captures, rfl⟩ := Option.isSome_iff_exists.1 (reads.2 compares)
  exact ⟨r, registered, findAction_is candidates⟩

/-- The line gets the step for setting a variable, with the quoted texts as its terms, exactly where
neither of these makes it match another step. Where they name a domain, that for setting with a
domain is preferred; where they compare, none is, and the line is ambiguous. -/
theorem findAction_settingLine (location : SourceLocation) :
    ∃ r : StepRegistry σ, StepRegistry.ofSteppers steppers .initial = .ok r ∧
      (¬ ReadsAsComparison name.toList value.toList →
        (¬ ReadsAsTyped name.toList value.toList →
          findAction r (settingLine name value) location =
            .ok (.resolved "vars" setStep (settingCaptures name value))) ∧
        (ReadsAsTyped name.toList value.toList →
          ∃ captures, findAction r (settingLine name value) location =
            .ok (.resolved "vars" setAsStep captures))) ∧
      (ReadsAsComparison name.toList value.toList →
        ∃ names, findAction r (settingLine name value) location =
          .error (.ambiguous (settingLine name value) location names) ∧
            "vars.set" ∈ names ∧ "vars.is" ∈ names) := by
  obtain ⟨r, set, setAs, is, typed, compared, registered, candidates, types, compares⟩ :=
    candidates_settingLine (σ := σ) hn hv
  refine ⟨r, registered, fun apart => ?_, fun reads => ?_⟩
  · obtain rfl : compared = none :=
      Option.not_isSome_iff_eq_none.1 fun some => apart (compares.1 some)
    constructor
    · intro untyped
      obtain rfl : typed = none :=
        Option.not_isSome_iff_eq_none.1 fun some => untyped (types.1 some)
      exact findAction_set candidates
    · intro reads
      obtain ⟨captures, rfl⟩ := Option.isSome_iff_exists.1 (types.2 reads)
      exact ⟨captures, findAction_setAs candidates⟩
  · obtain ⟨captures, rfl⟩ := Option.isSome_iff_exists.1 (compares.2 reads)
    exact findAction_is candidates

end Line

/-- The quoted texts contain words of other steps, which do not match. -/
theorem findAction_settingLine_words : ∃ r : StepRegistry Unit,
    StepRegistry.ofSteppers steppers .initial = .ok r ∧
      findAction r (settingLine "this to that" "is set as is") ⟨"f.feature", 1⟩ =
        .ok (.resolved "vars" setStep (settingCaptures "this to that" "is set as is")) := by
  have name : '"' ∉ "this to that".toList ∧ '\n' ∉ "this to that".toList := by decide
  have value : '"' ∉ "is set as is".toList ∧ '\n' ∉ "is set as is".toList := by decide
  obtain ⟨r, registered, plain, -⟩ := findAction_settingLine (σ := Unit) name value ⟨"f.feature", 1⟩
  refine ⟨r, registered, (plain (by decide)).1 ?_⟩
  rintro (inside | ⟨before, domain, after, split, -⟩)
  · exact absurd inside (by decide)
  · have inside : " to ".toList <:+: "is set as is".toList :=
      ⟨before ++ (" as ".toList ++ domain), after, by simp [split]⟩
    exact absurd inside (by decide)

/-- Not every such line gets the step for setting a variable: the name may compare. -/
theorem not_findAction_settingLine : ¬ ∀ name value : String,
    '"' ∉ name.toList ∧ '\n' ∉ name.toList → '"' ∉ value.toList ∧ '\n' ∉ value.toList →
      ∃ r : StepRegistry Unit, StepRegistry.ofSteppers steppers .initial = .ok r ∧
        findAction r (settingLine name value) ⟨"a.feature", 1⟩ =
          .ok (.resolved "vars" setStep (settingCaptures name value)) := by
  intro always
  obtain ⟨r, registered, resolved⟩ := always "x is y" "v" (by decide) (by decide)
  have name : '"' ∉ "x is y".toList ∧ '\n' ∉ "x is y".toList := by decide
  have value : '"' ∉ "v".toList ∧ '\n' ∉ "v".toList := by decide
  obtain ⟨r', registered', names, ambiguous, -⟩ :=
    exists_ambiguous (σ := Unit) name value ⟨"a.feature", 1⟩ (by decide)
  obtain rfl := Except.ok.inj (registered.symm.trans registered')
  cases resolved.symm.trans ambiguous

end Builtin

end PlainSteps
