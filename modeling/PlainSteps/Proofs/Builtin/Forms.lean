import PlainSteps.Proofs.Regex.Reached
import PlainSteps.Proofs.Template.Captures
import PlainSteps.Step.Registry

/-!
# The forms of built-in steps

What the forms of the steps that come with the library answer to a line, where they are read against
the domains that every run starts with.

* `Builtin.Answers`: a form is read, as one that gives a line an answer.
* `Builtin.Compiles.answers`: a template matches the lines that it describes.
* `Builtin.heading_misses`, `Builtin.prose_misses`: lines that patterns do not match, by their first
  and last characters.

Proof-only: no module that runs imports this one.
-/

namespace PlainSteps.Builtin

open Template

/-- The names of the domains that every run starts with. -/
def domainNames : List String := DomainRegistry.initial.names

/-- A form is read, as one that gives a line such an answer. -/
def Answers (line : String) (form : StepForm) (answer : Option (List Capture) → Prop) : Prop :=
  ∃ m, Matcher.ofForm domainNames form = .ok m ∧ answer (m.match? line)

theorem Answers.imp {line : String} {form : StepForm} {p q : Option (List Capture) → Prop}
    (h : Answers line form p) (imp : ∀ found, p found → q found) : Answers line form q := by
  obtain ⟨m, read, found⟩ := h
  exact ⟨m, read, imp _ found⟩

/-- A template with these tokens is read. -/
def Compiles (text : String) (tokens : List Token) : Prop :=
  Template.tokens text = .ok tokens ∧ fault? (Text.width text.toList) [] 0 tokens = none ∧
    unknownDomain? domainNames (slots tokens) = none ∧ (matcherOf tokens).fits = true

instance (text : String) (tokens : List Token) : Decidable (Compiles text tokens) :=
  inferInstanceAs (Decidable (_ ∧ _))

theorem Compiles.ofForm {text : String} {tokens : List Token} (h : Compiles text tokens) :
    Matcher.ofForm domainNames (.template text) =
      .ok (.template ⟨text, matcherOf tokens, slots tokens⟩) := by
  obtain ⟨read, faultless, domains, fits⟩ := h
  have compiled : compile (some domainNames) text = .ok ⟨text, matcherOf tokens, slots tokens⟩ :=
    compile_of_tokens read faultless domains fits
  exact congrArg (Except.map Matcher.template) compiled

/-- The template of some tokens has captures for the lines that they describe. -/
theorem isSome_captures?_iff (text : String) (tokens : List Token) (line : String) :
    (captures? ⟨text, matcherOf tokens, slots tokens⟩ line).isSome = true ↔
      ∃ ws, Describes tokens ws (Text.trim line.toList) := by
  rcases captures?_eq (t := ⟨text, matcherOf tokens, slots tokens⟩) rfl rfl line with
    ⟨-, nothing, never⟩ | ⟨ws, hws, -, found⟩
  · rw [nothing]
    exact ⟨fun h => (nomatch h), fun ⟨ws, h⟩ => absurd h (never ws)⟩
  · rw [found]
    exact ⟨fun _ => ⟨ws, hws⟩, fun _ => rfl⟩

/-- A template gives an answer to the lines that it describes. -/
theorem Compiles.answers {text : String} {tokens : List Token} (h : Compiles text tokens)
    (line : String) : Answers line (.template text) fun found =>
      found = captures? ⟨text, matcherOf tokens, slots tokens⟩ line ∧
        (found.isSome = true ↔ ∃ ws, Describes tokens ws (Text.trim line.toList)) :=
  ⟨_, h.ofForm, rfl, isSome_captures?_iff text tokens line⟩

/-- A template does not match a line that it does not describe. -/
theorem Compiles.misses {text line : String} {tokens : List Token} (h : Compiles text tokens)
    (never : ∀ ws, ¬ Describes tokens ws (Text.trim line.toList)) :
    Answers line (.template text) (· = none) := by
  refine (h.answers line).imp fun found hfound => Option.not_isSome_iff_eq_none.1 fun some => ?_
  obtain ⟨ws, describes⟩ := hfound.2.1 some
  exact never ws describes

/-- The tokens of the template of negations. -/
def notTokens : List Token := [.literal "not ".toList, .slot 4 "what" (some "statement")]

/-- The template of negations. -/
def notTemplate : Template :=
  ⟨"not \x7bwhat:statement\x7d", matcherOf notTokens, slots notTokens⟩

/-- The templates of the steps that come with the library, with their tokens. -/
def templates : List (String × List Token) :=
  [("ends with \x7bresult\x7d", [.literal "ends with ".toList, .slot 10 "result" none]),
    ("not \x7bwhat:statement\x7d", notTokens),
    ("pause for \x7bms:number\x7dms",
      [.literal "pause for ".toList, .slot 10 "ms" (some "number"), .literal "ms".toList]),
    ("set \x7bwhat\x7d to \x7bvalue\x7d", [.literal "set ".toList, .slot 4 "what" none,
      .literal " to ".toList, .slot 14 "value" none]),
    ("set empty \x7bwhat\x7d to \x7bvalue\x7d", [.literal "set empty ".toList,
      .slot 10 "what" none, .literal " to ".toList, .slot 20 "value" none]),
    ("set \x7bwhat\x7d as \x7bdomain\x7d to \x7bvalue\x7d", [.literal "set ".toList,
      .slot 4 "what" none, .literal " as ".toList, .slot 14 "domain" none, .literal " to ".toList,
      .slot 26 "value" none]),
    ("\x7bwhat\x7d is \x7bvalue\x7d",
      [.slot 0 "what" none, .literal " is ".toList, .slot 10 "value" none]),
    ("\x7bwhat\x7d is set", [.slot 0 "what" none, .literal " is set".toList]),
    ("show var \x7bwhat\x7d", [.literal "show var ".toList, .slot 9 "what" none])]

theorem compiles_of_mem : ∀ t ∈ templates, Compiles t.1 t.2 := by decide +kernel

/-- A pattern whose search finds nothing does not match. -/
theorem pattern_misses {text line : String} {p : Pattern} (read : Pattern.read text = .ok p)
    (nothing : p.program.search? (Text.trim line.toList) = none) :
    Answers line (.pattern text) (· = none) := by
  refine ⟨.pattern p, congrArg (Except.map Matcher.pattern) read, ?_⟩
  show p.captures? line = none
  rw [Pattern.captures?, nothing]
  rfl

/-- A pattern that opens with one letter does not match a line that opens with another. -/
theorem heading_misses {text line : String} {c : Char}
    (h : (Pattern.read text).toOption.any (·.program.opensWith c) = true)
    (other : (Text.trim line.toList).head? ≠ some c) : Answers line (.pattern text) (· = none) := by
  cases read : Pattern.read text with
  | error fault =>
    rw [read] at h
    cases h
  | ok p =>
    rw [read] at h
    exact pattern_misses read (Program.search?_eq_none_of_head h other)

/-- The marks that end prose. -/
def marks : Spans := ⟨[(0x21, 0x21), (0x2E, 0x2E), (0x3A, 0x3A), (0x3F, 0x3F)]⟩

theorem ofList_marks :
    Spans.ofList [(0x3A, 0x3A), (0x3F, 0x3F), (0x21, 0x21), (0x2E, 0x2E)] = marks := by
  have sorted : [(0x3A, 0x3A), (0x3F, 0x3F), (0x21, 0x21), (0x2E, 0x2E)].mergeSort
      (fun a b : Nat × Nat => a.1 ≤ b.1) = marks.pieces := by
    simp [marks, List.mergeSort, List.MergeSort.Internal.splitInTwo]
  rw [Spans.ofList, sorted]
  rfl

/-- Prose ends with a mark. Its pattern is read part by part, since sorting the marks does not
compute. -/
theorem read_prose :
    ∃ p, Pattern.read "^.+[.!?:]$" = .ok p ∧ p.program.closesWithout '"' = true := by
  have text : "^.+[.!?:]$".toList = ['^', '.', '+', '[', '.', '!', '?', ':', ']', '$'] := by decide
  have length : "^.+[.!?:]$".length = 10 := by decide
  have start (fuel room : Nat) (rest : List Char) :
      Regex.readBranches? (fuel + 1) room [] [] ⟨'^' :: rest, 0, []⟩ =
        Regex.readBranches? fuel room [] [⟨.place .start, 0⟩] ⟨rest, 0, []⟩ := rfl
  have any (fuel room : Nat) (items : List Regex.Nested) (rest : List Char) :
      Regex.readBranches? (fuel + 2) room [] items ⟨'.' :: '+' :: '[' :: rest, 0, []⟩ =
        Regex.readBranches? fuel room []
          (⟨.times (.oneOf (.spans (CharSet.toSpans .notNewline))) 1 none true, 1⟩ :: items)
          ⟨'[' :: rest, 0, []⟩ := rfl
  have mark (fuel room : Nat) (items : List Regex.Nested) :
      Regex.readBranches? (fuel + 1) (room + 1) [] items
          ⟨['[', '.', '!', '?', ':', ']', '$'], 0, []⟩ =
        Regex.readBranches? fuel (room + 1) [] (⟨Regex.ofSet marks, 2⟩ :: items)
          ⟨['$'], 0, []⟩ := by
    rw [← ofList_marks]
    rfl
  have stop (fuel room : Nat) (items : List Regex.Nested) :
      Regex.readBranches? (fuel + 2) room [] items ⟨['$'], 0, []⟩ =
        some (Regex.inSequence (⟨.place .stop, 0⟩ :: items), ⟨[], 0, []⟩) := rfl
  have read : ∃ r, Regex.read? "^.+[.!?:]$" = some r ∧ r.fits = true ∧
      (Program.ofRegex r).closesWithout '"' = true := by
    rw [Regex.read?, text, length, start, any, Regex.depthLimit, mark, stop]
    exact ⟨_, rfl, by decide +kernel, by decide +kernel⟩
  obtain ⟨r, read, fits, closes⟩ := read
  refine ⟨⟨r.names, .ofRegex r⟩, ?_, closes⟩
  rw [Pattern.read, read]
  simp only [fits, if_true]

theorem prose_misses {line : String} (last : (Text.trim line.toList).getLast? = some '"') :
    Answers line (.pattern "^.+[.!?:]$") (· = none) := by
  obtain ⟨p, read, closes⟩ := read_prose
  exact pattern_misses read (Program.search?_eq_none_of_last closes last)

end PlainSteps.Builtin
