import PlainSteps.Builtin.Variables
import PlainSteps.Proofs.Builtin.Setting
import PlainSteps.Proofs.Regex.Heading
import PlainSteps.Proofs.Resolve.Offered

/-!
# The unique steps that come with the library

Three of the steps are unique: those for the titles of features and of scenarios, and negation. No
line matches two of them, since each opens with letters of its own. So a line that one of them
matches gets that step, whatever other steps it matches.

* `IsTitle`: the title of a line after a word.
* `Builtin.ReadsHeading.captures?_iff`: the pattern of a heading captures the title.
* `findAction_of_unique`: a line with just one unique candidate gets it.
* `Builtin.exists_registry`: which of the registered steps are unique.
* `Builtin.unique_steps`: which lines match a unique step, and that they get it.

Proof-only: no module that runs imports this one.
-/

namespace PlainSteps

variable {σ : Type}

/-! ## Titles -/

/-- The title of a line after a word: the whole rest of the line after the word and all blanks,
which is not empty and on one line. The outer blanks of the line do not count. -/
structure IsTitle (word : String) (line : String) (title : List Char) : Prop where
  split : ∃ blanks, (∀ c ∈ blanks, Text.isBlank c = true) ∧
    Text.trim line.toList = word.toList ++ (blanks ++ title)
  solid : title.head?.any Text.isBlank = false
  ne_nil : title ≠ []
  newline : '\n' ∉ title

theorem IsTitle.head? {word line : String} {title : List Char} (h : IsTitle word line title)
    {c : Char} (starts : word.toList.head? = some c) :
    (Text.trim line.toList).head? = some c := by
  obtain ⟨blanks, -, whole⟩ := h.split
  rw [whole, List.head?_append, starts, Option.some_or]

namespace Builtin

open Program

/-- A text is read as the pattern of a heading, whose group has a label. -/
def ReadsHeading (text : String) (word label : String) (p : Pattern) : Prop :=
  Pattern.read text = .ok p ∧ p.names = [⟨1, some label⟩] ∧
    p.program.IsHeading word.toList ⟨1, some label⟩

theorem exists_readsHeading {text word label : String}
    (h : (Pattern.read text).toOption.any (fun p => decide (p.names = [⟨1, some label⟩] ∧
      p.program.IsHeading word.toList ⟨1, some label⟩)) = true) :
    ∃ p, ReadsHeading text word label p := by
  cases read : Pattern.read text with
  | error e =>
    rw [read] at h
    cases h
  | ok p =>
    rw [read] at h
    exact ⟨p, read, of_decide_eq_true h⟩

theorem capture?_title (label : String) (word blanks title : List Char) :
    Pattern.capture? (word ++ (blanks ++ title))
        [(⟨1, some label⟩, word.length + blanks.length,
          word.length + (blanks ++ title).length)] ⟨1, some label⟩ =
      some ⟨label, String.ofList title, .quoted, Domain.string⟩ := by
  have left_ : (word ++ (blanks ++ title)).drop (word.length + blanks.length) = title := by
    rw [← List.append_assoc, ← List.length_append, List.drop_left]
  have length : word.length + (blanks.length + title.length) - (word.length + blanks.length) =
      title.length := by omega
  simp [Pattern.capture?, List.lookup_cons_self, left_, length]

/-- The pattern of a heading captures the title. -/
theorem ReadsHeading.captures?_iff {text word label : String} {p : Pattern}
    (h : ReadsHeading text word label p) (ne : word.toList ≠ []) {line : String}
    {captures : List Capture} : p.captures? line = some captures ↔
      ∃ title, IsTitle word line title ∧
        captures = [⟨label, String.ofList title, .quoted, Domain.string⟩] := by
  obtain ⟨-, names, heading⟩ := h
  rw [Pattern.captures?, heading.search? ne (Text.isTrimmed_trim _).2, names]
  simp only [Option.map_eq_some_iff, Option.bind_eq_some_iff, Text.isPrefixOf?_eq_some_iff,
    titleAt?_eq_some_iff]
  constructor
  · rintro ⟨_, ⟨_, whole, blanks, title, blank, solid, filled, newline, rfl, rfl⟩, rfl⟩
    refine ⟨title, ⟨⟨blanks, blank, whole⟩, solid, filled, newline⟩, ?_⟩
    rw [whole]
    exact List.filterMap_cons_some (capture?_title label word.toList blanks title)
  · rintro ⟨title, ⟨⟨blanks, blank, whole⟩, solid, filled, newline⟩, rfl⟩
    refine ⟨_, ⟨_, whole, blanks, title, blank, solid, filled, newline, rfl, rfl⟩, ?_⟩
    rw [whole]
    exact List.filterMap_cons_some (capture?_title label word.toList blanks title)

end Builtin

/-! ## Unique candidates -/

section Candidates

variable {r : StepRegistry σ} {line : String}

/-- The unique candidates are those of the unique steps. -/
theorem candidates_filter_unique : (r.candidates line).filter (·.step.definition.unique) =
    StepRegistry.candidates ⟨r.steps.filter (·.definition.unique), r.domains⟩ line := by
  unfold StepRegistry.candidates
  rw [List.filter_filterMap, List.filterMap_filter]
  congr 1
  funext step
  cases step.matcher.match? line <;> by_cases unique : step.definition.unique = true <;>
    simp [unique]

/-- A line with just one unique candidate gets it. -/
theorem findAction_of_unique {c : Candidate σ}
    (only : (r.candidates line).filter (·.step.definition.unique) = [c])
    (location : SourceLocation) : findAction r line location =
      .ok (.resolved c.step.stepper c.step.definition c.captures) := by
  have mem : c ∈ r.candidates line := by
    have own : c ∈ (r.candidates line).filter (·.step.definition.unique) := by simp [only]
    exact (List.mem_filter.1 own).1
  have filled : (r.candidates line).isEmpty = false := by
    simpa using List.ne_nil_of_mem mem
  unfold findAction chooseCandidate
  simp [filled, only]

/-- Where no two steps match a line, it has at most one candidate. -/
theorem length_candidates_le_one {steps : List (RegisteredStep σ)} {domains : List String}
    (apart : steps.Pairwise fun s t =>
      (s.matcher.match? line).isSome = true → t.matcher.match? line = none) :
    (StepRegistry.candidates ⟨steps, domains⟩ line).length ≤ 1 := by
  induction steps with
  | nil => exact Nat.zero_le 1
  | cons s rest ih =>
    obtain ⟨own, others⟩ := List.pairwise_cons.1 apart
    obtain ⟨stepper, d, m⟩ := s
    cases found : m.match? line with
    | none =>
      rw [StepRegistry.candidates_cons_of_none found]
      exact ih others
    | some captures =>
      have nothing : StepRegistry.candidates ⟨rest, domains⟩ line = [] := by
        rw [StepRegistry.candidates, List.filterMap_eq_nil_iff]
        intro t ht
        rw [own t ht (by rw [found]; rfl)]
        rfl
      rw [StepRegistry.candidates_cons_of_some found, nothing]
      exact Nat.le_refl 1

end Candidates

/-! ## Built-in steps -/

namespace Builtin

/-- A matcher matches only lines that open with certain letters. -/
def OpensIn (m : Matcher) (letters : List Char) : Prop :=
  ∀ line captures, m.match? line = some captures →
    ∃ c ∈ letters, (Text.trim line.toList).head? = some c

theorem OpensIn.apart {m n : Matcher} {letters others : List Char} (hm : OpensIn m letters)
    (hn : OpensIn n others) (disjoint : ∀ c ∈ letters, c ∉ others) {line : String}
    (found : (m.match? line).isSome = true) : n.match? line = none := by
  obtain ⟨captures, found⟩ := Option.isSome_iff_exists.1 found
  obtain ⟨c, hc, head⟩ := hm line captures found
  by_contra some_
  obtain ⟨captures', found'⟩ := Option.ne_none_iff_exists'.1 some_
  obtain ⟨d, hd, head'⟩ := hn line captures' found'
  rw [head] at head'
  exact disjoint c hc (Option.some.inj head' ▸ hd)

theorem ReadsHeading.opensIn {text word label : String} {p : Pattern}
    (h : ReadsHeading text word label p) {c : Char} (starts : word.toList.head? = some c) :
    OpensIn (.pattern p) [c] := by
  intro line captures found
  have ne : word.toList ≠ [] := by
    intro empty
    rw [empty] at starts
    cases starts
  obtain ⟨title, isTitle, -⟩ := (h.captures?_iff ne).1 found
  exact ⟨c, List.mem_singleton_self c, isTitle.head? starts⟩

/-- A negation opens with its own first letter or with opening words. -/
theorem opensIn_not : OpensIn (.template notTemplate) "nGWTABtI".toList := by
  intro line captures found
  obtain ⟨ws, describes⟩ := (isSome_captures?_iff _ notTokens line).1
    (Option.isSome_iff_exists.2 ⟨captures, found⟩)
  obtain ⟨-, -, opening, opens, whole⟩ := describes
  cases opening with
  | nil =>
    obtain ⟨rest, spelled⟩ := Template.prefix_spell "not ".toList [[]] ws
    refine ⟨'n', by decide, ?_⟩
    rw [whole]
    change (Template.spell ["not ".toList, []] ws).head? = some 'n'
    rw [← spelled]
    rfl
  | cons c more =>
    refine ⟨c, ?_, by rw [whole]; rfl⟩
    exact List.mem_cons_of_mem 'n' (opens.head_mem rfl)

theorem exists_ofForm_template {text : String} (i : Nat)
    (at_ : templates[i]?.map (·.1) = some text) :
    ∃ m, Matcher.ofForm domainNames (.template text) = .ok m := by
  obtain ⟨t, found, rfl⟩ := Option.map_eq_some_iff.1 at_
  exact ⟨_, (compiles_of_mem t (List.mem_of_getElem? found)).ofForm⟩

/-- The steps that come with the library, of which three are unique. -/
theorem exists_registry : ∃ (r : StepRegistry σ) (feature scenario : Pattern),
    StepRegistry.ofSteppers steppers .initial = .ok r ∧
    ReadsHeading "^Feature:\\s*(?P<feature>.+)$" "Feature:" "feature" feature ∧
    ReadsHeading "^Scenario:\\s*(?P<scenario>.+)$" "Scenario:" "scenario" scenario ∧
    r.steps.filter (·.definition.unique) =
      [⟨"haibun", featureStep, .pattern feature⟩, ⟨"haibun", scenarioStep, .pattern scenario⟩,
        ⟨"haibun", notStep, .template notTemplate⟩] := by
  obtain ⟨feature, readFeature⟩ :
      ∃ p, ReadsHeading "^Feature:\\s*(?P<feature>.+)$" "Feature:" "feature" p :=
    exists_readsHeading (by decide +kernel)
  obtain ⟨scenario, readScenario⟩ :
      ∃ p, ReadsHeading "^Scenario:\\s*(?P<scenario>.+)$" "Scenario:" "scenario" p :=
    exists_readsHeading (by decide +kernel)
  obtain ⟨prose, readProse, -⟩ := read_prose
  obtain ⟨endsWith, readEndsWith⟩ := exists_ofForm_template 0 rfl
  have readNot : Matcher.ofForm domainNames (.template "not \x7bwhat:statement\x7d") =
      .ok (.template notTemplate) := (compiles_of_mem (_, notTokens) (by simp [templates])).ofForm
  obtain ⟨pause, readPause⟩ := exists_ofForm_template 2 rfl
  obtain ⟨set, readSet⟩ := exists_ofForm_template 3 rfl
  obtain ⟨setEmpty, readSetEmpty⟩ := exists_ofForm_template 4 rfl
  obtain ⟨setAs, readSetAs⟩ := exists_ofForm_template 5 rfl
  obtain ⟨is, readIs⟩ := exists_ofForm_template 6 rfl
  obtain ⟨isSet, readIsSet⟩ := exists_ofForm_template 7 rfl
  obtain ⟨showing, readShowing⟩ := exists_ofForm_template 8 rfl
  have pattern {text : String} {p : Pattern} (read : Pattern.read text = .ok p) :
      Matcher.ofForm domainNames (.pattern text) = .ok (.pattern p) :=
    congrArg (Except.map Matcher.pattern) read
  let matchers : List Matcher :=
    [.pattern feature, .pattern scenario, .pattern prose, endsWith, .template notTemplate, pause,
      set, setEmpty, setAs, is, isSet, showing]
  refine ⟨_, feature, scenario, ofSteppers_eq_ok matchers ?_, readFeature, readScenario, ?_⟩
  · exact .cons (pattern readFeature.1) <| .cons (pattern readScenario.1) <|
      .cons (pattern readProse) <| .cons readEndsWith <| .cons readNot <| .cons readPause <|
      .cons readSet <| .cons readSetEmpty <| .cons readSetAs <| .cons readIs <| .cons readIsSet <|
      .cons readShowing .nil
  · rfl

section Registry

variable {r : StepRegistry σ} {feature scenario : Pattern}
  (readFeature : ReadsHeading "^Feature:\\s*(?P<feature>.+)$" "Feature:" "feature" feature)
  (readScenario : ReadsHeading "^Scenario:\\s*(?P<scenario>.+)$" "Scenario:" "scenario" scenario)
  (unique : r.steps.filter (·.definition.unique) =
    [⟨"haibun", featureStep, .pattern feature⟩, ⟨"haibun", scenarioStep, .pattern scenario⟩,
      ⟨"haibun", notStep, .template notTemplate⟩])

include readFeature readScenario unique in
/-- No line matches two of the unique steps, since their first letters differ. -/
theorem length_filter_unique (line : String) :
    ((r.candidates line).filter (·.step.definition.unique)).length ≤ 1 := by
  have feature := readFeature.opensIn (c := 'F') (by decide)
  have scenario := readScenario.opensIn (c := 'S') (by decide)
  rw [candidates_filter_unique, unique]
  apply length_candidates_le_one
  simp only [List.pairwise_cons, List.mem_cons, List.not_mem_nil, or_false, forall_eq_or_imp,
    forall_eq]
  refine ⟨⟨feature.apart scenario (by simp), feature.apart opensIn_not (by simp)⟩,
    scenario.apart opensIn_not (by simp), ?_⟩
  simp

/-- A line that a unique step matches gets it. -/
theorem findAction_of_mem {line : String} {c : Candidate σ}
    (single : ((r.candidates line).filter (·.step.definition.unique)).length ≤ 1)
    (mem : c ∈ r.candidates line) (own : c.step.definition.unique = true)
    (location : SourceLocation) : findAction r line location =
      .ok (.resolved c.step.stepper c.step.definition c.captures) := by
  have left_ : c ∈ (r.candidates line).filter (·.step.definition.unique) :=
    List.mem_filter.2 ⟨mem, own⟩
  obtain ⟨d, only⟩ :=
    List.length_eq_one_iff.1 (Nat.le_antisymm single (List.length_pos_of_mem left_))
  obtain rfl : c = d := by simpa [only] using left_
  exact findAction_of_unique only location

/-- A line gets the step of a heading exactly where it has a title, which is all that it
captures. -/
theorem findAction_heading_iff {text word label line : String} {p : Pattern}
    (reads : ReadsHeading text word label p) (ne : word.toList ≠ [])
    (single : ((r.candidates line).filter (·.step.definition.unique)).length ≤ 1)
    {stepper : String} {d : StepDefinition σ} (own : d.unique = true)
    (mem : ⟨stepper, d, .pattern p⟩ ∈ r.steps)
    (only : ∀ s ∈ r.steps, s.definition = d → s.matcher = .pattern p) (location : SourceLocation)
    (captures : List Capture) :
    findAction r line location = .ok (.resolved stepper d captures) ↔
      ∃ title, IsTitle word line title ∧
        captures = [⟨label, String.ofList title, .quoted, Domain.string⟩] := by
  rw [← reads.captures?_iff ne]
  constructor
  · intro found
    obtain ⟨s, hs, given, matched, same⟩ := exists_step_of_findAction found
    obtain ⟨-, -, rfl, kind⟩ := StepAction.mk.inj same
    have pattern := only s hs (ActionKind.defined.inj kind).symm
    rw [pattern] at matched
    exact matched
  · intro matched
    have candidate : ⟨⟨stepper, d, .pattern p⟩, captures⟩ ∈ r.candidates line := by
      refine List.mem_filterMap.2 ⟨_, mem, ?_⟩
      change (p.captures? line).map _ = _
      rw [matched]
      rfl
    exact findAction_of_mem single candidate own location

end Registry

/-- Of the steps that come with the library three are unique, and no line matches two of them. So a
line that one of them matches gets that step, and is not ambiguous, whatever else it matches. The
title of a feature or of a scenario is the whole rest of the line after the word and any blanks. -/
theorem unique_steps : ∃ r : StepRegistry σ, StepRegistry.ofSteppers steppers .initial = .ok r ∧
    (r.steps.filter (·.definition.unique)).map (·.name) =
      ["haibun.feature", "haibun.scenario", "haibun.not"] ∧
    ∀ (line : String) (location : SourceLocation),
      ((r.candidates line).filter (·.step.definition.unique)).length ≤ 1 ∧
      (∀ c ∈ r.candidates line, c.step.definition.unique = true →
        findAction r line location =
          .ok (.resolved c.step.stepper c.step.definition c.captures)) ∧
      (∀ captures, findAction r line location = .ok (.resolved "haibun" featureStep captures) ↔
        ∃ title, IsTitle "Feature:" line title ∧
          captures = [⟨"feature", String.ofList title, .quoted, Domain.string⟩]) ∧
      ∀ captures, findAction r line location = .ok (.resolved "haibun" scenarioStep captures) ↔
        ∃ title, IsTitle "Scenario:" line title ∧
          captures = [⟨"scenario", String.ofList title, .quoted, Domain.string⟩] := by
  obtain ⟨r, feature, scenario, registered, readFeature, readScenario, unique⟩ :=
    exists_registry (σ := σ)
  have listed (s : RegisteredStep σ) : s ∈ r.steps ∧ s.definition.unique = true ↔
      s = ⟨"haibun", featureStep, .pattern feature⟩ ∨
        s = ⟨"haibun", scenarioStep, .pattern scenario⟩ ∨
        s = ⟨"haibun", notStep, .template notTemplate⟩ := by
    have filtered : s ∈ r.steps.filter (·.definition.unique) ↔
        s ∈ r.steps ∧ s.definition.unique = true := List.mem_filter
    rw [← filtered, unique]
    simp
  have only {d : StepDefinition σ} (own : d.unique = true) {m : Matcher}
      (named : ∀ s : RegisteredStep σ, s ∈ r.steps ∧ s.definition.unique = true →
        s.definition.name = d.name → s.matcher = m) :
      ∀ s ∈ r.steps, s.definition = d → s.matcher = m := by
    rintro s hs rfl
    exact named s ⟨hs, own⟩ rfl
  refine ⟨r, registered, by rw [unique]; rfl, fun line location => ?_⟩
  have single := length_filter_unique readFeature readScenario unique line
  refine ⟨single, fun c mem own => findAction_of_mem single mem own location, ?_, ?_⟩
  · refine findAction_heading_iff readFeature (by decide) single rfl ?_ (only rfl ?_) location
    · exact ((listed _).2 (.inl rfl)).1
    · intro s hs name
      rcases (listed s).1 hs with rfl | rfl | rfl
      · rfl
      · exact absurd name (by simp [scenarioStep, featureStep])
      · exact absurd name (by simp [notStep, featureStep])
  · refine findAction_heading_iff readScenario (by decide) single rfl ?_ (only rfl ?_) location
    · exact ((listed _).2 (.inr (.inl rfl))).1
    · intro s hs name
      rcases (listed s).1 hs with rfl | rfl | rfl
      · exact absurd name (by simp [scenarioStep, featureStep])
      · rfl
      · exact absurd name (by simp [notStep, scenarioStep])

end Builtin

end PlainSteps
