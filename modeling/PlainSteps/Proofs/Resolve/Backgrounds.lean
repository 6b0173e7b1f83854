import PlainSteps.Builtin.Structure
import PlainSteps.Proofs.Resolve.Offered
import PlainSteps.Proofs.Source.Directive
import PlainSteps.Proofs.Source.Unfolding

/-!
# Backgrounds in features and in statements

A directive in a feature and one in a statement stand for the same lines of a background. In a
feature each of them is first offered to the steppers, and one that they take yields no step. In a
statement no line is offered: one that the steppers would take is resolved like any other, and
yields a step that fails where it does not resolve.

* `Resolving.Answers`: a computation that leaves the resolver as it is.
* `Offered`: what becomes of a line that is offered to steppers whose answers depend on it only.
* `statementLines_backgrounds`, `expandLine_backgrounds`: the lines of a directive.
* `resolveLines_answers`: the actions of a feature are those of the lines that are not taken.
* `nested_backgrounds`: the actions of a statement are those of all lines.
* `background_actions`: both, and where they differ.
* `not_all_backgrounds_alike`: a background with a note that a stepper takes.

Proof-only: no module that runs imports this one.
-/

namespace PlainSteps

variable {σ α β : Type}

/-! ## Computations that leave the resolver as it is -/

/-- From a resolver, a computation returns a value and leaves the resolver as it is. -/
def Resolving.Answers (r : Resolver σ) (x : Resolving σ α) (a : α) : Prop :=
  ∀ store, ∃ store', (x.run.run r).start store = (.ok (.ok a, r), store')

namespace Resolving.Answers

variable {r : Resolver σ}

theorem pure (a : α) : Resolving.Answers r (Pure.pure a) a := fun store => ⟨store, rfl⟩

theorem get : Resolving.Answers r MonadState.get r := fun store => ⟨store, rfl⟩

theorem set : Resolving.Answers r (MonadState.set r) PUnit.unit := fun store => ⟨store, rfl⟩

theorem bind {x : Resolving σ α} {f : α → Resolving σ β} {a : α} {b : β}
    (h : Resolving.Answers r x a) (hf : Resolving.Answers r (f a) b) :
    Resolving.Answers r (x >>= f) b := by
  intro store
  obtain ⟨mid, ran⟩ := h store
  obtain ⟨store', then_⟩ := hf mid
  exact ⟨store', (start_bind_ok ran f).trans then_⟩

/-- A computation on the store that returns the same from every store. -/
theorem lift {e : Effect σ α} {a : α} (h : ∀ store, ∃ store', e.start store = (.ok a, store')) :
    Resolving.Answers r (liftM e) a := by
  intro store
  obtain ⟨store', ran⟩ := h store
  exact ⟨store', start_lift ran r⟩

theorem forM {γ : Type} {xs : List γ} {f : γ → Resolving σ PUnit}
    (h : ∀ c ∈ xs, Resolving.Answers r (f c) PUnit.unit) :
    Resolving.Answers r (xs.forM f) PUnit.unit := by
  induction xs with
  | nil => exact .pure _
  | cons c rest ih =>
    exact (h c List.mem_cons_self).bind (ih fun d hd => h d (List.mem_cons_of_mem c hd))

end Resolving.Answers

/-! ## Lines that are offered -/

/-- A stepper always answers the same when it is offered a line. -/
def Stepper.Disposes (s : Stepper σ) (line : SourcedLine) (d : LineDisposition σ) : Prop :=
  ∀ store, ∃ store', (s.resolveLine line.text line.source).start store = (.ok d, store')

/-- Whether steppers, whose answers depend on the line only, take a line without adding definitions
to a resolver. -/
inductive Offered (r : Resolver σ) (line : SourcedLine) : List (Stepper σ) → Bool → Prop
  | nobody : Offered r line [] false
  | proceed {s : Stepper σ} {rest : List (Stepper σ)} {taken : Bool}
    (h : s.Disposes line .proceed) (more : Offered r line rest taken) :
    Offered r line (s :: rest) taken
  | consumed {s : Stepper σ} {rest : List (Stepper σ)} (h : s.Disposes line .consumed) :
    Offered r line (s :: rest) true
  | define {s : Stepper σ} {rest : List (Stepper σ)} {definitions : List (StepDefinition σ)}
    (h : s.Disposes line (.define definitions))
    (known : ∀ d ∈ definitions, (qualifiedName s.name d.name, line.source) ∈ r.defined) :
    Offered r line (s :: rest) true

theorem offerLine_answers {r : Resolver σ} {line : SourcedLine} {steppers : List (Stepper σ)}
    {taken : Bool} (h : Offered r line steppers taken) :
    Resolving.Answers r (offerLine steppers line) taken := by
  induction h with
  | nobody =>
    rw [offerLine]
    exact .pure false
  | proceed h more ih =>
    rw [offerLine]
    exact .bind (.lift h) ih
  | consumed h =>
    rw [offerLine]
    exact .bind (.lift h) (.pure true)
  | define h known =>
    rw [offerLine]
    refine .bind (.lift h) (.bind (.forM fun d hd => ?_) (.pure true))
    have same : r.define _ line.source d = .ok r := if_pos (known d hd)
    unfold defineStep
    refine .bind .get ?_
    rw [same]
    exact .set

/-! ## Actions -/

/-- The action of a line, which may be that of a line that was not resolved. -/
def actionOf (registry : StepRegistry σ) (line : SourcedLine) : StepAction σ :=
  match findAction registry line.text line.source with
  | .ok action => action
  | .error e => .unresolved e.message

theorem actionOf_of_ok {registry : StepRegistry σ} {line : SourcedLine} {action : StepAction σ}
    (h : findAction registry line.text line.source = .ok action) :
    actionOf registry line = action := by
  rw [actionOf, h]

theorem unresolvedMessage?_actionOf {registry : StepRegistry σ} {line : SourcedLine} :
    (actionOf registry line).unresolvedMessage? = none ↔
      ∃ action, findAction registry line.text line.source = .ok action := by
  cases found : findAction registry line.text line.source with
  | ok action =>
    rw [actionOf_of_ok found]
    obtain ⟨step, -, captures, -, rfl⟩ := exists_step_of_findAction found
    exact iff_of_true rfl ⟨_, rfl⟩
  | error e =>
    rw [actionOf, found]
    exact iff_of_false (fun h => nomatch h) fun ⟨_, h⟩ => nomatch h

section Lines

variable {r : Resolver σ} {steppers : List (Stepper σ)} {taken : SourcedLine → Bool}
  {lines : List SourcedLine}

/-- The actions of a feature are those of the lines that the steppers do not take. -/
theorem resolveLines_answers (library : SourceLibrary) (feature position : Nat)
    (offered : ∀ line ∈ lines, Offered r line steppers (taken line))
    (resolves : ∀ line ∈ lines, taken line = false →
      ∃ action, findAction r.registry line.text line.source = .ok action) :
    ∃ steps, Resolving.Answers r (resolveLines steppers library feature position lines) steps ∧
      steps.map (·.head.action) = (lines.filter (! taken ·)).map (actionOf r.registry) := by
  induction lines generalizing position with
  | nil => exact ⟨[], .pure [], rfl⟩
  | cons line rest ih =>
    obtain ⟨own, others⟩ := List.forall_mem_cons.1 offered
    obtain ⟨found, below⟩ := List.forall_mem_cons.1 resolves
    have answer := offerLine_answers own
    cases answered : taken line with
    | true =>
      obtain ⟨steps, more, actions⟩ := ih position others below
      rw [answered] at answer
      refine ⟨steps, ?_, ?_⟩
      · rw [resolveLines]
        exact answer.bind more
      · rw [List.filter_cons_of_neg (by simp [answered])]
        exact actions
    | false =>
      obtain ⟨steps, more, actions⟩ := ih (SeqPath.next position) others below
      obtain ⟨action, found⟩ := found answered
      rw [answered] at answer
      have resolved : Resolving.Answers r (resolveAction line) action := by
        unfold resolveAction
        refine .bind .get ?_
        rw [found]
        exact .pure action
      let step := buildStep r.registry library maxStatementDepth action line
        ⟨[feature, SeqPath.next position]⟩
      refine ⟨step :: steps, ?_, ?_⟩
      · rw [resolveLines]
        exact answer.bind (resolved.bind (.bind .get (more.bind (.pure _))))
      · rw [List.filter_cons_of_pos (by simp [answered]), List.map_cons, List.map_cons,
          buildStep_head, actionOf_of_ok found, actions]

end Lines

/-! ## Directives -/

/-- The directive for a background. -/
def backgroundDirective (name : String) : String := "Backgrounds: " ++ name

theorem toList_backgroundDirective (name : String) :
    (backgroundDirective name).toList = "Backgrounds".toList ++ ':' :: ' ' :: name.toList := by
  simp [backgroundDirective, String.toList_append]

section Name

variable {name : String} (h : IsSourceName name)

include h

theorem IsSourceName.read? :
    Include.read? (backgroundDirective name) = some ⟨.backgrounds, [name]⟩ :=
  h.read?_directive .backgrounds

theorem IsSourceName.isTrimmed_directive :
    Text.IsTrimmed (backgroundDirective name).toList := by
  rw [toList_backgroundDirective]
  refine ⟨show Text.isBlank 'B' = false by decide, ?_⟩
  have last := h.trimmed.2
  rw [List.getLast?_append, List.getLast?_cons_cons, List.getLast?_cons_of_ne_nil h.ne_nil,
    Option.or_of_isSome (by simpa using h.ne_nil)]
  exact last

/-- The only line of a statement that consists of the directive is the directive. -/
theorem IsSourceName.rawStatementLines (location : SourceLocation) :
    rawStatementLines (backgroundDirective name) location =
      [⟨location, backgroundDirective name⟩] := by
  have single : Text.lines (backgroundDirective name).toList =
      [(backgroundDirective name).toList] := by
    refine List.splitOn_eq_singleton ?_
    rw [toList_backgroundDirective]
    simp only [List.mem_append, List.mem_cons, not_or]
    exact ⟨by decide, by decide, by decide, h.newline⟩
  have filled : (! (backgroundDirective name).toList.isEmpty) = true := by
    rw [toList_backgroundDirective]
    rfl
  rw [PlainSteps.rawStatementLines, single, List.map_singleton, h.isTrimmed_directive.trim_eq,
    List.filter_singleton, filled, cond_true, List.map_singleton, String.ofList_toList]

variable {library : SourceLibrary} {b : FeatureSource}
  (found : library.find? .backgrounds name = some b)
  (plain : ∀ line ∈ b.lines, Include.read? line.text = none)

include found plain

/-- A directive in a feature stands for the lines of the background. -/
theorem IsSourceName.expandLine (location : SourceLocation) :
    library.expandLine ⟨location, backgroundDirective name⟩ = .ok b.lines := by
  let line : SourcedLine := ⟨location, backgroundDirective name⟩
  have read : Include.read? line.text = some ⟨.backgrounds, [name]⟩ := h.read?
  exact (SourceLibrary.expandLine_found read found).trans
    (SourceLibrary.expandLines_eq_self plain)

/-- So does one in a statement. -/
theorem IsSourceName.statementLines (location : SourceLocation) :
    statementLines library (backgroundDirective name) location = .ok b.lines := by
  rw [PlainSteps.statementLines, h.rawStatementLines, List.mapM_cons,
    h.expandLine found plain location]
  simp [bind, Except.bind, pure, Except.pure, Except.map]

end Name

/-! ## Statements -/

theorem expandStatements_getElem? (expand : String → Nat → List (FeatureStep σ) × Nat)
    (next : Nat) (captures : List Capture) (i : Nat) (c : Capture) (h : captures[i]? = some c) :
    ∃ next', (expandStatements expand next captures)[i]? =
      some (.mk c.label (expand c.term next').1) := by
  induction captures generalizing next i with
  | nil => exact nomatch h
  | cons first rest ih =>
    cases i with
    | zero =>
      obtain rfl := Option.some.inj h
      exact ⟨next, rfl⟩
    | succ i => exact ih _ i h

/-- The actions of a statement that consists of a directive are those of all lines of the
background. -/
theorem nested_backgrounds {registry : StepRegistry σ} {library : SourceLibrary} {term : String}
    {lines : List SourcedLine} {line : SourcedLine}
    (expanded : statementLines library term line.source = .ok lines) (levels : Nat)
    (action : StepAction σ) (path : SeqPath) {i : Nat} {c : Capture}
    (captured : (statementsOf action)[i]? = some c) (written : c.term = term) :
    ∃ steps, (buildStep registry library (levels + 1) action line path).nested[i]? =
        some (.mk c.label steps) ∧
      steps.map (·.head.action) = lines.map (actionOf registry) := by
  rw [buildStep]
  obtain ⟨next, found⟩ := expandStatements_getElem? _ 1 _ i c captured
  refine ⟨_, found, ?_⟩
  rw [written, expanded]
  refine map_stepsBelow (fun inner innerPath => ?_) next lines
  unfold actionOf
  cases findAction registry inner.text inner.source with
  | ok action => rw [buildStep_head]
  | error e => rfl

/-! ## Both -/

/-- A background whose lines are no directives, and of which each is taken by the steppers, without
adding definitions, or resolves to a step. -/
structure IsOffered (steppers : List (Stepper σ)) (library : SourceLibrary) (r : Resolver σ)
    (name : String) (b : FeatureSource) (taken : SourcedLine → Bool) : Prop where
  named : IsSourceName name
  found : library.find? .backgrounds name = some b
  plain : ∀ line ∈ b.lines, Include.read? line.text = none
  offered : ∀ line ∈ b.lines, Offered r line steppers (taken line)
  resolves : ∀ line ∈ b.lines, taken line = false →
    ∃ action, findAction r.registry line.text line.source = .ok action

section Background

variable {steppers : List (Stepper σ)} {library : SourceLibrary} {r : Resolver σ} {name : String}
  {b : FeatureSource} {taken : SourcedLine → Bool} (h : IsOffered steppers library r name b taken)

include h

/-- A feature of these lines has the steps of those that are not taken. -/
theorem IsOffered.resolveFeature (index : Nat) (path : String)
    (told : ∀ s ∈ steppers, (s.startResolution path).Returns) (base : String) :
    ∃ steps, Resolving.Answers r (resolveFeature steppers library index ⟨path, base, b.lines⟩)
        ⟨path, base, steps⟩ ∧
      steps.map (·.head.action) = (b.lines.filter (! taken ·)).map (actionOf r.registry) := by
  obtain ⟨steps, answer, actions⟩ := resolveLines_answers library index 0 h.offered h.resolves
  refine ⟨steps, ?_, actions⟩
  unfold PlainSteps.resolveFeature
  refine .bind (.forM fun s hs => .lift fun store => ?_) (answer.bind (.pure _))
  obtain ⟨_, store', ran⟩ := told s hs store
  exact ⟨store', ran⟩

theorem IsOffered.unresolved_iff {line : SourcedLine} (hl : line ∈ b.lines) :
    (actionOf r.registry line).unresolvedMessage? ≠ none ↔
      taken line = true ∧ ∀ action, findAction r.registry line.text line.source ≠ .ok action := by
  rw [Ne, unresolvedMessage?_actionOf, not_exists]
  refine ⟨fun never => ⟨?_, never⟩, fun both => both.2⟩
  by_contra untaken
  obtain ⟨action, found⟩ := h.resolves line hl (Bool.eq_false_iff.2 untaken)
  exact never action found

end Background

/-- In a feature, a directive for a background has the actions of those lines that no stepper takes,
and all of them are resolved. In a statement it has the actions of all lines, also of those that
steppers take, which are not resolved where no step matches them. So the actions are the same if and
only if no line is taken. -/
theorem background_actions {steppers : List (Stepper σ)} {library : SourceLibrary}
    {r : Resolver σ} {name : String} {b : FeatureSource} {taken : SourcedLine → Bool}
    (h : IsOffered steppers library r name b taken) :
    (∀ location, library.expandLine ⟨location, backgroundDirective name⟩ = .ok b.lines) ∧
    (∀ (index : Nat) (path base : String) (store : σ),
      (∀ s ∈ steppers, (s.startResolution path).Returns) → ∃ steps store',
        ((resolveFeature steppers library index ⟨path, base, b.lines⟩).run.run r).start store =
          (.ok (.ok ⟨path, base, steps⟩, r), store') ∧
        steps.map (·.head.action) = (b.lines.filter (! taken ·)).map (actionOf r.registry) ∧
        ∀ step ∈ steps, step.head.action.unresolvedMessage? = none) ∧
    (∀ (levels : Nat) (action : StepAction σ) (line : SourcedLine) (path : SeqPath) (i : Nat)
      (c : Capture), (statementsOf action)[i]? = some c → c.term = backgroundDirective name →
        ∃ steps, (buildStep r.registry library (levels + 1) action line path).nested[i]? =
            some (.mk c.label steps) ∧
          steps.map (·.head.action) = b.lines.map (actionOf r.registry) ∧
          ((∃ step ∈ steps, step.head.action.unresolvedMessage? ≠ none) ↔
            ∃ line ∈ b.lines, taken line = true ∧
              ∀ action, findAction r.registry line.text line.source ≠ .ok action)) ∧
    ((b.lines.filter (! taken ·)).map (actionOf r.registry) =
        b.lines.map (actionOf r.registry) ↔ ∀ line ∈ b.lines, taken line = false) := by
  refine ⟨fun location => h.named.expandLine h.found h.plain location, ?_, ?_, ?_⟩
  · intro index path base store told
    obtain ⟨steps, answer, actions⟩ := h.resolveFeature index path told base
    obtain ⟨store', ran⟩ := answer store
    refine ⟨steps, store', ran, actions, fun step hs => ?_⟩
    have mem := List.mem_map_of_mem (f := (·.head.action)) hs
    rw [actions] at mem
    obtain ⟨line, hl, same⟩ := List.mem_map.1 mem
    obtain ⟨hl, untaken⟩ := List.mem_filter.1 hl
    have resolved := h.resolves line hl (by simpa using untaken)
    rw [← same]
    exact unresolvedMessage?_actionOf.2 resolved
  · intro levels action line path i c captured written
    have expanded := h.named.statementLines h.found h.plain line.source
    obtain ⟨steps, nested, actions⟩ :=
      nested_backgrounds expanded levels action path captured written
    refine ⟨steps, nested, actions, ?_⟩
    have some_ : (∃ step ∈ steps, step.head.action.unresolvedMessage? ≠ none) ↔
        ∃ a ∈ steps.map (·.head.action), a.unresolvedMessage? ≠ none := by simp
    rw [some_, actions]
    constructor
    · rintro ⟨_, mem, unresolved⟩
      obtain ⟨line, hl, rfl⟩ := List.mem_map.1 mem
      exact ⟨line, hl, (h.unresolved_iff hl).1 unresolved⟩
    · rintro ⟨line, hl, both⟩
      exact ⟨_, List.mem_map_of_mem hl, (h.unresolved_iff hl).2 both⟩
  · constructor
    · intro same line hl
      have length := congrArg List.length same
      rw [List.length_map, List.length_map] at length
      have untaken := List.length_filter_eq_length_iff.1 length line hl
      simpa using untaken
    · intro untaken
      rw [List.filter_eq_self.2 fun line hl => by simp [untaken line hl]]

/-- The only step of a stepper that takes notes. -/
def openStep : StepDefinition Unit where
  name := "open"
  form := .exact "open"
  action _ := return .ok .passed

/-- A stepper with one step, which takes lines that are notes. -/
def noteStepper : Stepper Unit where
  name := "t"
  steps := [openStep]
  resolveLine line _ := return if line = "note one" then .consumed else .proceed

/-- The registry of this stepper. -/
def noteRegistry : StepRegistry Unit where
  steps := [⟨"t", openStep, .exact "open".toList⟩]
  domains := DomainRegistry.initial.names

/-- A background with a note and a step. -/
def noteBackground : FeatureSource := ⟨"b.feature", "note one\nopen", ""⟩

theorem lines_noteBackground : noteBackground.lines =
    [⟨⟨"b.feature", 1⟩, "note one"⟩, ⟨⟨"b.feature", 2⟩, "open"⟩] := by decide +kernel

theorem findAction_open (location : SourceLocation) :
    findAction noteRegistry "open" location = .ok (.resolved "t" openStep []) := by
  have matched : (Matcher.exact "open".toList).match? "open" = some [] := by decide +kernel
  unfold findAction
  rw [noteRegistry, StepRegistry.candidates_cons_of_some matched, StepRegistry.candidates_nil]
  rfl

theorem findAction_note (location : SourceLocation) :
    ∃ e, findAction noteRegistry "note one" location = .error e := by
  have unmatched : (Matcher.exact "open".toList).match? "note one" = none := by decide +kernel
  unfold findAction
  rw [noteRegistry, StepRegistry.candidates_cons_of_none unmatched, StepRegistry.candidates_nil]
  exact ⟨_, rfl⟩

theorem isOffered_noteBackground : IsOffered [noteStepper] ⟨[noteBackground], []⟩
    ⟨noteRegistry, []⟩ "b" noteBackground (·.text == "note one") where
  named := by decide
  found := by decide +kernel
  plain := by
    rw [lines_noteBackground]
    refine List.forall_mem_cons.2 ⟨?_, List.forall_mem_singleton.2 ?_⟩ <;> decide +kernel
  offered := by
    rw [lines_noteBackground]
    refine List.forall_mem_cons.2 ⟨?_, List.forall_mem_singleton.2 ?_⟩
    · exact .consumed fun store => ⟨store, rfl⟩
    · exact .proceed (fun store => ⟨store, rfl⟩) .nobody
  resolves := by
    rw [lines_noteBackground]
    refine List.forall_mem_cons.2 ⟨fun untaken => ?_, List.forall_mem_singleton.2 fun _ => ?_⟩
    · exact absurd untaken (by decide)
    · exact ⟨_, findAction_open _⟩

/-- The action of the line that negates the directive for the background. -/
def negatedBackground : StepAction Unit :=
  .resolved "haibun" Builtin.notStep
    [⟨"what", backgroundDirective "b", .statement, Domain.statement⟩]

/-- In a feature the note is no step. In a statement it is one, which is not resolved. -/
theorem background_actions_note :
    (∃ steps store',
      ((resolveFeature [noteStepper] ⟨[noteBackground], []⟩ 1
        ⟨"a.feature", "features", noteBackground.lines⟩).run.run ⟨noteRegistry, []⟩).start () =
          (.ok (.ok ⟨"a.feature", "features", steps⟩, ⟨noteRegistry, []⟩), store') ∧
      steps.map (·.head.action) = [.resolved "t" openStep []]) ∧
    ∃ steps,
      (buildStep noteRegistry ⟨[noteBackground], []⟩ maxStatementDepth negatedBackground
        ⟨⟨"a.feature", 1⟩, "not Backgrounds: b"⟩ ⟨[1, 1]⟩).nested[0]? =
          some (.mk "what" steps) ∧
      steps.length = 2 ∧ ∃ step ∈ steps, step.head.action.unresolvedMessage? ≠ none := by
  obtain ⟨-, offered, nested, -⟩ := background_actions isOffered_noteBackground
  refine ⟨?_, ?_⟩
  · obtain ⟨steps, store', ran, actions, -⟩ := offered 1 "a.feature" "features" ()
      (List.forall_mem_singleton.2 fun store => ⟨(), store, rfl⟩)
    refine ⟨steps, store', ran, ?_⟩
    rw [actions, lines_noteBackground]
    exact congrArg (fun action => [action]) (actionOf_of_ok (findAction_open _))
  · obtain ⟨steps, below, actions, unresolved⟩ := nested 15 negatedBackground
      ⟨⟨"a.feature", 1⟩, "not Backgrounds: b"⟩ ⟨[1, 1]⟩ 0 _ rfl rfl
    refine ⟨steps, below, ?_, unresolved.2 ⟨⟨⟨"b.feature", 1⟩, "note one"⟩, ?_, rfl, ?_⟩⟩
    · rw [← List.length_map, actions, List.length_map, lines_noteBackground]
      rfl
    · rw [lines_noteBackground]
      exact List.mem_cons_self
    · intro action found
      obtain ⟨e, missing⟩ := findAction_note ⟨"b.feature", 1⟩
      rw [missing] at found
      cases found

/-- Not every background has the same actions in a feature and in a statement. -/
theorem not_all_backgrounds_alike :
    ¬ ∀ (steppers : List (Stepper Unit)) (library : SourceLibrary) (r : Resolver Unit)
      (name : String) (b : FeatureSource) (taken : SourcedLine → Bool),
      IsOffered steppers library r name b taken →
        ∀ (index levels : Nat) (path base : String) (feature : ResolvedFeature Unit)
          (r' : Resolver Unit) (store store' : Unit),
          ((resolveFeature steppers library index ⟨path, base, b.lines⟩).run.run r).start store =
            (.ok (.ok feature, r'), store') →
          ∀ (action : StepAction Unit) (line : SourcedLine) (parent : SeqPath) (i : Nat)
            (c : Capture) (statement : NestedStatement Unit),
            levels < maxStatementDepth → (statementsOf action)[i]? = some c →
            c.term = backgroundDirective name →
            (buildStep r.registry library (levels + 1) action line parent).nested[i]? =
              some statement →
            statement.steps.map (·.head.action) = feature.steps.map (·.head.action) := by
  intro alike
  have h := isOffered_noteBackground
  obtain ⟨offered, answers, own⟩ := h.resolveFeature 1 "a.feature"
    (List.forall_mem_singleton.2 fun store => ⟨(), store, rfl⟩) "features"
  obtain ⟨store', ran⟩ := answers ()
  let line : SourcedLine := ⟨⟨"a.feature", 1⟩, "not Backgrounds: b"⟩
  have expanded := h.named.statementLines h.found h.plain line.source
  obtain ⟨steps, nested, all⟩ :=
    nested_backgrounds expanded 15 negatedBackground ⟨[1, 1]⟩ (i := 0) rfl rfl
  have same := alike _ _ _ _ _ _ h 1 15 _ _ _ _ _ _ ran negatedBackground line ⟨[1, 1]⟩ 0 _ _
    (by decide) rfl rfl nested
  have two : (noteBackground.lines.map (actionOf noteRegistry)).length =
      ((noteBackground.lines.filter (! ·.text == "note one")).map
        (actionOf noteRegistry)).length :=
    congrArg List.length (all.symm.trans (same.trans own))
  rw [List.length_map, List.length_map, lines_noteBackground] at two
  exact absurd two (by decide)

end PlainSteps
