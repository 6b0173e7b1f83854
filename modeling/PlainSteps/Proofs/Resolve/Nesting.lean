import PlainSteps.Proofs.Builtin.Forms
import PlainSteps.Proofs.Resolve.Backgrounds

/-!
# How deeply statements nest

A statement may stand for itself again, by way of a background that its directive names, so nothing
in the text of a line bounds the steps below it. Levels are counted: the statements of a step are
resolved down to sixteen levels below the step of a feature, and those of a step on that level are
cut off, each with one step that fails. Above that nothing is cut off.

* `FeatureStep.Resolves`, `FeatureStep.Fails`, `FeatureStep.IsCutOff`: the three ways in which a
  step arises.
* `OnLevel`: what a step is, by the level that it is on.
* `onLevel_of_mem_buildStep`: every step of a tree is that.
* `IsExpansion`: the equations of expanding statements while levels are counted.
* `isExpansion_iff`: just one expansion satisfies them.
* `buildStep_levels`: the levels of the tree of a line.

Proof-only: no module that runs imports this one.
-/

namespace PlainSteps

open FeatureStep

variable {σ : Type}

/-! ## Messages -/

theorem last_append (s : String) {t : String} {c : Char} (h : t.toList.getLast? = some c) :
    (s ++ t).toList.getLast? = some c := by
  simp [String.toList_append, h]

theorem last_backquoted (s : String) : (backquoted s).toList.getLast? = some '\x60' :=
  last_append _ (by decide)

theorem ResolveError.last_tooDeep (text : String) (location : SourceLocation) :
    (tooDeep text location).message.toList.getLast? = some 'y' := last_append _ (by decide)

/-- A message that ends in another letter is not that a statement nests too deeply. -/
theorem ResolveError.ne_tooDeep {message : String} {c : Char}
    (last : message.toList.getLast? = some c) (ne : c ≠ 'y') (term : String)
    (location : SourceLocation) : message ≠ (tooDeep term location).message := by
  rintro rfl
  rw [last_tooDeep] at last
  exact ne (Option.some.inj last).symm

theorem CollectError.message_ne_tooDeep (e : CollectError) (term : String)
    (location : SourceLocation) : e.message ≠ (ResolveError.tooDeep term location).message := by
  cases e with
  | noFeatures => exact ResolveError.ne_tooDeep (c := 'n') (by decide) (by decide) term location
  | duplicatePath path | missingInclude kind path _ =>
    exact ResolveError.ne_tooDeep (last_append _ (last_backquoted path)) (by decide) term location
  | includeCycle name inner =>
    exact ResolveError.ne_tooDeep (last_append _ (t := " includes itself") (c := 'f') (by decide))
      (by decide) term location

/-- Why an action is not found: no step matches, or several do. -/
theorem eq_of_findAction_error {registry : StepRegistry σ} {text : String}
    {location : SourceLocation} {e : ResolveError}
    (h : findAction registry text location = .error e) :
    e = .noStep text location ∨ ∃ names, e = .ambiguous text location names := by
  unfold findAction at h
  simp only at h
  split at h
  · cases h
    exact .inl rfl
  · split at h
    · cases h
    · cases h
      exact .inr ⟨_, rfl⟩

/-- Neither is reported as if the statement of the line were nested too deeply. -/
theorem message_findAction_ne {registry : StepRegistry σ} {text : String}
    {location : SourceLocation} {e : ResolveError}
    (h : findAction registry text location = .error e) (term : String) :
    e.message ≠ (ResolveError.tooDeep term location).message := by
  intro same
  rcases eq_of_findAction_error h with rfl | ⟨names, rfl⟩
  · exact ResolveError.ne_tooDeep (last_append _ (last_backquoted text)) (by decide) _ _ same
  · -- Both start with the place; one goes on with a quote and the other with a word.
    have chars := congrArg String.toList same
    simp [ResolveError.message, backquoted, String.toList_append] at chars

/-- Where an action is found, it is whatever the place of the line. -/
theorem findAction_elsewhere {registry : StepRegistry σ} {text : String}
    {location : SourceLocation} {action : StepAction σ}
    (h : findAction registry text location = .ok action) (other : SourceLocation) :
    findAction registry text other = .ok action := by
  unfold findAction at h ⊢
  simp only at h ⊢
  split at h
  · cases h
  · next filled =>
    rw [if_neg filled]
    cases chosen : chooseCandidate (registry.candidates text) with
    | none =>
      rw [chosen] at h
      cases h
    | some c =>
      rw [chosen] at h
      exact h

/-! ## How a step arises -/

/-- Whether a step is that of a line which resolves to its action. -/
def FeatureStep.Resolves (registry : StepRegistry σ) (s : FeatureStep σ) : Prop :=
  ∀ location, findAction registry s.head.text location = .ok s.head.action

/-- Whether a step, with none below it, is that of a line to which no step or none alone fits, or
that of a statement in which a directive cannot be expanded. -/
def FeatureStep.Fails (registry : StepRegistry σ) (library : SourceLibrary) (s : FeatureStep σ) :
    Prop :=
  ∃ text source path e, s = .unresolved text source path e.message ∧
    (findAction registry text source = .error e ∨
      ∃ fault, statementLines library text source = .error fault ∧ e = .inclusion fault)

/-- Whether a step, with none below it, is that of a statement which nests too deeply. -/
def FeatureStep.IsCutOff (s : FeatureStep σ) : Prop :=
  ∃ term source path, s = .unresolved term source path (ResolveError.tooDeep term source).message

theorem FeatureStep.Fails.message_ne {registry : StepRegistry σ} {library : SourceLibrary}
    {s : FeatureStep σ} (h : s.Fails registry library) (term : String) :
    s.head.action.unresolvedMessage? ≠
      some (ResolveError.tooDeep term s.head.source).message := by
  obtain ⟨text, source, path, e, rfl, why⟩ := h
  intro same
  have message : e.message = (ResolveError.tooDeep term source).message := Option.some.inj same
  rcases why with unmatched | ⟨fault, -, rfl⟩
  · exact message_findAction_ne unmatched term message
  · exact fault.message_ne_tooDeep term source message

theorem FeatureStep.Resolves.message_eq {registry : StepRegistry σ} {s : FeatureStep σ}
    (h : s.Resolves registry) : s.head.action.unresolvedMessage? = none := by
  obtain ⟨step, -, captures, -, same⟩ := exists_step_of_findAction (h ⟨"", 0⟩)
  rw [same]
  rfl

/-! ## The statements of a step -/

/-- The texts of the steps of a statement: those of its lines, or the whole of it where a directive
cannot be expanded. -/
def linesOf (library : SourceLibrary) (term : String) (location : SourceLocation) : List String :=
  match statementLines library term location with
  | .ok lines => lines.map (·.text)
  | .error _ => [term]

/-- A statement as its label and the texts of its steps. -/
def NestedStatement.outline (s : NestedStatement σ) : String × List String :=
  (s.label, s.steps.map (·.head.text))

theorem outline_unresolvedStatement (label term : String) (location : SourceLocation)
    (parent : SeqPath) (next : Nat) (e : ResolveError) :
    (NestedStatement.mk (σ := σ) label
      (unresolvedStatement term location parent next e).1).outline = (label, [term]) := rfl

variable (registry : StepRegistry σ) (library : SourceLibrary)

/-- On the last level each statement stands as one step. -/
theorem outline_buildStep_zero (action : StepAction σ) (line : SourcedLine) (path : SeqPath) :
    (buildStep registry library 0 action line path).nested.map (·.outline) =
      (statementsOf action).map fun c => (c.label, [c.term]) := by
  rw [buildStep]
  apply map_expandStatements
  intro c next
  exact outline_unresolvedStatement ..

/-- Above it a statement has a step for each of its lines. -/
theorem outline_buildStep_succ (levels : Nat) (action : StepAction σ) (line : SourcedLine)
    (path : SeqPath) :
    (buildStep registry library (levels + 1) action line path).nested.map (·.outline) =
      (statementsOf action).map fun c => (c.label, linesOf library c.term line.source) := by
  rw [buildStep]
  apply map_expandStatements
  intro c next
  unfold linesOf
  cases statementLines library c.term line.source with
  | error e => exact outline_unresolvedStatement ..
  | ok lines =>
    refine Prod.ext rfl (map_stepsBelow (fun inner innerPath => ?_) next lines)
    cases findAction registry inner.text inner.source with
    | ok action => exact congrArg StepHead.text (buildStep_head ..)
    | error e => rfl

/-! ## The levels of a tree -/

/-- What a step is that lies some levels below one which may have so many of them. -/
inductive OnLevel (levels : Nat) : Nat → FeatureStep σ → Prop
  /-- The step of a line that resolves, which may have the levels that are left. -/
  | resolved {level : Nat} {action : StepAction σ} {line : SourcedLine} {path : SeqPath}
    (within : level ≤ levels) (found : findAction registry line.text line.source = .ok action) :
    OnLevel levels level (buildStep registry library (levels - level) action line path)
  | fails {level : Nat} {s : FeatureStep σ} (within : level ≤ levels)
    (h : s.Fails registry library) : OnLevel levels level s
  | cutOff {s : FeatureStep σ} (h : s.IsCutOff) : OnLevel levels (levels + 1) s

variable {registry library}

/-- What lies below a step lies one level further down from the step above it. -/
theorem OnLevel.succ {levels level : Nat} {s : FeatureStep σ}
    (h : OnLevel registry library levels level s) :
    OnLevel registry library (levels + 1) (level + 1) s := by
  cases h with
  | resolved within found =>
    rw [← Nat.add_sub_add_right levels 1 level]
    exact .resolved (by omega) found
  | fails within h => exact .fails (by omega) h
  | cutOff h => exact .cutOff h

/-- A step without others below it is alone on its levels. -/
theorem eq_of_mem_atLevel_unresolved {text : String} {source : SourceLocation} {path : SeqPath}
    {message : String} {level : Nat} {d : FeatureStep σ}
    (h : d ∈ (unresolved text source path message).atLevel level) :
    level = 0 ∧ d = unresolved text source path message := by
  cases level with
  | zero => exact ⟨rfl, List.mem_singleton.1 h⟩
  | succ level =>
    obtain ⟨c, hc, -⟩ := mem_atLevel_succ.1 h
    cases hc

theorem onLevel_of_mem_buildStep {levels : Nat} {action : StepAction σ} {line : SourcedLine}
    (found : findAction registry line.text line.source = .ok action) {path : SeqPath} {level : Nat}
    {d : FeatureStep σ}
    (hd : d ∈ (buildStep registry library levels action line path).atLevel level) :
    OnLevel registry library levels level d := by
  -- The levels that are left decide; they shrink with each level that is entered.
  induction levels generalizing action line path level with
  | zero =>
    cases level with
    | zero =>
      obtain rfl := List.mem_singleton.1 hd
      exact .resolved (Nat.le_refl 0) found
    | succ level =>
      obtain ⟨c, hc, hd⟩ := mem_atLevel_succ.1 hd
      obtain ⟨term, next, hc⟩ := mem_expandStatements hc
      obtain rfl := List.mem_singleton.1 hc
      obtain ⟨rfl, rfl⟩ := eq_of_mem_atLevel_unresolved hd
      exact .cutOff ⟨_, _, _, rfl⟩
  | succ levels ih =>
    cases level with
    | zero =>
      obtain rfl := List.mem_singleton.1 hd
      exact .resolved (by omega) found
    | succ level =>
      obtain ⟨c, hc, hd⟩ := mem_atLevel_succ.1 hd
      obtain ⟨term, next, hc⟩ := mem_expandStatements hc
      cases expanded : statementLines library term line.source with
      | error fault =>
        rw [expanded] at hc
        obtain rfl := List.mem_singleton.1 hc
        obtain ⟨rfl, rfl⟩ := eq_of_mem_atLevel_unresolved hd
        exact .fails (by omega) ⟨_, _, _, _, rfl, .inr ⟨fault, expanded, rfl⟩⟩
      | ok lines =>
        rw [expanded] at hc
        obtain ⟨inner, innerPath, rfl⟩ := mem_stepsBelow hc
        cases own : findAction registry inner.text inner.source with
        | ok action =>
          rw [own] at hd
          exact (ih own hd).succ
        | error e =>
          rw [own] at hd
          obtain ⟨rfl, rfl⟩ := eq_of_mem_atLevel_unresolved hd
          exact .fails (by omega) ⟨_, _, _, _, rfl, .inl own⟩

namespace OnLevel

variable {levels level : Nat} {s : FeatureStep σ} (h : OnLevel registry library levels level s)

include h

theorem le : level ≤ levels + 1 := by
  cases h <;> omega

theorem isCutOff (last : level = levels + 1) : s.IsCutOff := by
  cases h with
  | resolved within found => omega
  | fails within h => omega
  | cutOff h => exact h

theorem resolves_or_fails (within : level ≤ levels) :
    s.Resolves registry ∨ s.Fails registry library := by
  cases h with
  | resolved within found =>
    left
    unfold Resolves
    rw [buildStep_head]
    exact findAction_elsewhere found
  | fails within h => exact .inr h
  | cutOff h => omega

/-- Above the last two levels, each statement has a step for each of its lines. -/
theorem outline_of_lt (above : level < levels) : ∃ location, s.nested.map (·.outline) =
    (statementsOf s.head.action).map fun c => (c.label, linesOf library c.term location) := by
  cases h with
  | @resolved _ action line path within found =>
    refine ⟨line.source, ?_⟩
    obtain ⟨left_, more⟩ : ∃ n, levels - level = n + 1 := ⟨levels - level - 1, by omega⟩
    rw [more, outline_buildStep_succ, buildStep_head]
  | fails within h =>
    obtain ⟨text, source, path, e, rfl, -⟩ := h
    exact ⟨source, rfl⟩
  | cutOff h => omega

/-- On the last level but one, each statement stands as one step. -/
theorem outline_of_eq (here : level = levels) : s.nested.map (·.outline) =
    (statementsOf s.head.action).map fun c => (c.label, [c.term]) := by
  cases h with
  | resolved within found =>
    rw [here, Nat.sub_self, outline_buildStep_zero, buildStep_head]
  | fails within h =>
    obtain ⟨text, source, path, e, rfl, -⟩ := h
    rfl
  | cutOff h => omega

end OnLevel

/-! ## Counting levels -/

variable (registry library)

/-- A way to expand the statements of a line whose step lies so many levels below that of a
feature. -/
abbrev Expansion (σ : Type) : Type :=
  (depth : Nat) → StepAction σ → SourcedLine → SeqPath → FeatureStep σ

/-- The equations of an expansion: the statements of a step are one level further down than it, and
those that are too far down are cut off. -/
def IsExpansion (expand : Expansion σ) : Prop :=
  ∀ depth action line path, expand depth action line path =
    .mk ⟨reportedSource action line, line.text, path, action⟩
      (expandStatements (fun term next =>
        if maxStatementDepth < depth + 1 then
          unresolvedStatement term line.source path next (.tooDeep term line.source)
        else
          match statementLines library term line.source with
          | .error e => unresolvedStatement term line.source path next (.inclusion e)
          | .ok lines =>
            stepsBelow path (fun inner innerPath =>
              match findAction registry inner.text inner.source with
              | .ok action => expand (depth + 1) action inner innerPath
              | .error e => .unresolved inner.text inner.source innerPath e.message) next lines)
        1 (statementsOf action))

/-- The expansion that counts the levels which are left satisfies the equations. -/
theorem isExpansion_buildStep : IsExpansion registry library fun depth =>
    buildStep registry library (maxStatementDepth - depth) := by
  intro depth action line path
  by_cases deep : maxStatementDepth < depth + 1
  · simp only [if_pos deep, show maxStatementDepth - depth = 0 by omega, buildStep]
  · simp only [if_neg deep,
      show maxStatementDepth - depth = maxStatementDepth - (depth + 1) + 1 by omega]
    rfl

/-- No other does: the equations, although nothing in the text of a line bounds them, always come
to an end. -/
theorem isExpansion_iff (expand : Expansion σ) : IsExpansion registry library expand ↔
    expand = fun depth => buildStep registry library (maxStatementDepth - depth) := by
  constructor
  · intro h
    have each (left_ : Nat) : ∀ depth, maxStatementDepth - depth = left_ →
        expand depth = buildStep registry library left_ := by
      induction left_ with
      | zero =>
        intro depth none_left
        funext action line path
        rw [h, buildStep]
        simp only [if_pos (show maxStatementDepth < depth + 1 by omega)]
      | succ n ih =>
        intro depth more
        funext action line path
        rw [h]
        simp only [if_neg (show ¬ maxStatementDepth < depth + 1 by omega),
          ih (depth + 1) (by omega)]
        rfl
    funext depth
    exact each _ depth rfl
  · rintro rfl
    exact isExpansion_buildStep registry library

/-! ## The tree of a line -/

variable {registry library}

/-- Expanding the statements of a line comes to one tree, and each step in it lies at most one level
below the last that statements may nest to. A step on that level is cut off and has none below it;
a step above is the one of a line that resolves, or fails for another reason, and is never reported
to nest too deeply. The statements of a step above the last two levels have a step for each of
their lines. -/
theorem buildStep_levels {line : SourcedLine} {action : StepAction σ} (path : SeqPath)
    (found : findAction registry line.text line.source = .ok action) :
    (∀ expand, IsExpansion registry library expand ↔
      expand = fun depth => buildStep registry library (maxStatementDepth - depth)) ∧
    (∀ d ∈ (buildStep registry library maxStatementDepth action line path).all,
      ∃ level ≤ 17, d ∈ (buildStep registry library maxStatementDepth action line path).atLevel
        level) ∧
    ∀ level, ∀ d ∈ (buildStep registry library maxStatementDepth action line path).atLevel level,
      level ≤ 17 ∧
      (level = 17 → d.IsCutOff) ∧
      (level ≤ 16 → (d.Resolves registry ∨ d.Fails registry library) ∧
        ∀ term, d.head.action.unresolvedMessage? ≠
          some (ResolveError.tooDeep term d.head.source).message) ∧
      (level = 16 → d.nested.map (·.outline) =
        (statementsOf d.head.action).map fun c => (c.label, [c.term])) ∧
      (level ≤ 15 → ∃ location, d.nested.map (·.outline) =
        (statementsOf d.head.action).map fun c => (c.label, linesOf library c.term location)) := by
  have onLevel {level : Nat} {d : FeatureStep σ}
      (hd : d ∈ (buildStep registry library maxStatementDepth action line path).atLevel level) :
      OnLevel registry library 16 level d := onLevel_of_mem_buildStep found hd
  refine ⟨isExpansion_iff registry library, fun d hd => ?_, fun level d hd => ?_⟩
  · obtain ⟨level, hd⟩ := mem_all_iff_atLevel.1 hd
    exact ⟨level, (onLevel hd).le, hd⟩
  · have h := onLevel hd
    refine ⟨h.le, h.isCutOff, fun within => ?_, h.outline_of_eq, fun above => ?_⟩
    · have arises := h.resolves_or_fails within
      refine ⟨arises, fun term => ?_⟩
      rcases arises with resolves | fails
      · simp [resolves.message_eq]
      · exact fails.message_ne term
    · exact h.outline_of_lt (by omega)

/-- A registry that offers negations only. -/
def notRegistry : StepRegistry Unit where
  steps := [⟨"haibun", Builtin.notStep, .template Builtin.notTemplate⟩]
  domains := DomainRegistry.initial.names

/-- A line that negates the lines of a background. -/
def loopText : String := "not " ++ backgroundDirective "loop"

/-- A background with this line, whose statement it is itself. -/
def loopBackground : FeatureSource := ⟨"loop.feature", loopText, ""⟩

/-- The action of the line. -/
def loopAction : StepAction Unit :=
  .resolved "haibun" Builtin.notStep
    [⟨"what", backgroundDirective "loop", .statement, Domain.statement⟩]

theorem lines_loopBackground : loopBackground.lines = [⟨⟨"loop.feature", 1⟩, loopText⟩] := by
  decide +kernel

theorem findAction_loop (location : SourceLocation) :
    findAction notRegistry loopText location = .ok loopAction := by
  have matched : (Matcher.template Builtin.notTemplate).match? loopText =
      some [⟨"what", backgroundDirective "loop", .statement, Domain.statement⟩] := by
    decide +kernel
  unfold findAction
  rw [notRegistry, StepRegistry.candidates_cons_of_some matched, StepRegistry.candidates_nil]
  rfl

theorem statementLines_loop (location : SourceLocation) :
    statementLines ⟨[loopBackground], []⟩ (backgroundDirective "loop") location =
      .ok [⟨⟨"loop.feature", 1⟩, loopText⟩] := by
  have named : IsSourceName "loop" := by decide
  rw [← lines_loopBackground]
  refine named.statementLines (by decide +kernel) ?_ location
  rw [lines_loopBackground]
  exact List.forall_mem_singleton.2 (by decide +kernel)

/-- The line has steps on all levels that there may be. -/
theorem exists_atLevel_loop (levels : Nat) (line : SourcedLine) (path : SeqPath) :
    ∃ d, d ∈ (buildStep notRegistry ⟨[loopBackground], []⟩ levels loopAction line path).atLevel
      (levels + 1) := by
  induction levels generalizing line path with
  | zero => exact ⟨_, List.mem_singleton_self _⟩
  | succ levels ih =>
    obtain ⟨d, hd⟩ := ih ⟨⟨"loop.feature", 1⟩, loopText⟩ (path.child 1)
    refine ⟨d, mem_atLevel_succ.2 ⟨_, ?_, hd⟩⟩
    have only : statementsOf loopAction =
        [⟨"what", backgroundDirective "loop", .statement, Domain.statement⟩] := by decide
    simp [children, nested, buildStep, only, expandStatements, statementLines_loop, stepsBelow,
      findAction_loop, NestedStatement.steps]

/-- A line whose statement is that line again has a step on the last level, which is cut off. -/
theorem buildStep_levels_loop :
    ∃ d ∈ (buildStep notRegistry ⟨[loopBackground], []⟩ maxStatementDepth loopAction
      ⟨⟨"a.feature", 1⟩, loopText⟩ ⟨[1, 1]⟩).atLevel 17, d.IsCutOff := by
  obtain ⟨d, hd⟩ := exists_atLevel_loop maxStatementDepth ⟨⟨"a.feature", 1⟩, loopText⟩ ⟨[1, 1]⟩
  have levels := @buildStep_levels Unit notRegistry ⟨[loopBackground], []⟩
    ⟨⟨"a.feature", 1⟩, loopText⟩ loopAction ⟨[1, 1]⟩ (findAction_loop _)
  exact ⟨d, hd, (levels.2.2 17 d hd).2.1 rfl⟩

end PlainSteps
