import PlainSteps.Builtin.Structure
import PlainSteps.Proofs.Domain.Registered
import PlainSteps.Proofs.Run.Steps
import PlainSteps.Resolve.Statement
import PlainSteps.Run.Basic

/-!
# Negations of negations

A negation of a statement that was not resolved fails. The result of a negation does not tell that
the statement under it was not resolved, so that a further negation takes the failure for that of
any step: the outcomes of nested negations alternate.

* `Negations`: a chain of negations whose innermost statement was not resolved.
* `negations_buildStep`: the resolution of a line makes such chains.
* `executeStep_negation`: the result of a negation, from that of the step under it.
* `executeStep_negations`: a chain passes if and only if it has an even number of negations.
* `not_all_negations_fail`: two negations of a line that matches no step pass.

Proof-only: no module that runs imports this one.
-/

namespace PlainSteps

variable {σ : Type}

/-! ## Domains -/

/-- In a run the domain of statements takes texts as they are. -/
theorem lookup_statement {steppers : List (Stepper σ)} {domains : DomainRegistry}
    (h : Run.domainsOf steppers = .ok domains) :
    domains.lookup Domain.statement = some (.plainText Domain.statement) := by
  unfold Run.domainsOf at h
  obtain ⟨all, registered, h⟩ := ok_of_bind h
  obtain ⟨-, -, h⟩ := ok_of_bind h
  cases h
  exact DomainRegistry.lookup_of_registerAll registered rfl

/-! ## Chains of negations -/

/-- The action of the negation of a statement. -/
def negationOf (term : String) : StepAction σ :=
  .resolved "haibun" Builtin.notStep [⟨"what", term, .statement, Domain.statement⟩]

/-- A step that consists of so many negations around a step whose line was not resolved. -/
inductive Negations (message : String) : Nat → FeatureStep σ → Prop
  | unresolved (text : String) (source : SourceLocation) (seqPath : SeqPath) :
    Negations message 0 (.unresolved text source seqPath message)
  | negation {n : Nat} {inner : FeatureStep σ} (source : SourceLocation) (text : String)
    (seqPath : SeqPath) (term : String) (h : Negations message n inner) :
    Negations message (n + 1)
      (.mk ⟨source, text, seqPath, negationOf term⟩ [.mk "what" [inner]])

/-- A statement that expands to so many negations of one that cannot be resolved: it is too deep,
includes what is missing, or is a line for which no step can be chosen. -/
inductive LeadsNowhere (registry : StepRegistry σ) (library : SourceLibrary) :
    (message : String) → (levels n : Nat) → (term : String) → SourceLocation → Prop
  | tooDeep (term : String) (location : SourceLocation) :
    LeadsNowhere registry library (ResolveError.tooDeep term location).message 0 0 term location
  | inclusion {levels : Nat} {term : String} {location : SourceLocation} {e : CollectError}
    (h : statementLines library term location = .error e) :
    LeadsNowhere registry library (ResolveError.inclusion e).message (levels + 1) 0 term location
  | noAction {levels : Nat} {term : String} {location : SourceLocation} {line : SourcedLine}
    {e : ResolveError} (h : statementLines library term location = .ok [line])
    (none : findAction registry line.text line.source = .error e) :
    LeadsNowhere registry library e.message (levels + 1) 0 term location
  | negation {message : String} {levels n : Nat} {term term' : String} {location : SourceLocation}
    {line : SourcedLine} (h : statementLines library term location = .ok [line])
    (negated : findAction registry line.text line.source = .ok (negationOf term'))
    (deeper : LeadsNowhere registry library message levels n term' line.source) :
    LeadsNowhere registry library message (levels + 1) (n + 1) term location

theorem statementsOf_negationOf (term : String) : statementsOf (negationOf (σ := σ) term) =
    [⟨"what", term, .statement, Domain.statement⟩] := rfl

/-- The negation of such a statement resolves to a chain with one negation more. -/
theorem negations_buildStep {registry : StepRegistry σ} {library : SourceLibrary}
    {message : String} {levels n : Nat} {term : String} {location : SourceLocation}
    (h : LeadsNowhere registry library message levels n term location) {line : SourcedLine}
    (source : line.source = location) (seqPath : SeqPath) :
    Negations message (n + 1)
      (buildStep registry library levels (negationOf term) line seqPath) := by
  induction h generalizing line seqPath with
  | tooDeep term location =>
    subst source
    exact .negation _ _ _ _ (.unresolved _ _ _)
  | inclusion missing =>
    subst source
    simp only [buildStep, statementsOf_negationOf, expandStatements, missing]
    exact .negation _ _ _ _ (.unresolved _ _ _)
  | noAction h none =>
    subst source
    simp only [buildStep, statementsOf_negationOf, expandStatements, h, stepsBelow, none]
    exact .negation _ _ _ _ (.unresolved _ _ _)
  | negation h negated deeper ih =>
    subst source
    simp only [buildStep, statementsOf_negationOf, expandStatements, h, stepsBelow, negated]
    exact .negation _ _ _ _ (ih rfl _)

/-! ## Running a chain -/

/-- A statement that is a single step has its result only, whatever that is. -/
theorem executeStatement_single {ctx : RunContext σ} {label : String} {step : FeatureStep σ}
    {s s' : Session σ} {r : StepResult} (ran : (executeStep ctx step).start s = (.ok r, s')) :
    (executeStatement ctx label [.mk label [step]]).start s = (.ok [r], s') := by
  rw [executeStatement, if_pos rfl, executeUntilFailure, Effect.start_bind, ran]
  simp only
  split <;> rfl

/-- The term of a negation has a value, which is the term. -/
theorem populate_negationOf {domains : DomainRegistry}
    (known : domains.lookup Domain.statement = some (.plainText Domain.statement)) (world : World)
    (env : Table String) (term : String) :
    populate world domains env (negationOf (σ := σ) term).captures =
      .ok (.ofList [("what", ⟨"what", term, .statement, Domain.statement, .text term⟩)]) := by
  have single : Domain.isUnion Domain.statement = false := by decide
  have read : domains.coerce ⟨"what", .statement, term, Domain.statement, none⟩ =
      .ok ⟨Domain.statement, .text term⟩ :=
    DomainRegistry.coerce_plainText single (by decide) known (by simp) ..
  have value : populateCapture world domains env ⟨"what", term, .statement, Domain.statement⟩ =
      .ok (some ⟨"what", term, .statement, Domain.statement, .text term⟩) := by
    simp only [populateCapture, lookUp, TermText.literal, bind, Except.bind, read]
    rfl
  show populate world domains env [⟨"what", term, .statement, Domain.statement⟩] = _
  rw [populate, List.mapM_cons, value]
  rfl

/-- The result of a negation is the outcome that it makes of the result of its statement. -/
theorem executeStep_negation {ctx : RunContext σ}
    (domains : Run.domainsOf ctx.steppers = .ok ctx.domains) {inner : FeatureStep σ}
    {s s' : Session σ} {r : StepResult} (ran : (executeStep ctx inner).start s = (.ok r, s'))
    (source : SourceLocation) (text : String) (seqPath : SeqPath) (term : String) :
    ∃ result, (executeStep ctx
        (.mk ⟨source, text, seqPath, negationOf term⟩ [.mk "what" [inner]])).start s =
        (.ok result, s') ∧
      result.ok = (Builtin.negate [r]).ok ∧
      result.actions = [(Builtin.negate [r]).named "haibun.not"] := by
  have values := populate_negationOf (σ := σ) (lookup_statement domains) s.world ctx.config.env term
  have action (vars : Variables) : (Builtin.notStep.action (FeatureStep.context
      (.mk ⟨source, text, seqPath, negationOf term⟩ [.mk "what" [inner]]) ctx vars)).start s =
        (.ok (.ok (Builtin.negate [r])), s') := by
    show (executeStatement ctx "what" [.mk "what" [inner]] >>= fun results =>
      pure (Except.ok (Builtin.negate results))).start s = _
    rw [Effect.start_bind, executeStatement_single ran]
    rfl
  exact ⟨_, start_executeStep_of_values rfl values (action _), rfl, rfl⟩

/-- What a chain results in: it passes if it has negations and their number is even. Only a single
negation tells why its statement was not resolved. -/
def chainOutcome (message : String) : Nat → ActionOutcome
  | 0 => .failed message
  | 1 => .failed ("statement did not resolve: " ++ message)
  | n + 2 => if n % 2 = 0 then .passed else .failed "statement passed"

theorem chainOutcome_ok (message : String) (n : Nat) :
    (chainOutcome message (n + 1)).ok = decide ((n + 1) % 2 = 0) := by
  match n with
  | 0 => rfl
  | n + 1 =>
    rw [chainOutcome, show (n + 1 + 1) % 2 = n % 2 by omega]
    split <;> simp_all [ActionOutcome.passed, ActionOutcome.failed]

/-- The name of the action of a chain. -/
def chainName : Nat → String
  | 0 => unresolvedName
  | _ + 1 => "haibun.not"

/-- A negation makes the outcome of a longer chain from that of a chain. -/
theorem negate_chain {message : String} {n : Nat} {r : StepResult}
    (ok : r.ok = (chainOutcome message n).ok)
    (actions : r.actions = [(chainOutcome message n).named (chainName n)]) :
    Builtin.negate [r] = chainOutcome message (n + 1) := by
  have seen : r.actions.any (·.name == unresolvedName) = (chainName n == unresolvedName) := by
    rw [actions]
    exact Bool.or_false _
  cases n with
  | zero =>
    have failure : r.failureMessage = some message := by
      rw [StepResult.failureMessage, StepResult.failedAction?, actions]
      rfl
    have unresolved : r.actions.any (·.name == unresolvedName) = true := seen.trans (by decide)
    simp [Builtin.negate, unresolved, failure, chainOutcome]
  -- the name of the action is that of a negation, and the cause under it is not seen
  | succ n =>
    have resolved : r.actions.any (·.name == unresolvedName) = false :=
      seen.trans (show ("haibun.not" == unresolvedName) = false by decide)
    have inverted : Builtin.negate [r] =
        if r.ok then .failed "statement passed" else .passed := by
      simp [Builtin.negate, resolved]
    rw [inverted, ok, chainOutcome_ok, chainOutcome]
    by_cases even : n % 2 = 0
    · rw [if_pos even, if_neg]
      simp only [decide_eq_true_eq]
      omega
    · rw [if_neg even, if_pos]
      simp only [decide_eq_true_eq]
      omega

/-- A chain of negations around a step that was not resolved changes nothing, and its result is
that of its length. -/
theorem executeStep_chain {ctx : RunContext σ}
    (domains : Run.domainsOf ctx.steppers = .ok ctx.domains) {message : String} {n : Nat}
    {step : FeatureStep σ} (chain : Negations message n step) (s : Session σ) :
    ∃ r, (executeStep ctx step).start s = (.ok r, s) ∧ r.ok = (chainOutcome message n).ok ∧
      r.actions = [(chainOutcome message n).named (chainName n)] := by
  induction chain with
  | unresolved text source seqPath => exact ⟨_, rfl, rfl, rfl⟩
  | negation source text seqPath term inner ih =>
    obtain ⟨r, ran, ok, actions⟩ := ih
    rw [← negate_chain ok actions]
    exact executeStep_negation domains ran source text seqPath term

/-- Negations around a step that was not resolved pass if and only if their number is even. A
single one tells why the step was not resolved. A line is such a chain if it negates a statement
that is too deep, includes what is missing or gets no step, or that negates another such one. -/
theorem executeStep_negations :
    (∀ (ctx : RunContext σ), Run.domainsOf ctx.steppers = .ok ctx.domains →
      ∀ (message : String) (n : Nat) (step : FeatureStep σ), 0 < n → Negations message n step →
        ∀ s : Session σ, ∃ r, (executeStep ctx step).start s = (.ok r, s) ∧
          (r.ok = true ↔ n % 2 = 0) ∧
          (n = 1 → r.failureMessage = some ("statement did not resolve: " ++ message))) ∧
    ∀ (registry : StepRegistry σ) (library : SourceLibrary) (message : String) (levels n : Nat)
      (term : String) (line : SourcedLine) (seqPath : SeqPath),
      LeadsNowhere registry library message levels n term line.source →
        Negations message (n + 1)
          (buildStep registry library levels (negationOf term) line seqPath) := by
  refine ⟨?_, fun registry library message levels n term line seqPath h =>
    negations_buildStep h rfl seqPath⟩
  intro ctx domains message n step positive chain s
  obtain ⟨r, ran, ok, actions⟩ := executeStep_chain domains chain s
  refine ⟨r, ran, ?_, ?_⟩
  · obtain ⟨n, rfl⟩ := Nat.exists_eq_add_one.2 positive
    rw [ok, chainOutcome_ok, decide_eq_true_eq]
  · rintro rfl
    rw [StepResult.failureMessage, StepResult.failedAction?, actions]
    rfl

/-- The step of a line with so many negations of words that match no step. -/
def frobnicate : (negations : Nat) → SeqPath → FeatureStep Unit
  | 0, seqPath =>
    let text := "frobnicate widgets"
    .unresolved text ⟨"a.feature", 1⟩ seqPath (ResolveError.noStep text ⟨"a.feature", 1⟩).message
  | n + 1, seqPath =>
    let inner := frobnicate n (seqPath.child 1)
    .mk ⟨⟨"a.feature", 1⟩, "not " ++ inner.head.text, seqPath, negationOf inner.head.text⟩
      [.mk "what" [inner]]

theorem negations_frobnicate (n : Nat) (seqPath : SeqPath) :
    Negations (ResolveError.noStep "frobnicate widgets" ⟨"a.feature", 1⟩).message n
      (frobnicate n seqPath) := by
  induction n generalizing seqPath with
  | zero => exact .unresolved _ _ _
  | succ n ih => exact .negation _ _ _ _ (ih _)

/-- A context with the stepper that offers negation. -/
def structureContext : RunContext Unit :=
  ⟨[Builtin.structureStepper], .initial, ⟨∅, ∅, ∅, false, none, false, false⟩⟩

theorem domainsOf_structureContext :
    Run.domainsOf structureContext.steppers = .ok structureContext.domains := rfl

/-- Three negations fail, and so does the negation of a statement that is too deep. -/
theorem negations_frobnicate_three :
    (∃ r, (executeStep structureContext (frobnicate 3 ⟨[1, 1]⟩)).start ⟨.new "t", ()⟩ =
      (.ok r, ⟨.new "t", ()⟩) ∧ r.ok = false) ∧
    Negations (ResolveError.tooDeep "wait" ⟨"a.feature", 1⟩).message 1
      (buildStep ⟨[], []⟩ ⟨[], []⟩ 0 (negationOf (σ := Unit) "wait") ⟨⟨"a.feature", 1⟩, "not wait"⟩
        ⟨[1, 1]⟩) := by
  refine ⟨?_, executeStep_negations.2 _ _ _ 0 0 "wait" _ _ (.tooDeep _ _)⟩
  obtain ⟨r, ran, passed, -⟩ := executeStep_negations.1 structureContext
    domainsOf_structureContext _ 3 _ (by decide) (negations_frobnicate 3 ⟨[1, 1]⟩) ⟨.new "t", ()⟩
  exact ⟨r, ran, Bool.eq_false_iff.2 fun ok => absurd (passed.1 ok) (by decide)⟩

/-- Not every chain of negations fails: two of them pass. -/
theorem not_all_negations_fail :
    ¬ ∀ (message : String) (n : Nat) (step : FeatureStep Unit), 0 < n →
      Negations message n step → ∀ ctx : RunContext Unit,
        Run.domainsOf ctx.steppers = .ok ctx.domains → ∀ (s s' : Session Unit) (r : StepResult),
          (executeStep ctx step).start s = (.ok r, s') → r.ok = false := by
  intro fails
  have two := negations_frobnicate 2 ⟨[1, 1]⟩
  obtain ⟨r, ran, ok, -⟩ := executeStep_chain domainsOf_structureContext two ⟨.new "t", ()⟩
  have failed := fails _ 2 _ (by decide) two _ domainsOf_structureContext _ _ r ran
  exact Bool.false_ne_true (failed.symm.trans ok)

end PlainSteps
