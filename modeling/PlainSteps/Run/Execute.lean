import PlainSteps.Step.Tree

/-!
# Executing features

The steps of a feature run one after the other. A step whose line was not resolved, whose terms
have no values, or whose action fails, reports a fault or crashes, is a failure; the steppers are
told of it. A failure ends its feature, unless it has a score and the run goes on after scores.

* `executeStep`: the result of a step, and with it those that its action runs in statements.
* `executeFeature`: the result of a feature.
* `executeFeatures`: the results of features, up to the first in which a hook fails.
-/

namespace PlainSteps

variable {σ : Type}

/-- What all steps of a run share. -/
structure RunContext (σ : Type) where
  steppers : List (Stepper σ)
  domains : DomainRegistry
  config : RunConfig

/-- A hook of a stepper that has failed. -/
structure HookFailure where
  stepper : String
  hook : String
  cause : Fault
  deriving DecidableEq, Repr

/-- The message for a hook that has failed. -/
def HookFailure.message (f : HookFailure) : String :=
  "stepper " ++ backquoted f.stepper ++ " failed in " ++ backquoted f.hook ++ ": "
    ++ f.cause.message

/-! ## Steps -/

/-- The result of an action that has ended: with an outcome, a fault, or a crash. -/
def settle (name : String) : Except Crash (Except Fault ActionOutcome) → ActionResult
  | .ok (.ok outcome) => outcome.named name
  | .ok (.error fault) =>
    .threw name fault.message
      (if fault.causes.isEmpty then none else some ("\n".intercalate fault.causes))
  | .error crash => .threw name ("action panicked: " ++ crash.message) none

/-- Runs the action of a step, which may run its statements. -/
def invoke (ctx : RunContext σ) (head : StepHead σ)
    (runStatement : String → Effect (Session σ) (List StepResult)) :
    Effect (Session σ) (Variables × ActionResult) := do
  let name := head.action.qualifiedName
  match head.action.kind with
  | .unresolved message => return (∅, .failed name message)
  | .defined definition =>
    match populate (← Session.readWorld) ctx.domains ctx.config.env head.action.captures with
    | .error e => return (∅, .failed name e.message)
    | .ok vars =>
      let action := definition.action
        { step := head.view, vars, domains := ctx.domains, config := ctx.config,
          runStatement }
      return (vars, settle name (← action.attempt))

/-- The result of a step with the result of its action. -/
def StepHead.result (head : StepHead σ) (vars : Variables) (action : ActionResult) :
    StepResult :=
  { ok := action.ok, text := head.text, seqPath := head.seqPath, source := head.source,
    actions := [action], startMs := 0, durationMs := 0, vars }

mutual

/-- The result of a step. -/
def executeStep (ctx : RunContext σ) : FeatureStep σ → Effect (Session σ) StepResult
  | .mk head nested => do
    let (vars, action) ← invoke ctx head fun label => executeStatement ctx label nested
    return head.result vars action

/-- The results of the steps of the first statement of a label. -/
def executeStatement (ctx : RunContext σ) (label : String) :
    List (NestedStatement σ) → Effect (Session σ) (List StepResult)
  | [] => return []
  | .mk l steps :: rest =>
    if l = label then executeUntilFailure ctx steps else executeStatement ctx label rest

/-- The results of steps, up to the first that fails. -/
def executeUntilFailure (ctx : RunContext σ) :
    List (FeatureStep σ) → Effect (Session σ) (List StepResult)
  | [] => return []
  | step :: rest => do
    let result ← executeStep ctx step
    if result.ok then return result :: (← executeUntilFailure ctx rest) else return [result]

end

/-! ## Hooks -/

/-- Runs a hook of steppers in turn, up to the first that fails. -/
def runHooks (hook : String) (call : Stepper σ → Effect (Session σ) (Except Fault Unit)) :
    List (Stepper σ) → Effect (Session σ) (Option HookFailure)
  | [] => return none
  | s :: rest => do
    match ← call s with
    | .ok () => runHooks hook call rest
    | .error cause => return some ⟨s.name, hook, cause⟩

/-- Tells the steppers of a step that has failed. -/
def tellFailure (ctx : RunContext σ) (result : StepResult) :
    Effect (Session σ) (Option HookFailure) :=
  runHooks "on_failure" (·.onFailure result) ctx.steppers

/-- Tells the steppers of the end of a feature. -/
def tellEnd (ctx : RunContext σ) : Effect (Session σ) (Option HookFailure) :=
  runHooks "end_feature" (·.endFeature) ctx.steppers

/-! ## Features -/

/-- What the steps of a feature result in. -/
structure Progress where
  /-- Whether every failure was one after which the run goes on. -/
  ok : Bool
  steps : List StepResult
  scored : List ScoredFailure
  /-- The hook that has failed, if one has. -/
  hookFailure : Option HookFailure

namespace Progress

/-- No step. -/
def none : Progress := ⟨true, [], [], .none⟩

/-- The progress with a result before it. -/
def after (result : StepResult) (p : Progress) : Progress :=
  { p with steps := result :: p.steps }

/-- The progress with a failure, after which the run went on, before it. -/
def afterScored (result : StepResult) (scored : ScoredFailure) (p : Progress) : Progress :=
  { p with steps := result :: p.steps, scored := scored :: p.scored }

/-- The progress that ends with a failure. -/
def stopped (result : StepResult) (hookFailure : Option HookFailure) : Progress :=
  ⟨false, [result], [], hookFailure⟩

end Progress

/-- Runs the steps of a feature. -/
def executeSteps (ctx : RunContext σ) : List (FeatureStep σ) → Effect (Session σ) Progress
  | [] => return .none
  | step :: rest => do
    let result ← executeStep ctx step
    if result.ok then return (← executeSteps ctx rest).after result
    else
      match ← tellFailure ctx result with
      | some failure => return .stopped result (some failure)
      | none =>
        match result.failureScore.filter fun _ => ctx.config.continueOnScore with
        | none => return .stopped result none
        | some score =>
          let scored := ⟨score, result.failureMessage, step.head.action.qualifiedName,
            step.head.seqPath⟩
          return (← executeSteps ctx rest).afterScored result scored

/-- What a feature results in. -/
structure ExecutedFeature where
  result : FeatureResult
  scored : List ScoredFailure
  hookFailure : Option HookFailure

/-- Runs a feature, in a world in which no feature has set anything. -/
def executeFeature (ctx : RunContext σ) (feature : ResolvedFeature σ) :
    Effect (Session σ) ExecutedFeature := do
  Session.changeWorld World.resetFeature
  let progress ← executeSteps ctx feature.steps
  let hookFailure ←
    if progress.hookFailure.isNone && !ctx.config.stay then tellEnd ctx
    else pure progress.hookFailure
  let title := (← Session.readWorld).featureTitle
  return ⟨⟨feature.path, title, progress.ok && hookFailure.isNone, progress.steps⟩,
    progress.scored, hookFailure⟩

/-- What the features of a run result in. -/
structure Executed where
  features : List FeatureResult
  scored : List ScoredFailure
  /-- The hook failure that has ended the run, if one has. -/
  hookFailure : Option HookFailure

/-- Runs features, up to the first in which a hook fails. -/
def executeFeatures (ctx : RunContext σ) :
    List (ResolvedFeature σ) → Effect (Session σ) Executed
  | [] => return ⟨[], [], none⟩
  | feature :: rest => do
    let first ← executeFeature ctx feature
    match first.hookFailure with
    | some failure => return ⟨[first.result], first.scored, some failure⟩
    | none =>
      let more ← executeFeatures ctx rest
      return ⟨first.result :: more.features, first.scored ++ more.scored, more.hookFailure⟩

end PlainSteps
