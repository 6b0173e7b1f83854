import PlainSteps.Resolve.Basic
import PlainSteps.Run.Execute
import PlainSteps.Run.Finalizers

/-!
# Runs

A run goes through its stages in order, up to the first that fails; whatever happens, it ends with
the work that is left and with the close hooks of the steppers.

* `Stage`, `StageFailure`: the stages, and a failure in one.
* `RunResult`, `RunSummary`: what a run results in.
* `Run.prepare`: the stages before any step is built or run.
* `Run.teardown`: the end of a run.
* `Run.run`: a whole run.
-/

namespace PlainSteps

/-- The stages of a run, in order. -/
inductive Stage where
  | steppers
  | requiredOptions
  | collect
  | expand
  | resolve
  | build
  | execute
  | teardown
  deriving DecidableEq, Repr

/-- The name of a stage. -/
def Stage.name : Stage → String
  | .steppers => "steppers"
  | .requiredOptions => "requiredoptions"
  | .collect => "collect"
  | .expand => "expand"
  | .resolve => "resolve"
  | .build => "build"
  | .execute => "execute"
  | .teardown => "teardown"

/-- A stage that has failed. -/
structure StageFailure where
  stage : Stage
  message : String
  deriving DecidableEq, Repr

/-- The line for a stage that has failed. -/
def StageFailure.text (f : StageFailure) : String := f.stage.name ++ " failed: " ++ f.message

/-- What a run results in. -/
structure RunResult where
  tag : String
  ok : Bool
  features : List FeatureResult
  scored : List ScoredFailure
  failure : Option StageFailure
  deriving Repr

/-- The numbers of a run. -/
structure RunSummary where
  features : Nat
  failedFeatures : Nat
  steps : Nat
  failedSteps : Nat
  scored : Nat
  deriving DecidableEq, Repr

/-- The numbers of a run in one line. -/
def RunSummary.text (s : RunSummary) : String :=
  toString s.features ++ " features (" ++ toString s.failedFeatures ++ " failed), "
    ++ toString s.steps ++ " steps (" ++ toString s.failedSteps ++ " failed)"
    ++ if s.scored = 0 then "" else ", " ++ toString s.scored ++ " scored"

/-- The numbers of a run. -/
def RunResult.summary (r : RunResult) : RunSummary :=
  let steps := r.features.flatMap (·.steps)
  { features := r.features.length
    failedFeatures := r.features.countP (! ·.ok)
    steps := steps.length
    failedSteps := steps.countP (! ·.ok)
    scored := r.scored.length }

/-- The result of a run in which a stage has failed before any step ran. -/
def RunResult.aborted (tag : String) (failure : StageFailure) : RunResult :=
  ⟨tag, false, [], [], some failure⟩

/-- What a run needs. -/
structure Run (σ : Type) where
  steppers : List (Stepper σ)
  config : RunConfig
  tag : String

namespace Run

variable {σ : Type}

/-- The outcome of a stage, with its failure named after it. -/
def inStage {ε α : Type} (stage : Stage) (message : ε → String) :
    Except ε α → Except StageFailure α
  | .ok a => .ok a
  | .error e => .error ⟨stage, message e⟩

/-- The domains of the steppers, with all that some of them require. -/
def domainsOf (steppers : List (Stepper σ)) : Except DomainError DomainRegistry := do
  let domains ← DomainRegistry.initial.registerAll (steppers.flatMap (·.domains))
  steppers.forM fun s => domains.require s.name s.requiredDomains
  return domains

/-- The message for an option that is required and not set. -/
def requiredOptionMessage (stepper option : String) : String :=
  "stepper " ++ backquoted stepper ++ " requires option " ++ backquoted option ++ "; set "
    ++ RunConfig.optionVariable stepper option

/-- The configuration with the default of an option that is not set. -/
def withOption (stepper : String) (config : RunConfig) (option : StepperOption) :
    Except StageFailure RunConfig :=
  if (config.option stepper option.name).isSome then .ok config
  else
    match option.default with
    | some value => .ok (config.setOption stepper option.name value)
    | none =>
      if option.required then
        .error ⟨.requiredOptions, requiredOptionMessage stepper option.name⟩
      else .ok config

/-- The configuration with the defaults of all options that are not set. -/
def effectiveConfig (steppers : List (Stepper σ)) (config : RunConfig) :
    Except StageFailure RunConfig :=
  steppers.foldlM (fun config s => s.options.foldlM (withOption s.name) config) config

/-- What the stages before the resolution of lines make. -/
structure Sources (σ : Type) where
  context : RunContext σ
  registry : StepRegistry σ
  library : SourceLibrary
  features : List ExpandedFeature

/-- The stages before the resolution of lines. -/
def gather (r : Run σ) (features backgrounds : List FeatureSource) :
    Except StageFailure (Sources σ) := do
  let domains ← inStage .steppers DomainError.message (domainsOf r.steppers)
  let registry ← inStage .steppers RegistryError.message
    (StepRegistry.ofSteppers r.steppers domains)
  let config ← effectiveConfig r.steppers r.config
  let collection ← inStage .collect CollectError.message (Collection.ofSources features)
  let library : SourceLibrary := ⟨backgrounds, collection.features⟩
  let expanded ← inStage .expand CollectError.message (collection.expand library)
  return ⟨⟨r.steppers, domains, config⟩, registry, library, expanded⟩

/-- The resolution of all backgrounds and features. -/
def resolveAll (s : Sources σ) : Resolving σ (List (ResolvedFeature σ)) := do
  resolveBackgrounds s.context.steppers s.library
  resolveFeatures s.context.steppers s.library s.features

/-- The stages before any step is built or run. -/
def prepare (r : Run σ) (features backgrounds : List FeatureSource) :
    Effect σ (Except StageFailure (RunContext σ × List (ResolvedFeature σ))) := do
  match r.gather features backgrounds with
  | .error failure => return .error failure
  | .ok sources =>
    let (resolved, _) ← (resolveAll sources).run.run ⟨sources.registry, []⟩
    return (inStage .resolve ResolveError.message resolved).map (sources.context, ·)

/-- The result of the steps of a run. -/
def resultOf (tag : String) (executed : Executed) : RunResult :=
  let failure := executed.hookFailure.map fun f => ⟨.execute, f.message⟩
  ⟨tag, failure.isNone && executed.features.all (·.ok), executed.features, executed.scored,
    failure⟩

/-- Builds features, where that is enabled, and runs them; the work that is left for the end. -/
def buildAndExecute (r : Run σ) (ctx : RunContext σ) (features : List (ResolvedFeature σ)) :
    Effect (Session σ) (RunResult × Finalizers σ) := do
  let (failure, q) ←
    if ctx.config.build then buildFeatures ctx.domains ctx.config features .none
    else pure (none, .none)
  match failure with
  | some e => return (.aborted r.tag ⟨.build, e.message⟩, q)
  | none => return (resultOf r.tag (← executeFeatures ctx features), q)

/-- Closes steppers in turn, whatever fails; the first failure, of these or before them. -/
def closeAll : Option String → List (Stepper σ) → Effect (Session σ) (Option String)
  | failure, [] => return failure
  | failure, s :: rest => do
    match ← s.close with
    | .ok () => closeAll failure rest
    | .error cause =>
      let message := "stepper " ++ backquoted s.name ++ " failed to close: " ++ cause.message
      closeAll (failure.or (some message)) rest

/-- The end of a run: the work that is left and, unless the run stays open, the close hooks. The
first failure. -/
def teardown (r : Run σ) (q : Finalizers σ) : Effect (Session σ) (Option StageFailure) := do
  let finalized := (← q.finalize).map (·.message)
  if r.config.stay then return finalized.map (⟨.teardown, ·⟩)
  let closed ← closeAll none r.steppers
  return (finalized.or closed).map (⟨.teardown, ·⟩)

/-- A result with a failure at the end of the run, which replaces no earlier one. -/
def withTeardown (result : RunResult) : Option StageFailure → RunResult
  | none => result
  | some failure => { result with ok := false, failure := result.failure.or (some failure) }

/-- A whole run. -/
def run (r : Run σ) (features backgrounds : List FeatureSource) : Effect σ RunResult := do
  let prepared ← r.prepare features backgrounds
  Session.within (.new r.tag) do
    let (result, q) ← match prepared with
      | .error failure => pure (.aborted r.tag failure, .none)
      | .ok (ctx, resolved) => r.buildAndExecute ctx resolved
    return withTeardown result (← r.teardown q)

end Run

end PlainSteps
