import PlainSteps.Builtin.Variables
import PlainSteps.Proofs.Resolve.Offered
import PlainSteps.Proofs.Run.Calls
import PlainSteps.Proofs.Run.Options

/-!
# The stages of a run

The stages of a run are gone through in order, up to the first that fails. What fails in a stage is
said apart from the order, of a run that reaches it.

* `Stepper.CrashesOnlyInActions`: a stepper of which only actions may crash.
* `Run.Fails`: what fails in a stage, where the stages that it needs have not failed.
* `Run.FirstFailure`: a failure is that of the first stage that fails.
* `Run.GoesThrough`: a computation goes through stages; one rule for each stage of it.
* `Run.gather_settles`, `Run.prepare_settles`: the stages before any step is built or run end with
  the first failure of one, or with features that can be built.

Proof-only: no module that runs imports this one.
-/

namespace PlainSteps

variable {σ : Type}

/-- The place of a stage in the order of stages. -/
def Stage.index : Stage → Nat
  | .steppers => 0
  | .requiredOptions => 1
  | .collect => 2
  | .expand => 3
  | .resolve => 4
  | .build => 5
  | .execute => 6
  | .teardown => 7

theorem Stage.index_injective : Function.Injective Stage.index := by
  intro a b h
  cases a <;> cases b <;> first | rfl | exact nomatch h

/-- Only the actions of a stepper may crash. -/
structure Stepper.CrashesOnlyInActions (s : Stepper σ) : Prop where
  offers : s.Offers StepDefinition.BuildReturns
  hooks : s.HooksReturn
  close : s.close.Returns

/-- A stepper that builds nothing and has no hooks crashes in its actions only. -/
theorem Stepper.crashesOnlyInActions_of_plain {s : Stepper σ}
    (builds : ∀ d ∈ s.steps, d.build = none) (start : s.startResolution = fun _ => pure ())
    (line : s.resolveLine = fun _ _ => pure .proceed)
    (failure : s.onFailure = fun _ => pure (.ok ())) (feature : s.endFeature = pure (.ok ()))
    (close : s.close = pure (.ok ())) : s.CrashesOnlyInActions where
  offers :=
    { startResolution := fun path => start ▸ .pure ()
      resolveLine := fun text location => line ▸ .pure _
      steps := fun d hd handler some => by cases (builds d hd).symm.trans some
      contributed := fun text location store store' definitions h => by
        rw [line] at h
        cases h }
  hooks := ⟨fun _ => failure ▸ .pure _, feature ▸ .pure _⟩
  close := close ▸ .pure _

/-- The steppers that come with the library crash in actions only. -/
theorem Builtin.crashesOnlyInActions {s : Stepper σ} (h : s ∈ Builtin.steppers) :
    s.CrashesOnlyInActions := by
  have builds : ∀ d ∈ s.steps, d.build = none := by
    rcases List.mem_cons.1 h with rfl | h
    · simp [structureStepper, featureStep, scenarioStep, proseStep, endsWithStep, notStep,
        pauseStep]
    · obtain rfl := List.mem_singleton.1 h
      simp [variablesStepper, setStep, setEmptyStep, setAsStep, isStep, isSetStep, showStep]
  rcases List.mem_cons.1 h with rfl | h
  · exact Stepper.crashesOnlyInActions_of_plain builds rfl rfl rfl rfl rfl
  · obtain rfl := List.mem_singleton.1 h
    exact Stepper.crashesOnlyInActions_of_plain builds rfl rfl rfl rfl rfl

namespace Run

variable {r : Run σ} {features backgrounds : List FeatureSource} {store : σ}

/-! ## What fails in a stage -/

/-- The stage in which features are built. -/
def buildStage (ctx : RunContext σ) (features : List (ResolvedFeature σ)) :
    Effect (Session σ) (Option BuildError × Finalizers σ) :=
  if ctx.config.build then buildFeatures ctx.domains ctx.config features .none
  else pure (none, .none)

/-- The stages after those that prepare a run, up to its end. -/
def work (r : Run σ) : Except StageFailure (RunContext σ × List (ResolvedFeature σ)) →
    Effect (Session σ) (RunResult × Finalizers σ)
  | .error failure => return (.aborted r.tag failure, .none)
  | .ok (ctx, resolved) => r.buildAndExecute ctx resolved

/-- The features of a run are built and then executed, with these results. -/
def Executes (r : Run σ) (features backgrounds : List FeatureSource) (store : σ)
    (executed : Executed) : Prop :=
  ∃ ctx resolved mid q s s',
    (r.prepare features backgrounds).start store = (.ok (.ok (ctx, resolved)), mid) ∧
    (buildStage ctx resolved).start ⟨.new r.tag, mid⟩ = (.ok (none, q), s) ∧
    (executeFeatures ctx resolved).start s = (.ok executed, s')

/-- What fails in a stage, with its message, where the stages that it needs have not failed. -/
inductive Fails (r : Run σ) (features backgrounds : List FeatureSource) (store : σ) :
    Stage → String → Prop
  | domains {e : DomainError} (h : domainsOf r.steppers = .error e) : Fails r features backgrounds
    store .steppers e.message
  | registry {domains : DomainRegistry} {e : RegistryError} (h : domainsOf r.steppers = .ok domains)
    (fails : StepRegistry.ofSteppers r.steppers domains = .error e) :
    Fails r features backgrounds store .steppers e.message
  | requiredOptions {failure : StageFailure}
    (fails : effectiveConfig r.steppers r.config = .error failure) :
    Fails r features backgrounds store .requiredOptions failure.message
  | collect {e : CollectError} (fails : Collection.ofSources features = .error e) :
    Fails r features backgrounds store .collect e.message
  | expand {collection : Collection} {e : CollectError}
    (h : Collection.ofSources features = .ok collection)
    (fails : collection.expand ⟨backgrounds, collection.features⟩ = .error e) :
    Fails r features backgrounds store .expand e.message
  | resolve {sources : Sources σ} {e : ResolveError} {resolver : Resolver σ} {store' : σ}
    (h : r.gather features backgrounds = .ok sources)
    (fails : ((resolveAll sources).run.run ⟨sources.registry, []⟩).start store =
      (.ok (.error e, resolver), store')) :
    Fails r features backgrounds store .resolve e.message
  | build {ctx : RunContext σ} {resolved : List (ResolvedFeature σ)} {mid : σ} {e : BuildError}
    {q : Finalizers σ} {s : Session σ}
    (h : (r.prepare features backgrounds).start store = (.ok (.ok (ctx, resolved)), mid))
    (fails : (buildStage ctx resolved).start ⟨.new r.tag, mid⟩ = (.ok (some e, q), s)) :
    Fails r features backgrounds store .build e.message
  | execute {executed : Executed} {failure : HookFailure}
    (h : r.Executes features backgrounds store executed)
    (fails : executed.hookFailure = some failure) :
    Fails r features backgrounds store .execute failure.message
  | teardown {prepared : Except StageFailure (RunContext σ × List (ResolvedFeature σ))} {mid : σ}
    {result : RunResult} {q : Finalizers σ} {s s' : Session σ} {failure : StageFailure}
    (h : (r.prepare features backgrounds).start store = (.ok prepared, mid))
    (worked : (r.work prepared).start ⟨.new r.tag, mid⟩ = (.ok (result, q), s))
    (fails : (r.teardown q).start s = (.ok (some failure), s')) :
    Fails r features backgrounds store .teardown failure.message

/-- A failure is that of the first stage that fails, of the first stages up to a number. -/
def FirstFailure (r : Run σ) (features backgrounds : List FeatureSource) (store : σ) (n : Nat) :
    Option StageFailure → Prop
  | none => ∀ stage message, stage.index < n → ¬ r.Fails features backgrounds store stage message
  | some f => r.Fails features backgrounds store f.stage f.message ∧ f.stage.index < n ∧
    ∀ stage message, stage.index < f.stage.index →
      ¬ r.Fails features backgrounds store stage message

namespace FirstFailure

variable {n : Nat}

theorem zero : r.FirstFailure features backgrounds store 0 none := fun _ _ lt => nomatch lt

/-- One stage more does not fail. -/
theorem passes (next : Stage) (h : r.FirstFailure features backgrounds store n none)
    (place : next.index = n)
    (passes : ∀ message, ¬ r.Fails features backgrounds store next message) :
    r.FirstFailure features backgrounds store (n + 1) none := by
  intro stage message lt
  rcases Nat.lt_succ_iff_lt_or_eq.1 lt with lt | eq
  · exact h stage message lt
  · exact Stage.index_injective (eq.trans place.symm) ▸ passes message

/-- The next stage fails. -/
theorem fails {f : StageFailure} (h : r.FirstFailure features backgrounds store n none)
    (stage : f.stage.index = n) (fails : r.Fails features backgrounds store f.stage f.message) :
    r.FirstFailure features backgrounds store (n + 1) (some f) :=
  ⟨fails, by omega, fun s m lt => h s m (by omega)⟩

theorem weaken {f : StageFailure} {m : Nat}
    (h : r.FirstFailure features backgrounds store n (some f)) (le : n ≤ m) :
    r.FirstFailure features backgrounds store m (some f) := ⟨h.1, by have := h.2.1; omega, h.2.2⟩

end FirstFailure

/-- Where the stages up to a number have not failed, those up to another are gone through: there is
the first failure of one, or none has failed and a property holds. -/
def GoesThrough {α : Type} (r : Run σ) (features backgrounds : List FeatureSource) (store : σ)
    (n m : Nat) (x : Except StageFailure α) (post : α → Prop) : Prop :=
  r.FirstFailure features backgrounds store n none →
    (∃ f, x = .error f ∧ r.FirstFailure features backgrounds store m (some f)) ∨
      ∃ a, x = .ok a ∧ r.FirstFailure features backgrounds store m none ∧ post a

namespace GoesThrough

variable {α β ε : Type} {n m : Nat} {x : Except ε α} {message : ε → String}
  {rest : α → Except StageFailure β} {post : β → Prop}

theorem pure {b : β} (h : post b) :
    r.GoesThrough features backgrounds store n n (Pure.pure b) post :=
  fun clear => .inr ⟨b, rfl, clear, h⟩

/-- A part of the next stage. -/
theorem part (next : Stage) (place : next.index = n) (lt : n < m)
    (fails : ∀ e, x = .error e → r.Fails features backgrounds store next (message e))
    (later : ∀ a, x = .ok a → r.GoesThrough features backgrounds store n m (rest a) post) :
    r.GoesThrough features backgrounds store n m (inStage next message x >>= rest) post := by
  intro clear
  cases ran : x with
  | error e => exact .inl ⟨_, rfl, (clear.fails place (fails e ran)).weaken lt⟩
  | ok a => exact later a ran clear

/-- The next stage, or the last part of it. -/
theorem stage (next : Stage) (place : next.index = n) (lt : n < m)
    (fails : ∀ e, x = .error e → r.Fails features backgrounds store next (message e))
    (passes : ∀ a, x = .ok a → ∀ text, ¬ r.Fails features backgrounds store next text)
    (later : ∀ a, x = .ok a → r.GoesThrough features backgrounds store (n + 1) m (rest a) post) :
    r.GoesThrough features backgrounds store n m (inStage next message x >>= rest) post := by
  intro clear
  cases ran : x with
  | error e => exact .inl ⟨_, rfl, (clear.fails place (fails e ran)).weaken lt⟩
  | ok a => exact later a ran (clear.passes next place (passes a ran))

end GoesThrough

/-! ## Gathering -/

/-- Defaults do not change whether the run stays open, and where a required option is missing, the
failure is of that stage. -/
theorem effectiveConfig_cases (steppers : List (Stepper σ)) (config : RunConfig) :
    (∀ config', effectiveConfig steppers config = .ok config' → config'.stay = config.stay) ∧
      ∀ f, effectiveConfig steppers config = .error f → f.stage = .requiredOptions := by
  rw [effectiveConfig_eq]
  rcases fills_or_fails config (declaredOptions steppers) with
    ⟨c, ran, filled, -⟩ | ⟨_, o, _, -, -, -, ran⟩
  · rw [ran]
    refine ⟨?_, nofun⟩
    rintro _ ⟨⟩
    rw [filled.others]
  · rw [ran]
    refine ⟨nofun, ?_⟩
    rintro _ ⟨⟩
    rfl

theorem inStage_effectiveConfig (steppers : List (Stepper σ)) (config : RunConfig) :
    inStage .requiredOptions StageFailure.message (effectiveConfig steppers config) =
      effectiveConfig steppers config := by
  cases h : effectiveConfig steppers config with
  | ok config' => rfl
  | error f =>
    obtain ⟨stage, message⟩ := f
    obtain rfl : stage = .requiredOptions := (effectiveConfig_cases steppers config).2 _ h
    rfl

/-- The stages before resolution: the first failure of one, or the sources. -/
theorem gather_settles (r : Run σ) (features backgrounds : List FeatureSource) (store : σ) :
    r.GoesThrough features backgrounds store 0 4 (r.gather features backgrounds) fun sources =>
      sources.context.steppers = r.steppers ∧ sources.context.config.stay = r.config.stay ∧
        ∃ domains, StepRegistry.ofSteppers r.steppers domains = .ok sources.registry := by
  unfold gather
  refine .part .steppers rfl (by omega) (fun _ => .domains) fun domains hDomains => ?_
  refine .stage .steppers rfl (by omega) (fun _ => .registry hDomains) ?_
    fun registry hRegistry => ?_
  · intro registry hRegistry message fails
    rcases fails with h | ⟨h, h'⟩
    · cases hDomains.symm.trans h
    · cases hDomains.symm.trans h
      cases hRegistry.symm.trans h'
  rw [← inStage_effectiveConfig]
  refine .stage .requiredOptions rfl (by omega) (fun _ => .requiredOptions) ?_
    fun config hConfig => ?_
  · intro config hConfig message fails
    cases fails with
    | requiredOptions h => cases hConfig.symm.trans h
  refine .stage .collect rfl (by omega) (fun _ => .collect) ?_ fun collection hCollection => ?_
  · intro collection hCollection message fails
    cases fails with
    | collect h => cases hCollection.symm.trans h
  refine .stage .expand rfl (by omega) (fun _ => .expand hCollection) ?_ fun expanded _ => ?_
  · intro expanded hExpanded message fails
    cases fails with
    | expand h h' =>
      cases hCollection.symm.trans h
      cases hExpanded.symm.trans h'
  have stay := (effectiveConfig_cases r.steppers r.config).1 config hConfig
  exact .pure ⟨rfl, stay, domains, hRegistry⟩

/-! ## Resolving -/

/-- The stages before any step is built or run: the first failure of one, or features whose build
handlers return. -/
theorem prepare_settles (h : ∀ s ∈ r.steppers, s.CrashesOnlyInActions)
    (features backgrounds : List FeatureSource) (store : σ) :
    ∃ prepared mid, (r.prepare features backgrounds).start store = (.ok prepared, mid) ∧
      ((∃ failure, prepared = .error failure ∧
        r.FirstFailure features backgrounds store 5 (some failure)) ∨
      ∃ ctx resolved, prepared = .ok (ctx, resolved) ∧
        r.FirstFailure features backgrounds store 5 none ∧ ctx.steppers = r.steppers ∧
        ctx.config.stay = r.config.stay ∧ ∀ f ∈ resolved, f.BuildReturns) := by
  rcases r.gather_settles features backgrounds store .zero with
    ⟨failure, gathered, first⟩ | ⟨sources, gathered, first, steppers, stay, domains, registered⟩
  · refine ⟨.error failure, store, ?_, .inl ⟨failure, rfl, first.weaken (by omega)⟩⟩
    unfold prepare
    rw [gathered]
    rfl
  have offers : ∀ s ∈ sources.context.steppers, s.Offers StepDefinition.BuildReturns :=
    fun s hs => (h s (steppers ▸ hs)).offers
  have all := ofSteppers_all (fun s hs => (h s hs).offers.steps) registered
  obtain ⟨answer, resolver, mid, ran, -, comes⟩ := resolveAll_keeps offers sources.library
    sources.features ⟨sources.registry, []⟩ store all
  have resolved : ((resolveAll sources).run.run ⟨sources.registry, []⟩).start store =
      (.ok (answer, resolver), mid) := ran
  have prepared : (r.prepare features backgrounds).start store =
      (.ok ((inStage .resolve ResolveError.message answer).map (sources.context, ·)), mid) := by
    unfold prepare
    rw [gathered, Effect.start_bind, resolved]
    rfl
  refine ⟨_, mid, prepared, ?_⟩
  cases answer with
  | error e => exact .inl ⟨_, rfl, first.fails rfl (.resolve gathered resolved)⟩
  | ok lines =>
    refine .inr ⟨_, _, rfl, ?_, steppers, stay, fun f hf step hs d hd => ?_⟩
    · refine first.passes .resolve rfl fun message fails => ?_
      cases fails with
      | resolve h h' =>
        cases gathered.symm.trans h
        cases resolved.symm.trans h'
    · obtain ⟨d', hd', returns⟩ := comes lines rfl f hf step hs
      cases hd.symm.trans hd'
      exact returns

end Run

end PlainSteps
