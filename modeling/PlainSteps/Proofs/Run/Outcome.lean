import PlainSteps.Proofs.Run.Stages

/-!
# The outcome of a run

A run that reaches its steps reports what they give, and else nothing; either way it ends with the
work that is left and with the close hooks, whose failure is reported where nothing else has failed.

* `Run.AreWorkCalls`: what is called before the end of a run.
* `Run.Settles`: a result is that of the first stages of a run.
* `Run.work_settles`: the stages up to the end.
* `Run.run_makes`: the calls of a whole run, with its result.
* `Run.run_settles`: the result of a run.

Proof-only: no module that runs imports this one.
-/

namespace PlainSteps

variable {σ : Type}

namespace Run

variable {r : Run σ} {features backgrounds : List FeatureSource} {store : σ}

/-! ## Building and executing -/

/-- The features that are built, where none fails, with their handlers. -/
def handlers : Except StageFailure (RunContext σ × List (ResolvedFeature σ)) →
    List (ResolvedFeature σ × BuildHandler σ)
  | .error _ => []
  | .ok (ctx, resolved) => (if ctx.config.build then resolved else []).filterMap (·.handler?)

/-- A run gets to its steps: no stage before their execution has failed. -/
def ReachesSteps (result : RunResult) : Prop :=
  ∀ f, result.failure = some f → Stage.execute.index ≤ f.stage.index

/-- What is called before the end of a run, what is left for the end, and what is reported. -/
structure AreWorkCalls (r : Run σ) (due : List (ResolvedFeature σ × BuildHandler σ))
    (result : RunResult) (q : Finalizers σ) (calls : List (Call σ)) : Prop where
  handlers : calls.filterMap Call.built? <+: due
  all : ReachesSteps result → calls.filterMap Call.built? = due
  kinds : ∀ c ∈ calls, c.kind ≠ .finalizer ∧ c.kind ≠ .close ∧
    (c.kind = .endFeature → r.config.stay = false)
  workspaces : ∀ feature handler context answer, .build feature handler context answer ∈ calls →
    context.workspace = FilePath.directory feature.path
  left : q.tasks.Perm (calls.filterMap Call.left?)
  returns : q.Return
  results : calls.filterMap Call.stepResult? = result.features.flatMap (·.steps)

/-- A result is that of the first stages of a run, up to a number. -/
structure Settles (r : Run σ) (features backgrounds : List FeatureSource) (store : σ) (n : Nat)
    (result : RunResult) : Prop where
  ok : result.ok = true ↔ result.failure = none ∧ ∀ f ∈ result.features, f.ok = true
  failure : r.FirstFailure features backgrounds store n result.failure
  empty : ∀ f, result.failure = some f → f.stage.index < Stage.execute.index →
    result.features = [] ∧ result.scored = []
  executed : ReachesSteps result → ∃ executed, r.Executes features backgrounds store executed ∧
    result.features = executed.features ∧ result.scored = executed.scored

theorem Settles.aborted {f : StageFailure} {n : Nat} (before : f.stage.index < Stage.execute.index)
    (h : r.FirstFailure features backgrounds store n (some f)) :
    r.Settles features backgrounds store n (.aborted r.tag f) where
  ok := by
    constructor
    · intro no
      cases no
    · rintro ⟨no, -⟩
      cases no
  failure := h
  empty _ _ _ := ⟨rfl, rfl⟩
  executed after := absurd (after f rfl) (by omega)

theorem Executes.unique {executed executed' : Executed}
    (h : r.Executes features backgrounds store executed)
    (h' : r.Executes features backgrounds store executed') : executed = executed' := by
  obtain ⟨ctx, resolved, mid, q, s, end_, prepared, built, ran⟩ := h
  obtain ⟨_, _, _, _, _, _, prepared', built', ran'⟩ := h'
  cases prepared.symm.trans prepared'
  cases built.symm.trans built'
  cases ran.symm.trans ran'
  rfl

theorem Settles.resultOf {executed : Executed}
    (clear : r.FirstFailure features backgrounds store 6 none)
    (h : r.Executes features backgrounds store executed) :
    r.Settles features backgrounds store 7 (Run.resultOf r.tag executed) := by
  have gathered : ∃ executed', r.Executes features backgrounds store executed' ∧
      executed.features = executed'.features ∧ executed.scored = executed'.scored :=
    ⟨executed, h, rfl, rfl⟩
  unfold Run.resultOf
  cases hook : executed.hookFailure with
  | none =>
    refine ⟨by simp, clear.passes .execute rfl fun message fails => ?_, ?_, fun _ => gathered⟩
    · cases fails with
      | execute h' fails =>
        cases h.unique h'
        cases hook.symm.trans fails
    · intro f no
      cases no
  | some failure =>
    refine ⟨by simp, clear.fails rfl (.execute h hook), fun f same before => ?_, fun _ => gathered⟩
    cases same
    cases Nat.lt_irrefl _ before

theorem buildAndExecute_eq (ctx : RunContext σ) (resolved : List (ResolvedFeature σ)) :
    r.buildAndExecute ctx resolved = buildStage ctx resolved >>= fun answer =>
      match answer.1 with
      | some e => pure (.aborted r.tag ⟨.build, e.message⟩, answer.2)
      | none => executeFeatures ctx resolved >>= fun executed =>
        pure (resultOf r.tag executed, answer.2) := by
  unfold buildAndExecute buildStage
  split <;> rfl

theorem buildStage_makes (ctx : RunContext σ) {resolved : List (ResolvedFeature σ)}
    (h : ∀ f ∈ resolved, f.BuildReturns) : (buildStage ctx resolved).Makes fun answer calls =>
      AreBuildCalls (if ctx.config.build then resolved else []) answer.1.isNone .none answer.2
        calls := by
  have nothing : (Finalizers.none (σ := σ)).Return := List.forall_mem_nil _
  unfold buildStage
  split
  · exact buildFeatures_makes h nothing
  · exact .pure (areBuildCalls_nil nothing)

theorem AreWorkCalls.append {built : List (ResolvedFeature σ)} {passed : Bool} {q : Finalizers σ}
    {result : RunResult} {calls calls' : List (Call σ)}
    (build : AreBuildCalls built passed .none q calls) (pass : ReachesSteps result → passed = true)
    (executed : AreFeatureCalls r.config.stay (result.features.flatMap (·.steps)) calls') :
    r.AreWorkCalls (built.filterMap (·.handler?)) result q (calls ++ calls') := by
  have notBuilt (c : Call σ) (hc : c ∈ calls') : c.kind ≠ .build := by
    rcases executed.kinds c hc with kind | kind | kind | ⟨kind, -⟩ <;> rw [kind] <;> decide
  have handlers : (calls ++ calls').filterMap Call.built? = calls.filterMap Call.built? := by
    rw [List.filterMap_append, List.filterMap_eq_nil_iff.2 fun c hc =>
      Call.built?_eq_none (notBuilt c hc), List.append_nil]
  constructor
  case handlers => exact handlers ▸ build.handlers
  case all => exact fun reaches => handlers.trans (build.all (pass reaches))
  case kinds =>
    intro c hc
    rcases List.mem_append.1 hc with hc | hc
    · rcases build.kinds c hc with rfl | ⟨_, _, _, _, rfl, _⟩ <;> simp [Call.kind]
    · rcases executed.kinds c hc with kind | kind | kind | ⟨kind, open_⟩ <;> simp [*]
  case workspaces =>
    intro feature handler context answer hc
    rcases List.mem_append.1 hc with hc | hc
    · rcases build.kinds _ hc with no | ⟨_, _, _, _, same, workspace⟩
      · cases no
      · cases same
        exact workspace
    · cases notBuilt _ hc rfl
  case left =>
    rw [List.filterMap_append, List.filterMap_eq_nil_iff.2 fun c hc =>
      Call.left?_eq_none (notBuilt c hc), List.append_nil]
    exact build.kept
  case returns => exact build.returns
  case results =>
    have none : calls.filterMap Call.stepResult? = [] :=
      Call.filterMap_stepResult?_eq_nil fun c hc => by
        rcases build.kinds c hc with rfl | ⟨_, _, _, _, rfl, _⟩ <;> simp [Call.kind]
    rw [List.filterMap_append, none, executed.results]
    rfl

/-- The stages up to the end of a run: they return, the result is that of the first that fails, and
what is left for the end is all that build handlers have left. -/
theorem work_settles (h : ∀ s ∈ r.steppers, s.CrashesOnlyInActions)
    (features backgrounds : List FeatureSource) (store : σ) :
    ∃ prepared mid result q s calls,
      (r.prepare features backgrounds).start store = (.ok prepared, mid) ∧
      (r.work prepared).start ⟨.new r.tag, mid⟩ = (.ok (result, q), s) ∧
      Calls calls ⟨.new r.tag, mid⟩ s ∧ r.AreWorkCalls (handlers prepared) result q calls ∧
      r.Settles features backgrounds store 7 result := by
  obtain ⟨prepared, mid, ran, cases⟩ := prepare_settles h features backgrounds store
  rcases cases with ⟨f, rfl, first⟩ | ⟨ctx, resolved, rfl, first, steppers, stay, returns⟩
  · refine ⟨_, mid, .aborted r.tag f, .none, _, [], ran, rfl, rfl, ?_,
      .aborted (Nat.lt_trans first.2.1 (by decide)) (first.weaken (by omega))⟩
    exact .append (areBuildCalls_nil (List.forall_mem_nil _)) (fun _ => rfl) areFeatureCalls_nil
  obtain ⟨⟨failure, q⟩, s, calls, built, made, areBuild⟩ :=
    buildStage_makes ctx returns ⟨.new r.tag, mid⟩
  cases failure with
  | some e =>
    refine ⟨_, mid, .aborted r.tag ⟨.build, e.message⟩, q, s, calls, ran, ?_, made, ?_,
      .aborted (Nat.lt_succ_self 5) ((first.fails rfl (.build ran built)).weaken (by omega))⟩
    · show (r.buildAndExecute ctx resolved).start _ = _
      rw [buildAndExecute_eq, Effect.start_bind, built]
      rfl
    · rw [← List.append_nil calls]
      refine .append areBuild (fun reaches => ?_) areFeatureCalls_nil
      exact absurd (reaches _ rfl) (Nat.not_succ_le_self 5)
  | none =>
    have hooks : ∀ s ∈ ctx.steppers, s.HooksReturn := fun s hs => (h s (steppers ▸ hs)).hooks
    obtain ⟨executed, s', calls', executes, made', areFeatures⟩ :=
      executeFeatures_makes hooks resolved s
    have clear : r.FirstFailure features backgrounds store 6 none := by
      refine first.passes .build rfl fun message fails => ?_
      cases fails with
      | build h h' =>
        cases ran.symm.trans h
        cases built.symm.trans h'
    refine ⟨_, mid, resultOf r.tag executed, q, s', calls ++ calls', ran, ?_, made.append made',
      .append areBuild (fun _ => rfl) (stay ▸ areFeatures),
      .resultOf clear ⟨_, _, _, _, _, _, ran, built, executes⟩⟩
    show (r.buildAndExecute ctx resolved).start _ = _
    rw [buildAndExecute_eq, Effect.start_bind, built]
    show (executeFeatures ctx resolved >>= _).start s = _
    rw [Effect.start_bind, executes]
    rfl

/-! ## The end of a run -/

theorem run_eq (r : Run σ) (features backgrounds : List FeatureSource) :
    r.run features backgrounds = r.prepare features backgrounds >>= fun prepared =>
      Session.within (.new r.tag) (r.work prepared >>= fun answer =>
        r.teardown answer.2 >>= fun failure => pure (withTeardown answer.1 failure)) := by
  refine bind_congr fun prepared => ?_
  cases prepared <;> rfl

/-- The end of a run comes after its other stages, and is reported where they have not failed. -/
theorem Settles.withTeardown
    {prepared : Except StageFailure (RunContext σ × List (ResolvedFeature σ))} {mid : σ}
    {result : RunResult} {q : Finalizers σ} {s s' : Session σ} {failure : Option StageFailure}
    (h : r.Settles features backgrounds store 7 result)
    (ran : (r.prepare features backgrounds).start store = (.ok prepared, mid))
    (worked : (r.work prepared).start ⟨.new r.tag, mid⟩ = (.ok (result, q), s))
    (ended : (r.teardown q).start s = (.ok failure, s'))
    (stage : ∀ f, failure = some f → f.stage = .teardown) :
    r.Settles features backgrounds store 8 (Run.withTeardown result failure) := by
  have first := h.failure
  cases failure with
  | none =>
    refine ⟨h.ok, ?_, h.empty, h.executed⟩
    show r.FirstFailure features backgrounds store 8 result.failure
    cases same : result.failure with
    | some f => exact (same ▸ first).weaken (by omega)
    | none =>
      refine (same ▸ first).passes .teardown rfl fun message fails => ?_
      cases fails with
      | teardown h h' h'' =>
        cases ran.symm.trans h
        cases worked.symm.trans h'
        cases ended.symm.trans h''
  | some f =>
    have place := stage f rfl
    have fails : r.Fails features backgrounds store f.stage f.message :=
      place ▸ .teardown ran worked ended
    have failed : (Run.withTeardown result (some f)).ok = true ↔
        (Run.withTeardown result (some f)).failure = none ∧ ∀ f ∈ result.features, f.ok = true := by
      simp [Run.withTeardown]
    refine ⟨failed, ?failure, ?empty, fun reaches => h.executed fun g hg => reaches g ?kept⟩
    case kept => simp [Run.withTeardown, hg]
    case failure =>
      show r.FirstFailure features backgrounds store 8 (result.failure.or (some f))
      cases same : result.failure with
      | some f' => exact (same ▸ first).weaken (by omega)
      | none => exact (same ▸ first).fails (by rw [place]; rfl) fails
    case empty =>
      intro g (hg : result.failure.or (some f) = some g) before
      cases same : result.failure with
      | some f' => exact h.empty g (by simpa [same] using hg) before
      | none =>
        rw [same, Option.none_or] at hg
        cases hg
        rw [place] at before
        exact absurd before (by decide)

/-- A run returns. Its calls are those before its end, then the work that is left and the close
hooks. -/
theorem run_makes (h : ∀ s ∈ r.steppers, s.CrashesOnlyInActions)
    (features backgrounds : List FeatureSource) (store : σ) :
    ∃ prepared mid result q failure earlier finalizing closing s,
      (r.prepare features backgrounds).start store = (.ok prepared, mid) ∧
      (r.run features backgrounds).start store = (.ok (withTeardown result failure), s.store) ∧
      Calls (earlier ++ finalizing ++ closing) ⟨.new r.tag, mid⟩ s ∧
      r.AreWorkCalls (handlers prepared) result q earlier ∧
      AreEndCalls r q.tasks failure finalizing closing ∧
      r.Settles features backgrounds store 7 result ∧
      r.Settles features backgrounds store 8 (withTeardown result failure) := by
  obtain ⟨prepared, mid, result, q, s, earlier, ran, worked, made, areWork, settles⟩ :=
    work_settles h features backgrounds store
  obtain ⟨failure, s', _, ended, made', finalizing, closing, rfl, areEnd⟩ :=
    teardown_makes (r := r) (fun s hs => (h s hs).close) areWork.returns s
  have stage (f : StageFailure) (hf : failure = some f) : f.stage = .teardown := by
    obtain ⟨message, -, rfl⟩ := Option.map_eq_some_iff.1 (areEnd.failure.symm.trans hf)
    rfl
  refine ⟨prepared, mid, result, q, failure, earlier, finalizing, closing, s', ran, ?_, ?_, areWork,
    areEnd, settles, settles.withTeardown ran worked ended stage⟩
  · have whole : (r.work prepared >>= fun answer => r.teardown answer.2 >>= fun failure =>
        pure (withTeardown answer.1 failure)).start ⟨.new r.tag, mid⟩ =
          (.ok (withTeardown result failure), s') := by
      rw [Effect.start_bind, worked]
      show (r.teardown q >>= _).start s = _
      rw [Effect.start_bind, ended]
      rfl
    rw [run_eq, Effect.start_bind, ran]
    exact congrArg (fun p : Except Crash RunResult × Session σ => (p.1, p.2.store)) whole
  · rw [List.append_assoc]
    exact made.append made'

/-- The result of a run. It is ok where no stage and no feature has failed. A failure is that of the
first stage that fails. Where that comes before the execution of features, no step has run and
nothing is reported, and else all that has been executed is. -/
theorem run_settles (h : ∀ s ∈ r.steppers, s.CrashesOnlyInActions)
    (features backgrounds : List FeatureSource) (store : σ) :
    ∃ result prepared mid calls s,
      (r.run features backgrounds).start store = (.ok result, s.store) ∧
      (r.prepare features backgrounds).start store = (.ok prepared, mid) ∧
      Calls calls ⟨.new r.tag, mid⟩ s ∧
      calls.filterMap Call.stepResult? = result.features.flatMap (·.steps) ∧
      (result.ok = true ↔ result.failure = none ∧ ∀ f ∈ result.features, f.ok = true) ∧
      (result.failure = none →
        ∀ stage message, ¬ r.Fails features backgrounds store stage message) ∧
      (∀ f, result.failure = some f → r.Fails features backgrounds store f.stage f.message ∧
        ∀ stage message, stage.index < f.stage.index →
          ¬ r.Fails features backgrounds store stage message) ∧
      (∀ f, result.failure = some f → f.stage.index < Stage.execute.index →
        result.features = [] ∧ result.scored = [] ∧ ∀ c ∈ calls, c.kind ≠ .step) ∧
      ((∀ f, result.failure = some f → Stage.execute.index ≤ f.stage.index) →
        ∃ executed, r.Executes features backgrounds store executed ∧
          result.features = executed.features ∧ result.scored = executed.scored) := by
  obtain ⟨prepared, mid, worked, q, failure, earlier, finalizing, closing, s, ran, whole, made,
    areWork, areEnd, -, settles⟩ := run_makes h features backgrounds store
  have results : (earlier ++ finalizing ++ closing).filterMap Call.stepResult? =
      worked.features.flatMap (·.steps) := by
    have done := Call.filterMap_stepResult?_eq_nil fun c hc =>
      (areEnd.finalizers c hc).trans_ne CallKind.noConfusion
    have closed := Call.filterMap_stepResult?_eq_nil fun c hc =>
      (areEnd.closes c hc).trans_ne CallKind.noConfusion
    rw [List.filterMap_append, List.filterMap_append, done, closed, areWork.results,
      List.append_nil, List.append_nil]
  have same : (withTeardown worked failure).features = worked.features := by
    cases failure <;> rfl
  refine ⟨withTeardown worked failure, prepared, mid, _, s, whole, ran, made, same ▸ results,
    settles.ok, fun none stage message => ?_, fun f failed => ?_, fun f failed before => ?_,
    settles.executed⟩
  · have first := settles.failure
    rw [none] at first
    exact first stage message (by cases stage <;> decide)
  · have first := settles.failure
    rw [failed] at first
    exact ⟨first.1, first.2.2⟩
  · obtain ⟨empty, scored⟩ := settles.empty f failed before
    refine ⟨empty, scored, fun c hc => ?_⟩
    rw [← same, empty] at results
    exact Call.stepResult?_eq_none_iff.1 (List.filterMap_eq_nil_iff.1 results c hc)

end Run

/-! ## A run that logs -/

/-- Adds an entry to a log. -/
def logEntry (entry : String) : Effect (Session (List String)) Unit :=
  modify fun s => { s with store := s.store ++ [entry] }

/-- A step that passes, and whose build handler leaves work that fails. -/
def waitStep : StepDefinition (List String) where
  name := "wait"
  form := .exact "wait"
  action _ := do
    logEntry "wait"
    return .ok .passed
  build := some fun c => do
    logEntry ("build in " ++ c.workspace)
    return .ok (some fun workspace => do
      logEntry ("finalize in " ++ workspace)
      return .error ⟨"broken", []⟩)

/-- A stepper that fails to close. -/
def loggingStepper : Stepper (List String) where
  name := "log"
  steps := [waitStep]
  close := do
    logEntry "close"
    return .error ⟨"stuck", []⟩

theorem loggingStepper_crashesOnlyInActions : loggingStepper.CrashesOnlyInActions := by
  have logs (entry : String) : (logEntry entry).Returns := fun s => ⟨_, _, rfl⟩
  have builds : waitStep.BuildReturns := by
    intro handler same c s
    cases same
    refine ⟨_, _, rfl, fun work left workspace => ?_⟩
    cases left
    exact (logs _).bind fun _ => .pure _
  refine ⟨⟨fun _ => .pure _, fun _ _ => .pure _, List.forall_mem_singleton.2 builds, ?_⟩,
    ⟨fun _ => .pure _, .pure _⟩, (logs _).bind fun _ => .pure _⟩
  intro line location store store' definitions h
  cases h

/-- A run in which both the work that is left and the closing of the stepper fail. -/
def loggingRun : Run (List String) :=
  ⟨[loggingStepper], { RunConfig.initial with build := true }, "run"⟩

theorem loggingRun_crashesOnlyInActions : ∀ s ∈ loggingRun.steppers, s.CrashesOnlyInActions :=
  List.forall_mem_singleton.2 loggingStepper_crashesOnlyInActions

/-- A feature whose only line is the step that is built. -/
def waiting : FeatureSource := ⟨"dir/a.feature", "wait", ""⟩

/-- The line of the feature. -/
def waitLine : SourcedLine := ⟨⟨"dir/a.feature", 1⟩, "wait"⟩

theorem expand_waiting : Collection.expand ⟨[waiting], []⟩ ⟨[], [waiting]⟩ =
    .ok [⟨"dir/a.feature", "", [waitLine]⟩] := by
  have lines : waiting.lines = [waitLine] := by decide +kernel
  have plain : Include.read? waitLine.text = none := by decide +kernel
  simp [Collection.expand, Collection.expandFeature, Collection.backgroundsOf, lines,
    SourceLibrary.expandLine, SourceLibrary.expandLines, plain]
  rfl

theorem gather_waiting : loggingRun.gather [waiting] [] =
    .ok ⟨⟨[loggingStepper], .initial, loggingRun.config⟩,
      ⟨[⟨"log", waitStep, .exact "wait".toList⟩], DomainRegistry.initial.names⟩, ⟨[], [waiting]⟩,
      [⟨"dir/a.feature", "", [waitLine]⟩]⟩ := by
  show Run.inStage .expand CollectError.message (Collection.expand ⟨[waiting], []⟩ ⟨[], [waiting]⟩)
    >>= _ = _
  rw [expand_waiting]
  rfl

/-- The feature passes, and then the end of the run fails. -/
theorem loggingRun_waiting : ∃ result, (loggingRun.run [waiting] []).start [] =
      (.ok result, ["build in dir", "wait", "finalize in dir", "close"]) ∧
    result.ok = false ∧ result.features.map (·.ok) = [true] ∧
      result.failure = some ⟨.teardown, (BuildError.finalizer "dir" ⟨"broken", []⟩).message⟩ := by
  unfold Run.run Run.prepare
  rw [gather_waiting]
  refine ⟨_, rfl, ?_⟩
  exact ⟨rfl, rfl, rfl⟩

/-- The end of a run is the first of its stages that fails, and what has been executed is kept. -/
theorem run_settles_logging : ∃ result store, (loggingRun.run [waiting] []).start [] =
      (.ok result, store) ∧ (∀ stage message, stage.index < Stage.teardown.index →
        ¬ loggingRun.Fails [waiting] [] [] stage message) ∧
    (∃ message, loggingRun.Fails [waiting] [] [] .teardown message) ∧
    ∃ executed, loggingRun.Executes [waiting] [] [] executed ∧
      result.features = executed.features := by
  obtain ⟨result, ran, -, -, failed⟩ := loggingRun_waiting
  obtain ⟨result', prepared, mid, calls, s, ran', -, -, -, -, -, first, -, kept⟩ :=
    Run.run_settles loggingRun_crashesOnlyInActions [waiting] [] []
  cases (Prod.mk.inj (ran.symm.trans ran')).1
  obtain ⟨fails, before⟩ := first _ failed
  obtain ⟨executed, executes, features, -⟩ := kept fun f same => by
    cases failed.symm.trans same
    decide
  exact ⟨_, _, ran, before, ⟨_, fails⟩, executed, executes, features⟩

end PlainSteps
