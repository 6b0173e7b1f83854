import PlainSteps.Proofs.Run.Outcome

/-!
# The end of a run

Whatever fails in a run, all work that its build handlers have left is done once, after the last
step, and then all steppers are closed in order, unless the run stays open.

* `Run.withTeardown_failure`: where no stage has failed before it, the failure is that of the end.
* `Run.run_ends`: the calls of a run with those at its end, and the failure of the end.

Proof-only: no module that runs imports this one.
-/

namespace PlainSteps

variable {σ : Type}

namespace Run

variable {r : Run σ} {features backgrounds : List FeatureSource} {store : σ}

theorem withTeardown_failure {result : RunResult}
    (h : r.Settles features backgrounds store 7 result)
    (clear : ∀ stage message, stage.index < Stage.teardown.index →
      ¬ r.Fails features backgrounds store stage message) (failure : Option StageFailure) :
    (withTeardown result failure).failure = failure := by
  have first := h.failure
  cases same : result.failure with
  | some f =>
    rw [same] at first
    exact absurd first.1 (clear f.stage f.message first.2.1)
  | none =>
    cases failure with
    | none => exact same
    | some f =>
      show result.failure.or (some f) = some f
      rw [same, Option.none_or]

/-- All work that build handlers leave is done once, in the directories of their features. This
comes after all steps. All steppers are closed after that, in order, but where the run stays open,
none is closed, and none is told of the end of a feature. A failure at the end is that of the first
piece of work that fails, or else of the first stepper that fails to close. -/
theorem run_ends (h : ∀ s ∈ r.steppers, s.CrashesOnlyInActions)
    (features backgrounds : List FeatureSource) (store : σ) :
    ∃ result prepared mid earlier finalizing closing s,
      (r.run features backgrounds).start store = (.ok result, s.store) ∧
      (r.prepare features backgrounds).start store = (.ok prepared, mid) ∧
      Calls (earlier ++ finalizing ++ closing) ⟨.new r.tag, mid⟩ s ∧
      (∀ c ∈ earlier, c.kind ≠ .finalizer ∧ c.kind ≠ .close) ∧
      (∀ c ∈ finalizing, c.kind = .finalizer) ∧ (∀ c ∈ closing, c.kind = .close) ∧
      earlier.filterMap Call.built? <+: handlers prepared ∧
      (ReachesSteps result → earlier.filterMap Call.built? = handlers prepared) ∧
      (∀ feature handler context answer, .build feature handler context answer ∈ earlier →
        context.workspace = FilePath.directory feature.path) ∧
      (finalizing.filterMap Call.done?).Perm (earlier.filterMap Call.left?) ∧
      closing.filterMap Call.closed? = (if r.config.stay then [] else r.steppers) ∧
      (r.config.stay = true → ∀ c ∈ earlier ++ finalizing ++ closing,
        c.kind ≠ .endFeature ∧ c.kind ≠ .close) ∧
      ((∀ stage message, stage.index < Stage.teardown.index →
          ¬ r.Fails features backgrounds store stage message) →
        result.failure = (((finalizing.findSome? Call.buildError?).map (·.message)).or
          (closing.findSome? Call.closeMessage?)).map (⟨.teardown, ·⟩)) := by
  obtain ⟨prepared, mid, worked, q, failure, earlier, finalizing, closing, s, ran, whole, made,
    areWork, areEnd, settles, -⟩ := run_makes h features backgrounds store
  refine ⟨withTeardown worked failure, prepared, mid, earlier, finalizing, closing, s, whole, ran,
    made, fun c hc => ?_, areEnd.finalizers, areEnd.closes, areWork.handlers, fun reaches => ?_,
    areWork.workspaces, areEnd.done ▸ areWork.left, areEnd.closed, fun stay c hc => ?_,
    fun clear => ?_⟩
  · exact ⟨(areWork.kinds c hc).1, (areWork.kinds c hc).2.1⟩
  · refine areWork.all fun f failed => reaches f ?_
    cases failure with
    | none => exact failed
    | some f' =>
      show worked.failure.or (some f') = some f
      rw [failed, Option.some_or]
  · have nothing : closing.filterMap Call.closed? = [] := by rw [areEnd.closed, if_pos stay]
    rcases List.mem_append.1 hc with hc | hc
    · rcases List.mem_append.1 hc with hc | hc
      · obtain ⟨-, notClose, open_⟩ := areWork.kinds c hc
        exact ⟨fun ended => Bool.false_ne_true ((open_ ended).symm.trans stay), notClose⟩
      · simp [areEnd.finalizers c hc]
    · have notClose := Call.closed?_eq_none_iff.1 (List.filterMap_eq_nil_iff.1 nothing c hc)
      exact absurd (areEnd.closes c hc) notClose
  · rw [withTeardown_failure settles clear, areEnd.failure]

end Run

/-- No stage fails before the end. -/
theorem loggingRun_passes : ∀ stage message, stage.index < Stage.teardown.index →
    ¬ loggingRun.Fails [waiting] [] [] stage message := by
  obtain ⟨result, ran, -, -, failed⟩ := loggingRun_waiting
  obtain ⟨_, _, _, _, _, _, _, _, _, -, ran', -, -, -, -, settles⟩ :=
    Run.run_makes loggingRun_crashesOnlyInActions [waiting] [] []
  cases (Prod.mk.inj (ran.symm.trans ran')).1
  have first := settles.failure
  rw [failed] at first
  exact first.2.2

/-- The work that was left is done in the directory of the feature, and then the stepper is closed;
both fail, and the first of the two failures is reported. -/
theorem run_ends_logging : ∃ result log,
    (loggingRun.run [waiting] []).start [] = (.ok result, log) ∧
    log = ["build in dir", "wait", "finalize in dir", "close"] ∧
    result.failure = some ⟨.teardown, (BuildError.finalizer "dir" ⟨"broken", []⟩).message⟩ ∧
    ∃ (finalizing closing : List (Call (List String))),
      closing.filterMap Call.closed? = [loggingStepper] ∧
      result.failure = (((finalizing.findSome? Call.buildError?).map (·.message)).or
        (closing.findSome? Call.closeMessage?)).map (⟨.teardown, ·⟩) := by
  obtain ⟨result, ran, -, -, failed⟩ := loggingRun_waiting
  obtain ⟨_, _, _, _, finalizing, closing, _, ran', -, -, -, -, -, -, -, -, -, closed, -,
    reported⟩ := Run.run_ends loggingRun_crashesOnlyInActions [waiting] [] []
  cases (Prod.mk.inj (ran.symm.trans ran')).1
  refine ⟨result, _, ran, rfl, failed, finalizing, closing, closed,
    reported loggingRun_passes⟩

end PlainSteps
