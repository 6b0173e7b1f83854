import Mathlib.Data.List.Forall2
import PlainSteps.Proofs.Effect
import PlainSteps.Run.Execute

/-!
# Scores, and where a run stops

A run goes on after a failure that has a score, where this is enabled and no hook fails when it is
told of the failure. It stops at any other failure, and at the end of a feature in which a hook has
failed.

* `ReportedStep`: a step that has run, with its result and the hook that failed at its failure.
* `IsProgress`: what the steps of a feature give; `IsFeatureRun`: what a feature gives.
* `executeSteps_isProgress`: running steps gives that.
* `executeFeature_isFeatureRun`: running a feature gives that.
* `executeFeatures_reports`: which features and steps are reported, which failures have scores in
  the list, and which features are ok.

Proof-only: no module that runs imports this one.
-/

namespace PlainSteps

variable {σ : Type} {ctx : RunContext σ}

/-! ## Steps that have run -/

/-- A step that has run. -/
structure ReportedStep (σ : Type) where
  step : FeatureStep σ
  result : StepResult
  /-- The hook that failed when the steppers were told of the failure of the step. -/
  hookFailure : Option HookFailure

namespace ReportedStep

/-- Whether running a step gave its result, and telling the steppers of its failure its hook. -/
def Ran (ctx : RunContext σ) (r : ReportedStep σ) : Prop :=
  ∃ s mid, (executeStep ctx r.step).start s = (.ok r.result, mid) ∧
    if r.result.ok = true then r.hookFailure = none
    else ∃ s', (tellFailure ctx r.result).start mid = (.ok r.hookFailure, s')

/-- A result is that of the line of its step. -/
theorem Ran.sameLine {r : ReportedStep σ} (h : r.Ran ctx) :
    r.result.text = r.step.head.text ∧ r.result.seqPath = r.step.head.seqPath := by
  obtain ⟨s, mid, ran, _⟩ := h
  obtain ⟨⟨head, nested⟩, result, _⟩ := r
  rw [executeStep] at ran
  obtain ⟨⟨vars, action⟩, _, _, ran⟩ := Effect.ok_of_start_bind ran
  obtain ⟨rfl, _⟩ := Effect.eq_of_start_pure ran
  exact ⟨rfl, rfl⟩

/-- The entry for a failure after which the run went on. -/
def entry (r : ReportedStep σ) (score : Number) : ScoredFailure :=
  ⟨score, r.result.failureMessage, r.step.head.action.qualifiedName, r.step.head.seqPath⟩

/-- Whether a step has failed and the run goes on after it with a score. -/
def GoesOn (ctx : RunContext σ) (r : ReportedStep σ) (score : Number) : Prop :=
  r.result.ok = false ∧ r.result.failureScore = some score ∧ ctx.config.continueOnScore = true ∧
    r.hookFailure = none

/-- The entry of a step, if it has failed and the run goes on after it. -/
def listed? (ctx : RunContext σ) (r : ReportedStep σ) : Option ScoredFailure :=
  if r.result.ok = false ∧ ctx.config.continueOnScore = true ∧ r.hookFailure = none then
    r.result.failureScore.map r.entry
  else none

theorem listed?_eq_some_iff {r : ReportedStep σ} {e : ScoredFailure} :
    r.listed? ctx = some e ↔ ∃ score, r.GoesOn ctx score ∧ e = r.entry score := by
  rw [listed?]
  constructor
  · intro h
    split at h
    · next going =>
      obtain ⟨failed, on, told⟩ := going
      obtain ⟨score, scored, rfl⟩ := Option.map_eq_some_iff.1 h
      exact ⟨score, ⟨failed, scored, on, told⟩, rfl⟩
    · exact nomatch h
  · rintro ⟨score, ⟨failed, scored, on, told⟩, rfl⟩
    rw [if_pos ⟨failed, on, told⟩, scored]
    rfl

theorem listed?_eq_none_of_ok {r : ReportedStep σ} (ok : r.result.ok = true) :
    r.listed? ctx = none :=
  if_neg fun going => by rw [ok] at going; exact nomatch going.1

end ReportedStep

/-! ## The steps of a feature -/

/-- What running steps gives: results of the first of them, in order, of which all that failed but
the last have let the run go on; fewer than all only if the last of them has failed and did not. -/
structure IsProgress (ctx : RunContext σ) (steps : List (FeatureStep σ))
    (reported : List (ReportedStep σ)) (p : Progress) : Prop where
  inOrder : reported.map (·.step) <+: steps
  results : p.steps = reported.map (·.result)
  ran : ∀ r ∈ reported, r.Ran ctx
  goesOn : ∀ r ∈ reported.dropLast, r.result.ok = false → ∃ score, r.GoesOn ctx score
  stopped : reported.length < steps.length → ∃ last, reported.getLast? = some last ∧
    last.result.ok = false ∧ ¬ ∃ score, last.GoesOn ctx score
  scored : p.scored = reported.filterMap (·.listed? ctx)
  ok : p.ok = true ↔ ∀ r ∈ reported, r.result.ok = false → ∃ score, r.GoesOn ctx score
  hook : p.hookFailure = reported.findSome? (·.hookFailure)

/-- A step after which the run goes on, in front of others. -/
theorem IsProgress.after {step : FeatureStep σ} {rest : List (FeatureStep σ)}
    {r : ReportedStep σ} {reported : List (ReportedStep σ)} {p q : Progress}
    (h : IsProgress ctx rest reported p) (ofStep : r.step = step) (ran : r.Ran ctx)
    (told : r.hookFailure = none)
    (going : r.result.ok = false → ∃ score, r.GoesOn ctx score)
    (results : q.steps = r.result :: p.steps)
    (scored : q.scored = (r.listed? ctx).toList ++ p.scored)
    (ok : q.ok = p.ok) (hook : q.hookFailure = p.hookFailure) :
    IsProgress ctx (step :: rest) (r :: reported) q where
  inOrder := by
    rw [List.map_cons, ofStep, List.cons_prefix_cons]
    exact ⟨rfl, h.inOrder⟩
  results := by rw [results, h.results, List.map_cons]
  ran := List.forall_mem_cons.2 ⟨ran, h.ran⟩
  goesOn := by
    intro t ht
    cases reported with
    | nil => exact nomatch ht
    | cons next more =>
      rcases List.mem_cons.1 ht with rfl | ht
      · exact going
      · exact h.goesOn t ht
  stopped := by
    intro lt
    obtain ⟨last, isLast, stops⟩ := h.stopped (by simpa using lt)
    exact ⟨last, by rw [List.getLast?_cons, isLast]; rfl, stops⟩
  scored := by
    rw [scored, h.scored, List.filterMap_cons]
    cases r.listed? ctx <;> rfl
  ok := by rw [ok, h.ok, List.forall_mem_cons, and_iff_right going]
  hook := by rw [hook, h.hook, List.findSome?_cons, told]

/-- A step at which the run stops. -/
theorem isProgress_stopped {step : FeatureStep σ} {rest : List (FeatureStep σ)}
    {r : ReportedStep σ} (ofStep : r.step = step) (ran : r.Ran ctx) (failed : r.result.ok = false)
    (stops : ¬ ∃ score, r.GoesOn ctx score) :
    IsProgress ctx (step :: rest) [r] (.stopped r.result r.hookFailure) where
  inOrder := by
    rw [List.map_singleton, ofStep, List.cons_prefix_cons]
    exact ⟨rfl, List.nil_prefix⟩
  results := rfl
  ran := List.forall_mem_singleton.2 ran
  goesOn := fun t ht => nomatch ht
  stopped := fun _ => ⟨r, rfl, failed, stops⟩
  scored := by
    have none : r.listed? ctx = .none := Option.eq_none_iff_forall_ne_some.2 fun e he =>
      stops ((ReportedStep.listed?_eq_some_iff.1 he).imp fun _ => And.left)
    rw [List.filterMap_cons, none]
    rfl
  ok := by
    rw [List.forall_mem_singleton]
    exact ⟨fun h => (nomatch h), fun goes => (stops (goes failed)).elim⟩
  hook := by
    rw [List.findSome?_singleton]
    rfl

/-- What running steps gives. -/
theorem executeSteps_isProgress {steps : List (FeatureStep σ)} {s s' : Session σ} {p : Progress}
    (h : (executeSteps ctx steps).start s = (.ok p, s')) :
    ∃ reported, IsProgress ctx steps reported p := by
  induction steps generalizing s s' p with
  | nil =>
    obtain ⟨rfl, _⟩ := Effect.eq_of_start_pure h
    exact ⟨[], List.nil_prefix, rfl, List.forall_mem_nil _, List.forall_mem_nil _,
      fun lt => absurd lt (Nat.lt_irrefl 0), rfl, iff_of_true rfl (List.forall_mem_nil _), rfl⟩
  | cons step rest ih =>
    rw [executeSteps] at h
    obtain ⟨result, mid, hStep, h⟩ := Effect.ok_of_start_bind h
    cases passed : result.ok with
    | true =>
      rw [if_pos passed] at h
      obtain ⟨more, _, hMore, h⟩ := Effect.ok_of_start_bind h
      obtain ⟨rfl, _⟩ := Effect.eq_of_start_pure h
      obtain ⟨reported, isProgress⟩ := ih hMore
      have ran : ReportedStep.Ran ctx ⟨step, result, none⟩ :=
        ⟨s, mid, hStep, by rw [if_pos passed]⟩
      refine ⟨_, isProgress.after rfl ran rfl (fun failed => ?_) rfl ?_ rfl rfl⟩
      · rw [passed] at failed
        exact nomatch failed
      · rw [ReportedStep.listed?_eq_none_of_ok passed]
        rfl
    | false =>
      have failed : ¬ result.ok = true := by rw [passed]; exact Bool.false_ne_true
      rw [if_neg failed] at h
      obtain ⟨hook, told, hTold, h⟩ := Effect.ok_of_start_bind h
      have ran : ReportedStep.Ran ctx ⟨step, result, hook⟩ :=
        ⟨s, mid, hStep, by rw [if_neg failed]; exact ⟨told, hTold⟩⟩
      cases hook with
      | some failure =>
        obtain ⟨rfl, _⟩ := Effect.eq_of_start_pure h
        exact ⟨_, isProgress_stopped rfl ran passed fun ⟨_, goes⟩ => nomatch goes.2.2.2⟩
      | none =>
        cases scored : result.failureScore.filter fun _ => ctx.config.continueOnScore with
        | none =>
          simp only [scored] at h
          obtain ⟨rfl, _⟩ := Effect.eq_of_start_pure h
          refine ⟨_, isProgress_stopped rfl ran passed ?_⟩
          rintro ⟨score, _, has, on, _⟩
          rw [has, Option.filter_some, if_pos on] at scored
          exact nomatch scored
        | some score =>
          simp only [scored] at h
          obtain ⟨more, _, hMore, h⟩ := Effect.ok_of_start_bind h
          obtain ⟨rfl, _⟩ := Effect.eq_of_start_pure h
          obtain ⟨reported, isProgress⟩ := ih hMore
          obtain ⟨has, on⟩ := Option.filter_eq_some_iff.1 scored
          have goes : ReportedStep.GoesOn ctx ⟨step, result, none⟩ score := ⟨passed, has, on, rfl⟩
          refine ⟨_, isProgress.after rfl ran rfl (fun _ => ⟨score, goes⟩) rfl ?_ rfl rfl⟩
          rw [ReportedStep.listed?_eq_some_iff.2 ⟨score, goes, rfl⟩]
          rfl

/-! ## Features -/

/-- What running a feature gives. The steps are as `IsProgress` says; the scores are those of the
failures after which the run went on; a hook has failed if one did when told of a failure, or else
at the end of the feature, where it is told of that. -/
structure IsFeatureRun (ctx : RunContext σ) (feature : ResolvedFeature σ)
    (reported : List (ReportedStep σ)) (run : ExecutedFeature) : Prop where
  path : run.result.path = feature.path
  inOrder : reported.map (·.step) <+: feature.steps
  results : run.result.steps = reported.map (·.result)
  ran : ∀ r ∈ reported, r.Ran ctx
  goesOn : ∀ r ∈ reported.dropLast, r.result.ok = false → ∃ score, r.GoesOn ctx score
  stopped : reported.length < feature.steps.length → ∃ last, reported.getLast? = some last ∧
    last.result.ok = false ∧ (last.result.failureScore = none ∨ ctx.config.continueOnScore = false ∨
      ∃ failure, last.hookFailure = some failure)
  scored : run.scored = reported.filterMap (·.listed? ctx)
  ok : run.result.ok = true ↔ run.hookFailure = none ∧
    ∀ r ∈ reported, r.result.ok = false → ∃ score, r.GoesOn ctx score
  told : ∀ failure, reported.findSome? (·.hookFailure) = some failure →
    run.hookFailure = some failure
  ended : reported.findSome? (·.hookFailure) = none →
    if ctx.config.stay = true then run.hookFailure = none
    else ∃ s s', (tellEnd ctx).start s = (.ok run.hookFailure, s')

theorem stops_cases {r : ReportedStep σ} (failed : r.result.ok = false)
    (stops : ¬ ∃ score, r.GoesOn ctx score) :
    r.result.failureScore = none ∨ ctx.config.continueOnScore = false ∨
      ∃ failure, r.hookFailure = some failure := by
  cases scored : r.result.failureScore with
  | none => exact .inl rfl
  | some score =>
    cases on : ctx.config.continueOnScore with
    | false => exact .inr (.inl rfl)
    | true =>
      cases told : r.hookFailure with
      | some failure => exact .inr (.inr ⟨failure, rfl⟩)
      | none => exact (stops ⟨score, failed, scored, on, told⟩).elim

/-- The hook that has failed when a feature ends, of which the steppers are told unless one has
failed before. -/
def endHook (ctx : RunContext σ) (p : Progress) : Effect (Session σ) (Option HookFailure) :=
  if p.hookFailure.isNone && !ctx.config.stay then tellEnd ctx else pure p.hookFailure

theorem executeFeature_eq (ctx : RunContext σ) (feature : ResolvedFeature σ) :
    executeFeature ctx feature = do
      Session.changeWorld World.resetFeature
      let progress ← executeSteps ctx feature.steps
      let hookFailure ← endHook ctx progress
      let world ← Session.readWorld
      return ⟨⟨feature.path, world.featureTitle, progress.ok && hookFailure.isNone,
        progress.steps⟩, progress.scored, hookFailure⟩ := by
  rw [executeFeature]
  refine bind_congr fun _ => bind_congr fun progress => ?_
  rw [endHook]
  split <;> rfl

/-- What running a feature gives. -/
theorem executeFeature_isFeatureRun {feature : ResolvedFeature σ} {s s' : Session σ}
    {run : ExecutedFeature} (h : (executeFeature ctx feature).start s = (.ok run, s')) :
    ∃ reported, IsFeatureRun ctx feature reported run := by
  rw [executeFeature_eq] at h
  obtain ⟨_, fresh, _, h⟩ := Effect.ok_of_start_bind h
  obtain ⟨progress, mid, hSteps, h⟩ := Effect.ok_of_start_bind h
  obtain ⟨reported, steps⟩ := executeSteps_isProgress hSteps
  obtain ⟨hook, ended, hHook, h⟩ := Effect.ok_of_start_bind h
  obtain ⟨world, last, _, h⟩ := Effect.ok_of_start_bind h
  obtain ⟨rfl, _⟩ := Effect.eq_of_start_pure h
  have stopped (lt : reported.length < feature.steps.length) : ∃ last,
      reported.getLast? = some last ∧ last.result.ok = false ∧
        (last.result.failureScore = none ∨ ctx.config.continueOnScore = false ∨
          ∃ failure, last.hookFailure = some failure) := by
    obtain ⟨last, isLast, failed, stops⟩ := steps.stopped lt
    exact ⟨last, isLast, failed, stops_cases failed stops⟩
  refine ⟨reported, rfl, steps.inOrder, steps.results, steps.ran, steps.goesOn, stopped,
    steps.scored, ?ok, ?told, ?ended⟩
  case ok =>
    change (progress.ok && hook.isNone) = true ↔ hook = none ∧ _
    rw [Bool.and_eq_true, steps.ok, Option.isNone_iff_eq_none, and_comm]
  case told =>
    intro failure found
    rw [← steps.hook] at found
    rw [endHook, found] at hHook
    obtain ⟨rfl, _⟩ := Effect.eq_of_start_pure hHook
    rfl
  case ended =>
    intro found
    rw [← steps.hook] at found
    rw [endHook, found] at hHook
    cases stay : ctx.config.stay with
    | true =>
      rw [stay] at hHook
      obtain ⟨rfl, _⟩ := Effect.eq_of_start_pure hHook
      rfl
    | false =>
      rw [stay] at hHook
      exact ⟨mid, ended, hHook⟩

/-! ## A run -/

/-- A feature that has run. -/
structure ReportedFeature (σ : Type) where
  run : ExecutedFeature
  steps : List (ReportedStep σ)

/-- The entries of the failures of a feature after which the run went on. -/
def ReportedFeature.entries (ctx : RunContext σ) (f : ReportedFeature σ) : List ScoredFailure :=
  f.steps.filterMap (·.listed? ctx)

/-- What running features gives: what the first of them give, in order, up to the first in which a
hook fails. -/
structure IsRun (ctx : RunContext σ) (features : List (ResolvedFeature σ))
    (reported : List (ReportedFeature σ)) (executed : Executed) : Prop where
  runs : List.Forall₂ (fun feature f => IsFeatureRun ctx feature f.steps f.run)
    (features.take reported.length) reported
  results : executed.features = reported.map (·.run.result)
  goesOn : ∀ f ∈ reported.dropLast, f.run.hookFailure = none
  hook : executed.hookFailure = reported.getLast?.bind (·.run.hookFailure)
  stopped : reported.length < features.length → ∃ last failure, reported.getLast? = some last ∧
    last.run.hookFailure = some failure
  scored : executed.scored = reported.flatMap (·.entries ctx)

theorem executeFeatures_isRun {features : List (ResolvedFeature σ)} {s s' : Session σ}
    {executed : Executed} (h : (executeFeatures ctx features).start s = (.ok executed, s')) :
    ∃ reported, IsRun ctx features reported executed := by
  induction features generalizing s s' executed with
  | nil =>
    obtain ⟨rfl, _⟩ := Effect.eq_of_start_pure h
    exact ⟨[], .nil, rfl, List.forall_mem_nil _, rfl, fun lt => absurd lt (Nat.lt_irrefl 0), rfl⟩
  | cons feature rest ih =>
    rw [executeFeatures] at h
    obtain ⟨run, mid, hRun, h⟩ := Effect.ok_of_start_bind h
    obtain ⟨steps, isRun⟩ := executeFeature_isFeatureRun hRun
    cases hook : run.hookFailure with
    | some failure =>
      simp only [hook] at h
      obtain ⟨rfl, _⟩ := Effect.eq_of_start_pure h
      refine ⟨[⟨run, steps⟩], .cons isRun .nil, rfl, List.forall_mem_nil _, hook.symm,
        fun _ => ⟨⟨run, steps⟩, failure, rfl, hook⟩, ?_⟩
      rw [List.flatMap_singleton]
      exact isRun.scored
    | none =>
      simp only [hook] at h
      obtain ⟨more, _, hMore, h⟩ := Effect.ok_of_start_bind h
      obtain ⟨rfl, _⟩ := Effect.eq_of_start_pure h
      obtain ⟨reported, isMore⟩ := ih hMore
      refine ⟨⟨run, steps⟩ :: reported, .cons isRun isMore.runs, ?results, ?goesOn, ?hook, ?stopped,
        ?scored⟩
      case results => rw [List.map_cons, isMore.results]
      case goesOn =>
        intro f hf
        cases reported with
        | nil => exact nomatch hf
        | cons next others =>
          rcases List.mem_cons.1 hf with rfl | hf
          · exact hook
          · exact isMore.goesOn f hf
      case hook =>
        rw [List.getLast?_cons, isMore.hook]
        cases reported.getLast? with
        | none => exact hook.symm
        | some last => rfl
      case stopped =>
        intro lt
        obtain ⟨last, failure, isLast, failed⟩ := isMore.stopped (Nat.lt_of_succ_lt_succ lt)
        exact ⟨last, failure, by rw [List.getLast?_cons, isLast]; rfl, failed⟩
      case scored =>
        rw [isMore.scored, isRun.scored]
        rfl

/-- The entry of a failure is in the list of scores only if its score lets the run go on. -/
theorem IsFeatureRun.ok_iff {feature : ResolvedFeature σ} {steps : List (ReportedStep σ)}
    {run : ExecutedFeature} {reported : List (ReportedFeature σ)}
    (h : IsFeatureRun ctx feature steps run)
    (mem : ∃ f ∈ reported, f.steps = steps) :
    run.result.ok = true ↔ run.hookFailure = none ∧ ∀ r ∈ steps, r.result.ok = false →
      ∃ score, r.result.failureScore = some score ∧
        r.entry score ∈ reported.flatMap (·.entries ctx) := by
  obtain ⟨f, hf, rfl⟩ := mem
  rw [h.ok]
  refine and_congr_right fun noHook => forall₂_congr fun r hr => forall_congr' fun failed => ?_
  constructor
  · rintro ⟨score, goes⟩
    refine ⟨score, goes.2.1, List.mem_flatMap.2 ⟨f, hf, List.mem_filterMap.2 ⟨r, hr, ?_⟩⟩⟩
    exact ReportedStep.listed?_eq_some_iff.2 ⟨score, goes, rfl⟩
  · rintro ⟨score, scored, listed⟩
    obtain ⟨g, _, listed⟩ := List.mem_flatMap.1 listed
    obtain ⟨other, _, ofOther⟩ := List.mem_filterMap.1 listed
    obtain ⟨_, ⟨_, _, on, _⟩, _⟩ := ReportedStep.listed?_eq_some_iff.1 ofOther
    have told : f.steps.findSome? (·.hookFailure) = none :=
      Option.eq_none_iff_forall_ne_some.2 fun failure found => by
        rw [h.told failure found] at noHook
        exact nomatch noHook
    exact ⟨score, failed, scored, on, List.findSome?_eq_none_iff.1 told r hr⟩

private theorem exists_left_of_forall₂ {α β : Type} {R : α → β → Prop} {xs : List α} {ys : List β}
    (h : List.Forall₂ R xs ys) : ∀ y ∈ ys, ∃ x, R x y := by
  induction h with
  | nil => exact List.forall_mem_nil _
  | cons first _ ih => exact List.forall_mem_cons.2 ⟨⟨_, first⟩, ih⟩

/-- The reported features are the first ones, all of them unless a hook failed in the last one. The
steps of a feature are reported likewise, up to a failure without a score, with scores disabled, or
at which a hook failed. The list of scores holds an entry for each failure after which the run went
on, in order, and a feature is ok if no hook failed in it and each of its failures is listed. -/
theorem executeFeatures_reports {features : List (ResolvedFeature σ)} {s s' : Session σ}
    {executed : Executed} (h : (executeFeatures ctx features).start s = (.ok executed, s')) :
    ∃ reported : List (ReportedFeature σ), IsRun ctx features reported executed ∧
      ∀ f ∈ reported,
        (∀ r ∈ f.steps, r.result.text = r.step.head.text ∧
          r.result.seqPath = r.step.head.seqPath) ∧
        (f.run.result.ok = true ↔ f.run.hookFailure = none ∧
          ∀ r ∈ f.steps, r.result.ok = false →
            ∃ score, r.result.failureScore = some score ∧ r.entry score ∈ executed.scored) := by
  obtain ⟨reported, isRun⟩ := executeFeatures_isRun h
  refine ⟨reported, isRun, fun f hf => ?_⟩
  obtain ⟨feature, ofFeature⟩ := exists_left_of_forall₂ isRun.runs f hf
  refine ⟨fun r hr => (ofFeature.ran r hr).sameLine, ?_⟩
  rw [isRun.scored]
  exact ofFeature.ok_iff ⟨f, hf, rfl⟩

/-- A step that fails with a score. -/
def scoringStep : FeatureStep Unit :=
  .mk ⟨⟨"score.feature", 1⟩, "guess", ⟨[1, 1]⟩, .resolved "Test"
    { name := "guess", form := .exact "guess"
      action := fun _ => return .ok ⟨false, some "no", some (.finite false 1 0), []⟩ } []⟩ []

/-- A step whose line was not resolved. -/
def lostStep : FeatureStep Unit :=
  .unresolved "lost" ⟨"score.feature", 2⟩ ⟨[1, 2]⟩ "no step"

/-- A run that goes on after failures that have a score. -/
def scoringContext : RunContext Unit where
  steppers := []
  domains := ⟨∅⟩
  config := { RunConfig.initial with continueOnScore := true }

/-- A feature that goes on after its first step and stops at the second. -/
def scoringRun :=
  (executeFeatures scoringContext
    [⟨"score.feature", "", [scoringStep, lostStep, scoringStep]⟩]).start ⟨.new "run", ()⟩

/-- The first failure is listed, and the run stops at the second. -/
theorem scoringRun_reports : ∃ executed s', scoringRun = (.ok executed, s') ∧
    executed.scored.map (·.seqPath) = [⟨[1, 1]⟩] ∧
    ∃ reported, IsRun scoringContext [⟨"score.feature", "", [scoringStep, lostStep, scoringStep]⟩]
      reported executed := by
  obtain ⟨executed, s', h⟩ : ∃ executed s', scoringRun = (.ok executed, s') := ⟨_, _, rfl⟩
  obtain ⟨reported, isRun, _⟩ := executeFeatures_reports h
  refine ⟨executed, s', h, ?_, reported, isRun⟩
  cases h
  rfl

end PlainSteps
