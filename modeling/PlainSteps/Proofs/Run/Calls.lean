import Mathlib.Data.List.Perm.Basic
import PlainSteps.Proofs.Run.Scores
import PlainSteps.Run.Basic

/-!
# The calls of a run

A run changes a session by calls only: of build handlers, steps and hooks, of the work that is left
for its end, and by resetting the world. What computations do is stated by the calls in turn that
take the one session to the other. This holds for any steppers, also for such as record in the store
what is called, and so the calls of a run are those that it makes.

* `Call`, `Call.Takes`: a call with its answer, and what it makes of a session.
* `Calls`: calls in turn.
* `Effect.Makes`: a computation returns, by calls that have a property.
* `executeFeatures_makes`: executing features runs steps and tells the steppers of failures and of
  the ends of features.
* `buildFeatures_makes`: building features calls build handlers, and what they leave is kept.
* `Run.teardown_makes`: the end of a run does all work that is left and closes the steppers.

Proof-only: no module that runs imports this one.
-/

namespace PlainSteps

variable {σ : Type}

/-! ## Calls -/

/-- The message for a stepper that fails to close. -/
def closeMessage (s : Stepper σ) (cause : Fault) : String :=
  "stepper " ++ backquoted s.name ++ " failed to close: " ++ cause.message

/-- What a run calls, with the answer. -/
inductive Call (σ : Type) where
  /-- The world is reset. -/
  | reset
  | build (feature : ResolvedFeature σ) (handler : BuildHandler σ) (context : BuildContext)
      (answer : Except Fault (Option (Finalizer σ)))
  /-- A step of a feature, with the steps that its action runs. -/
  | step (context : RunContext σ) (step : FeatureStep σ) (result : StepResult)
  | onFailure (stepper : Stepper σ) (result : StepResult) (answer : Except Fault Unit)
  | endFeature (stepper : Stepper σ) (answer : Except Fault Unit)
  /-- Work that was left for the end. -/
  | finalizer (workspace : String) (work : Finalizer σ) (answer : Except Fault Unit)
  | close (stepper : Stepper σ) (answer : Except Fault Unit)

/-- The kinds of calls. -/
inductive CallKind where
  | reset
  | build
  | step
  | onFailure
  | endFeature
  | finalizer
  | close
  deriving DecidableEq

namespace Call

/-- The kind of a call. -/
def kind : Call σ → CallKind
  | reset => .reset
  | build .. => .build
  | step .. => .step
  | onFailure .. => .onFailure
  | endFeature .. => .endFeature
  | finalizer .. => .finalizer
  | close .. => .close

/-- A call takes a session to another. -/
def Takes (s s' : Session σ) : Call σ → Prop
  | reset => s' = { s with world := s.world.resetFeature }
  | build _ handler context answer => (handler context).start s = (.ok answer, s')
  | step context line result => (executeStep context line).start s = (.ok result, s')
  | onFailure stepper result answer => (stepper.onFailure result).start s = (.ok answer, s')
  | endFeature stepper answer => stepper.endFeature.start s = (.ok answer, s')
  | finalizer workspace work answer => (work workspace).start s = (.ok answer, s')
  | close stepper answer => stepper.close.start s = (.ok answer, s')

/-- The result of a step. -/
def stepResult? : Call σ → Option StepResult
  | step _ _ result => some result
  | _ => none

/-- The build handler that is called, with its feature. -/
def built? : Call σ → Option (ResolvedFeature σ × BuildHandler σ)
  | build feature handler _ _ => some (feature, handler)
  | _ => none

/-- The work that a build handler leaves, with the directory of its feature. -/
def left? : Call σ → Option (String × Finalizer σ)
  | build feature _ _ (.ok (some work)) => some (FilePath.directory feature.path, work)
  | _ => none

/-- The work that is done, with its workspace. -/
def done? : Call σ → Option (String × Finalizer σ)
  | finalizer workspace work _ => some (workspace, work)
  | _ => none

/-- The stepper that is closed. -/
def closed? : Call σ → Option (Stepper σ)
  | close stepper _ => some stepper
  | _ => none

/-- The failure of work that was left. -/
def buildError? : Call σ → Option BuildError
  | finalizer workspace _ (.error cause) => some (.finalizer workspace cause)
  | _ => none

/-- The message for the stepper, where it fails to close. -/
def closeMessage? : Call σ → Option String
  | close stepper (.error cause) => some (closeMessage stepper cause)
  | _ => none

theorem stepResult?_eq_none_iff {c : Call σ} : c.stepResult? = none ↔ c.kind ≠ .step := by
  cases c <;> simp [stepResult?, kind]

theorem closed?_eq_none_iff {c : Call σ} : c.closed? = none ↔ c.kind ≠ .close := by
  cases c <;> simp [closed?, kind]

theorem built?_eq_none {c : Call σ} (h : c.kind ≠ .build) : c.built? = none := by
  cases c with
  | build => exact absurd rfl h
  | _ => rfl

theorem left?_eq_none {c : Call σ} (h : c.kind ≠ .build) : c.left? = none := by
  cases c with
  | build => exact absurd rfl h
  | _ => rfl

theorem filterMap_stepResult?_eq_nil {calls : List (Call σ)} (h : ∀ c ∈ calls, c.kind ≠ .step) :
    calls.filterMap stepResult? = [] :=
  List.filterMap_eq_nil_iff.2 fun c hc => stepResult?_eq_none_iff.2 (h c hc)

end Call

/-- Calls in turn take a session to another. -/
def Calls : List (Call σ) → Session σ → Session σ → Prop
  | [], s, s' => s' = s
  | c :: rest, s, s' => ∃ mid, c.Takes s mid ∧ Calls rest mid s'

theorem Calls.append {cs ds : List (Call σ)} {s mid s' : Session σ} (h : Calls cs s mid)
    (h' : Calls ds mid s') : Calls (cs ++ ds) s s' := by
  induction cs generalizing s with
  | nil =>
    cases h
    exact h'
  | cons c cs ih =>
    obtain ⟨next, takes, h⟩ := h
    exact ⟨next, takes, ih h⟩

theorem Calls.single {c : Call σ} {s s' : Session σ} (h : c.Takes s s') : Calls [c] s s' :=
  ⟨s', h, rfl⟩

/-! ## Computations that return -/

namespace Effect

variable {α β : Type}

theorem Returns.readWorld : (Session.readWorld (σ := σ)).Returns := fun s => ⟨s.world, s, rfl⟩

/-- From every session, a computation returns, by calls that have a property with the answer. -/
def Makes (x : Effect (Session σ) α) (post : α → List (Call σ) → Prop) : Prop :=
  ∀ s, ∃ a s' calls, x.start s = (.ok a, s') ∧ Calls calls s s' ∧ post a calls

namespace Makes

variable {x : Effect (Session σ) α} {post : α → List (Call σ) → Prop}

theorem imp {post' : α → List (Call σ) → Prop} (h : x.Makes post)
    (imp : ∀ a calls, post a calls → post' a calls) : x.Makes post' := by
  intro s
  obtain ⟨a, s', calls, ran, made, holds⟩ := h s
  exact ⟨a, s', calls, ran, made, imp a calls holds⟩

theorem pure {a : α} (h : post a []) : (Pure.pure a : Effect (Session σ) α).Makes post :=
  fun s => ⟨a, s, [], rfl, rfl, h⟩

theorem bind {f : α → Effect (Session σ) β} {post' : β → List (Call σ) → Prop} (h : x.Makes post)
    (hf : ∀ a calls, post a calls → (f a).Makes fun b more => post' b (calls ++ more)) :
    (x >>= f).Makes post' := by
  intro s
  obtain ⟨a, mid, calls, ran, made, holds⟩ := h s
  obtain ⟨b, s', more, then_, madeMore, holds⟩ := hf a calls holds mid
  exact ⟨b, s', calls ++ more, by rw [start_bind, ran]; exact then_, made.append madeMore, holds⟩

/-- A computation that is one call. -/
theorem call (as : α → Call σ) (returns : x.Returns)
    (takes : ∀ s a s', x.start s = (.ok a, s') → (as a).Takes s s') :
    x.Makes fun a calls => calls = [as a] := by
  intro s
  obtain ⟨a, s', ran⟩ := returns s
  exact ⟨a, s', [as a], ran, .single (takes s a s' ran), rfl⟩

/-- Reading the world is no call. -/
theorem readWorld : (Session.readWorld (σ := σ)).Makes fun _ calls => calls = [] :=
  fun s => ⟨s.world, s, [], rfl, rfl, rfl⟩

theorem reset : (Session.changeWorld (σ := σ) World.resetFeature).Makes
    fun _ calls => calls = [.reset] :=
  fun _ => ⟨(), _, [.reset], rfl, .single rfl, rfl⟩

end Makes

end Effect

open Effect

/-! ## Steps -/

theorem executeStep_returns (ctx : RunContext σ) (step : FeatureStep σ) :
    (executeStep ctx step).Returns := by
  obtain ⟨head, nested⟩ := step
  rw [executeStep]
  refine Returns.bind ?_ fun _ => .pure _
  unfold invoke
  cases head.action.kind with
  | unresolved message => exact .pure _
  | defined d =>
    refine Returns.readWorld.bind fun world => ?_
    cases populate world ctx.domains ctx.config.env head.action.captures with
    | error e => exact .pure _
    | ok vars => exact (Returns.attempt _).bind fun _ => .pure _

theorem executeStep_makes (ctx : RunContext σ) (step : FeatureStep σ) :
    (executeStep ctx step).Makes fun result calls => calls = [.step ctx step result] :=
  .call (.step ctx step) (executeStep_returns ctx step) fun _ _ _ ran => ran

/-- Running a hook of steppers calls that of some of them. -/
theorem runHooks_makes {hook : String}
    {call : Stepper σ → Effect (Session σ) (Except Fault Unit)} {steppers : List (Stepper σ)}
    (as : Stepper σ → Except Fault Unit → Call σ)
    (takes : ∀ stepper s a s', (call stepper).start s = (.ok a, s') → (as stepper a).Takes s s')
    (returns : ∀ s ∈ steppers, (call s).Returns) :
    (runHooks hook call steppers).Makes fun _ calls => ∀ c ∈ calls, ∃ s a, c = as s a := by
  induction steppers with
  | nil =>
    rw [runHooks]
    exact .pure (List.forall_mem_nil _)
  | cons s rest ih =>
    rw [runHooks]
    refine (Makes.call (as s) (returns s List.mem_cons_self) (takes s)).bind fun a calls made => ?_
    subst made
    cases a with
    | ok _ =>
      refine (ih fun t ht => returns t (List.mem_cons_of_mem s ht)).imp fun _ more each => ?_
      exact List.forall_mem_cons.2 ⟨⟨s, _, rfl⟩, each⟩
    | error cause => exact .pure (List.forall_mem_singleton.2 ⟨s, _, rfl⟩)

/-! ## Features -/

/-- The hooks that a stepper has during the execution of features return. -/
structure Stepper.HooksReturn (s : Stepper σ) : Prop where
  onFailure (result : StepResult) : (s.onFailure result).Returns
  endFeature : s.endFeature.Returns

/-- What is called for the steps of a feature: steps with these results, and hooks. -/
structure AreStepCalls (results : List StepResult) (calls : List (Call σ)) : Prop where
  kinds : ∀ c ∈ calls, c.kind = .step ∨ c.kind = .onFailure
  results : calls.filterMap Call.stepResult? = results

theorem AreStepCalls.cons {ctx : RunContext σ} {step : FeatureStep σ} {result : StepResult}
    {told calls : List (Call σ)} {results : List StepResult} (h : AreStepCalls results calls)
    (hooks : ∀ c ∈ told, ∃ s a, c = .onFailure s result a) :
    AreStepCalls (result :: results) (.step ctx step result :: told ++ calls) where
  kinds := by
    intro c hc
    rcases List.mem_cons.1 hc with rfl | hc
    · exact .inl rfl
    rcases List.mem_append.1 hc with hc | hc
    · obtain ⟨s, a, rfl⟩ := hooks c hc
      exact .inr rfl
    · exact h.kinds c hc
  results := by
    have none : told.filterMap Call.stepResult? = [] :=
      Call.filterMap_stepResult?_eq_nil fun c hc => by
        obtain ⟨s, a, rfl⟩ := hooks c hc
        exact CallKind.noConfusion
    rw [List.cons_append, List.filterMap_cons, List.filterMap_append, none, h.results]
    rfl

theorem areStepCalls_nil : AreStepCalls (σ := σ) [] [] := ⟨List.forall_mem_nil _, rfl⟩

section Execution

variable {ctx : RunContext σ} (hooks : ∀ s ∈ ctx.steppers, s.HooksReturn)

include hooks

theorem executeSteps_makes (steps : List (FeatureStep σ)) :
    (executeSteps ctx steps).Makes fun p calls => AreStepCalls p.steps calls := by
  induction steps with
  | nil =>
    rw [executeSteps]
    exact .pure areStepCalls_nil
  | cons step rest ih =>
    rw [executeSteps]
    refine (executeStep_makes ctx step).bind fun result calls made => ?_
    subst made
    split
    · refine ih.bind fun p calls steps => .pure ?_
      rw [List.append_nil]
      exact steps.cons (List.forall_mem_nil _)
    · have told : (tellFailure ctx result).Makes fun _ calls =>
          ∀ c ∈ calls, ∃ s a, c = .onFailure s result a :=
        runHooks_makes (.onFailure · result ·) (fun _ _ _ _ ran => ran)
          fun s hs => (hooks s hs).onFailure result
      refine told.bind fun hookFailure told hTold => ?_
      have stopped : AreStepCalls [result] ([.step ctx step result] ++ (told ++ [])) :=
        areStepCalls_nil.cons hTold
      cases hookFailure with
      | some failure => exact .pure stopped
      | none =>
        cases result.failureScore.filter fun _ => ctx.config.continueOnScore with
        | none => exact .pure stopped
        | some score =>
          refine ih.bind fun p calls steps => .pure ?_
          rw [List.append_nil]
          exact steps.cons hTold

/-- What is called for features: the world is reset, steps run with these results, and hooks are
told of failures and, unless the run stays open, of the ends of features. -/
structure AreFeatureCalls (stay : Bool) (results : List StepResult) (calls : List (Call σ)) :
    Prop where
  kinds : ∀ c ∈ calls, c.kind = .reset ∨ c.kind = .step ∨ c.kind = .onFailure ∨
    c.kind = .endFeature ∧ stay = false
  results : calls.filterMap Call.stepResult? = results

omit hooks in
theorem areFeatureCalls_nil {stay : Bool} : AreFeatureCalls (σ := σ) stay [] [] :=
  ⟨List.forall_mem_nil _, rfl⟩

omit hooks in
theorem AreFeatureCalls.append {stay : Bool} {results results' : List StepResult}
    {calls calls' : List (Call σ)} (h : AreFeatureCalls stay results calls)
    (h' : AreFeatureCalls stay results' calls') :
    AreFeatureCalls stay (results ++ results') (calls ++ calls') where
  kinds c hc := (List.mem_append.1 hc).elim (h.kinds c) (h'.kinds c)
  results := by rw [List.filterMap_append, h.results, h'.results]

theorem executeFeature_makes (feature : ResolvedFeature σ) :
    (executeFeature ctx feature).Makes fun run calls =>
      AreFeatureCalls ctx.config.stay run.result.steps calls := by
  rw [executeFeature_eq]
  refine Makes.reset.bind fun _ calls made => ?_
  subst made
  refine (executeSteps_makes hooks feature.steps).bind fun p steps hSteps => ?_
  have ended : (endHook ctx p).Makes fun _ calls =>
      ∀ c ∈ calls, (∃ s a, c = .endFeature s a) ∧ ctx.config.stay = false := by
    rw [endHook]
    split
    · next ends =>
      simp only [Bool.and_eq_true, Bool.not_eq_true'] at ends
      have told : (tellEnd ctx).Makes fun _ calls => ∀ c ∈ calls, ∃ s a, c = .endFeature s a :=
        runHooks_makes .endFeature (fun _ _ _ _ ran => ran) fun s hs => (hooks s hs).endFeature
      exact told.imp fun _ calls each c hc => ⟨each c hc, ends.2⟩
    · exact .pure (List.forall_mem_nil _)
  refine ended.bind fun hookFailure told hTold => ?_
  refine Makes.readWorld.bind fun world none hNone => .pure ?_
  subst hNone
  constructor
  · intro c hc
    simp only [List.append_nil, List.mem_append, List.mem_singleton] at hc
    rcases hc with rfl | hc | hc
    · exact .inl rfl
    · exact .inr ((hSteps.kinds c hc).imp id .inl)
    · obtain ⟨⟨s, a, rfl⟩, open_⟩ := hTold c hc
      exact .inr (.inr (.inr ⟨rfl, open_⟩))
  · have nothing : told.filterMap Call.stepResult? = [] :=
      Call.filterMap_stepResult?_eq_nil fun c hc => by
        obtain ⟨⟨s, a, rfl⟩, -⟩ := hTold c hc
        exact CallKind.noConfusion
    simp only [List.append_nil, List.filterMap_append, nothing, hSteps.results]
    rfl

/-- Executing features calls steps, of which the results are reported, and hooks. -/
theorem executeFeatures_makes (features : List (ResolvedFeature σ)) :
    (executeFeatures ctx features).Makes fun executed calls =>
      AreFeatureCalls ctx.config.stay (executed.features.flatMap (·.steps)) calls := by
  induction features with
  | nil =>
    rw [executeFeatures]
    exact .pure areFeatureCalls_nil
  | cons feature rest ih =>
    rw [executeFeatures]
    refine (executeFeature_makes hooks feature).bind fun run calls made => ?_
    cases run.hookFailure with
    | some failure =>
      refine .pure ?_
      rw [List.append_nil, List.flatMap_singleton]
      exact made
    | none =>
      refine ih.bind fun more calls' made' => .pure ?_
      rw [List.append_nil]
      exact made.append made'

end Execution

/-! ## Building -/

/-- The build handler of a definition returns, and so does the work that it leaves. -/
def StepDefinition.BuildReturns (d : StepDefinition σ) : Prop :=
  ∀ handler, d.build = some handler → ∀ context s, ∃ answer s',
    (handler context).start s = (.ok answer, s') ∧
      ∀ work, answer = .ok (some work) → ∀ workspace, (work workspace).Returns

/-- The work that is left returns. -/
def Finalizers.Return (q : Finalizers σ) : Prop := ∀ t ∈ q.tasks, (t.2 t.1).Returns

theorem Finalizers.tasks_register (q : Finalizers σ) (workspace : String) (work : Finalizer σ) :
    (q.register workspace work).tasks.Perm (q.tasks ++ [(workspace, work)]) := by
  obtain ⟨scopes⟩ := q
  show (Finalizers.mk (addTo workspace work scopes)).tasks.Perm
    ((Finalizers.mk scopes).tasks ++ [(workspace, work)])
  unfold tasks
  induction scopes with
  | nil => exact .refl _
  | cons scope rest ih =>
    obtain ⟨w, fs⟩ := scope
    rw [addTo]
    split
    · next same =>
      subst same
      simp only [List.flatMap_cons, List.map_append, List.append_assoc]
      exact List.perm_append_comm.append_left _
    · simp only [List.flatMap_cons, List.append_assoc]
      exact ih.append_left _

/-- A feature with the handler that builds it. -/
def ResolvedFeature.handler? (feature : ResolvedFeature σ) :
    Option (ResolvedFeature σ × BuildHandler σ) :=
  (buildable? feature).map fun (_, handler) => (feature, handler)

/-- What is called for building features: the world is reset, and the build handlers of the features
are called in turn, up to one that fails, and given the directories of the features. The work that
they leave is added to the work there. -/
structure AreBuildCalls (features : List (ResolvedFeature σ)) (passed : Bool)
    (q q' : Finalizers σ) (calls : List (Call σ)) : Prop where
  kinds : ∀ c ∈ calls, c = .reset ∨ ∃ feature handler context answer,
    c = .build feature handler context answer ∧ context.workspace = FilePath.directory feature.path
  handlers : calls.filterMap Call.built? <+: features.filterMap (·.handler?)
  all : passed = true → calls.filterMap Call.built? = features.filterMap (·.handler?)
  kept : q'.tasks.Perm (q.tasks ++ calls.filterMap Call.left?)
  returns : q'.Return

theorem areBuildCalls_nil {q : Finalizers σ} (hq : q.Return) : AreBuildCalls [] true q q [] :=
  ⟨List.forall_mem_nil _, List.prefix_rfl, fun _ => rfl, .of_eq (List.append_nil _).symm, hq⟩

theorem AreBuildCalls.append {feature : ResolvedFeature σ} {rest : List (ResolvedFeature σ)}
    {passed : Bool} {q mid q' : Finalizers σ} {calls calls' : List (Call σ)}
    (h : AreBuildCalls [feature] true q mid calls) (h' : AreBuildCalls rest passed mid q' calls') :
    AreBuildCalls (feature :: rest) passed q q' (calls ++ calls') := by
  have handlers : (feature :: rest).filterMap (·.handler?) =
      calls.filterMap Call.built? ++ rest.filterMap (·.handler?) := by
    rw [h.all rfl, ← List.filterMap_append, List.singleton_append]
  refine ⟨List.forall_mem_append.2 ⟨h.kinds, h'.kinds⟩, ?_, fun pass => ?_, ?_, h'.returns⟩
  · rw [handlers, List.filterMap_append]
    exact (List.prefix_append_right_inj _).2 h'.handlers
  · rw [handlers, List.filterMap_append, h'.all pass]
  · rw [List.filterMap_append, ← List.append_assoc]
    exact h'.kept.trans (h.kept.append_right _)

/-- Where a feature fails, those after it are not built. -/
theorem AreBuildCalls.stop {feature : ResolvedFeature σ} {passed : Bool} {q q' : Finalizers σ}
    {calls : List (Call σ)} (h : AreBuildCalls [feature] passed q q' calls)
    (rest : List (ResolvedFeature σ)) : AreBuildCalls (feature :: rest) false q q' calls where
  kinds := h.kinds
  handlers := by
    refine h.handlers.trans ?_
    rw [← List.singleton_append (l := rest), List.filterMap_append]
    exact List.prefix_append _ _
  all no := by cases no
  kept := h.kept
  returns := h.returns

/-- The build handlers of the steps of a feature return. -/
def ResolvedFeature.BuildReturns (feature : ResolvedFeature σ) : Prop :=
  ∀ step ∈ feature.steps, ∀ d, step.head.action.definition? = some d → d.BuildReturns

theorem exists_of_buildable? {feature : ResolvedFeature σ} {head : StepHead σ}
    {handler : BuildHandler σ} (h : buildable? feature = some (head, handler)) :
    ∃ step ∈ feature.steps, step.head = head ∧
      ∃ d, head.action.definition? = some d ∧ d.build = some handler := by
  obtain ⟨step, hs, found⟩ := List.exists_of_findSome?_eq_some h
  obtain ⟨handler, build, same⟩ := Option.map_eq_some_iff.1 found
  obtain ⟨d, hd, build⟩ := Option.bind_eq_some_iff.1 build
  cases same
  exact ⟨step, hs, rfl, d, hd, build⟩

/-- Building a feature resets the world and calls its build handler, or does nothing. -/
theorem buildFeature_makes {domains : DomainRegistry} {config : RunConfig}
    {feature : ResolvedFeature σ} (h : feature.BuildReturns) {q : Finalizers σ} (hq : q.Return) :
    (buildFeature domains config feature q).Makes fun answer calls =>
      AreBuildCalls [feature] answer.isOk q (answer.toOption.getD q) calls := by
  have unchanged : q.tasks.Perm (q.tasks ++ []) := .of_eq (List.append_nil _).symm
  unfold buildFeature
  cases found : buildable? feature with
  | none =>
    have nothing : [feature].filterMap (·.handler?) = [] := by
      simp [ResolvedFeature.handler?, found]
    exact .pure ⟨List.forall_mem_nil _, List.nil_prefix, fun _ => nothing.symm, unchanged, hq⟩
  | some build =>
    obtain ⟨head, handler⟩ := build
    have only : [feature].filterMap (·.handler?) = [(feature, handler)] := by
      simp [ResolvedFeature.handler?, found]
    obtain ⟨step, hs, rfl, d, hd, hbuild⟩ := exists_of_buildable? found
    refine Makes.reset.bind fun _ calls made => Makes.readWorld.bind fun world none hNone => ?_
    subst made hNone
    cases populate world domains config.env step.head.action.captures with
    | error cause =>
      refine .pure ⟨List.forall_mem_singleton.2 (.inl rfl), List.nil_prefix, fun no => ?_,
        unchanged, hq⟩
      cases no
    | ok vars =>
      have called : (handler ⟨step.head.view, vars, FilePath.directory feature.path⟩).Makes
          fun answer calls =>
            calls = [.build feature handler
              ⟨step.head.view, vars, FilePath.directory feature.path⟩ answer] ∧
            ∀ work, answer = .ok (some work) → ∀ workspace, (work workspace).Returns := by
        intro s
        obtain ⟨answer, s', ran, left⟩ := h step hs d hd handler hbuild _ s
        exact ⟨answer, s', [.build feature handler _ answer], ran, .single ran, rfl, left⟩
      refine called.bind fun answer calls made => ?_
      obtain ⟨rfl, left⟩ := made
      have kinds (c : Call σ) (hc : c ∈ [.reset] ++ ([] ++ ([.build feature handler
          ⟨step.head.view, vars, FilePath.directory feature.path⟩ answer] ++ []))) :
          c = .reset ∨ ∃ feature handler context answer,
            c = .build feature handler context answer ∧
              context.workspace = FilePath.directory feature.path := by
        simp only [List.nil_append, List.append_nil, List.mem_append, List.mem_singleton] at hc
        rcases hc with rfl | rfl
        · exact .inl rfl
        · exact .inr ⟨_, _, _, _, rfl, rfl⟩
      cases answer with
      | error cause =>
        exact .pure ⟨kinds, only ▸ List.prefix_rfl, fun _ => only.symm, unchanged, hq⟩
      | ok work =>
        cases work with
        | none => exact .pure ⟨kinds, only ▸ List.prefix_rfl, fun _ => only.symm, unchanged, hq⟩
        | some work =>
          have kept := q.tasks_register (FilePath.directory feature.path) work
          refine .pure ⟨kinds, only ▸ List.prefix_rfl, fun _ => only.symm, kept, fun t ht => ?_⟩
          rcases List.mem_append.1 (kept.mem_iff.1 ht) with ht | ht
          · exact hq t ht
          · obtain rfl := List.mem_singleton.1 ht
            exact left work rfl _

/-- Building features calls build handlers, and what they leave is kept, whatever fails. -/
theorem buildFeatures_makes {domains : DomainRegistry} {config : RunConfig}
    {features : List (ResolvedFeature σ)} (h : ∀ f ∈ features, f.BuildReturns) {q : Finalizers σ}
    (hq : q.Return) : (buildFeatures domains config features q).Makes fun answer calls =>
      AreBuildCalls features answer.1.isNone q answer.2 calls := by
  induction features generalizing q with
  | nil => exact .pure (areBuildCalls_nil hq)
  | cons feature rest ih =>
    rw [buildFeatures]
    refine (buildFeature_makes (h feature List.mem_cons_self) hq).bind fun answer calls made => ?_
    cases answer with
    | error e =>
      refine .pure ?_
      rw [List.append_nil]
      exact made.stop rest
    | ok mid =>
      refine (ih (fun f hf => h f (List.mem_cons_of_mem feature hf)) made.returns).imp ?_
      exact fun answer more made' => made.append made'

/-! ## The end of a run -/

section FirstFailure

variable {α ε : Type} {call : α → Effect (Session σ) (Except Fault Unit)} {error : α → Fault → ε}

/-- Calls in turn, whatever fails; the first failure, of these or before them. -/
def callAll (call : α → Effect (Session σ) (Except Fault Unit)) (error : α → Fault → ε) :
    Option ε → List α → Effect (Session σ) (Option ε)
  | failure, [] => return failure
  | failure, a :: rest => do
    match ← call a with
    | .ok () => callAll call error failure rest
    | .error cause => callAll call error (failure.or (some (error a cause))) rest

/-- Each is called once, in order, and the first failure is kept. The calls are known by their kind,
by what is called, and by their failures. -/
theorem callAll_makes {kind : CallKind} (as : α → Except Fault Unit → Call σ)
    (called? : Call σ → Option α) (failure? : Call σ → Option ε)
    (takes : ∀ a s answer s', (call a).start s = (.ok answer, s') → (as a answer).Takes s s')
    (ofKind : ∀ a answer, (as a answer).kind = kind)
    (called : ∀ a answer, called? (as a answer) = a)
    (passes : ∀ a, failure? (as a (.ok ())) = none)
    (fails : ∀ a cause, failure? (as a (.error cause)) = error a cause) {xs : List α}
    (returns : ∀ a ∈ xs, (call a).Returns) (failure : Option ε) :
    (callAll call error failure xs).Makes fun answer calls => (∀ c ∈ calls, c.kind = kind) ∧
      calls.filterMap called? = xs ∧ answer = failure.or (calls.findSome? failure?) := by
  induction xs generalizing failure with
  | nil =>
    rw [callAll]
    exact .pure ⟨List.forall_mem_nil _, rfl, (Option.or_none).symm⟩
  | cons a rest ih =>
    have later := ih fun b hb => returns b (List.mem_cons_of_mem a hb)
    rw [callAll]
    refine (Makes.call (as a) (returns a List.mem_cons_self) (takes a)).bind
      fun answer calls made => ?_
    subst made
    have all (rest : List α) (more : List (Call σ)) (h : more.filterMap called? = rest) :
        (as a answer :: more).filterMap called? = a :: rest := by
      rw [List.filterMap_cons, called, h]
    cases answer with
    | ok _ =>
      refine (later failure).imp fun answer more made => ?_
      refine ⟨List.forall_mem_cons.2 ⟨ofKind _ _, made.1⟩, all rest more made.2.1, ?_⟩
      rw [made.2.2, List.singleton_append, List.findSome?_cons, passes]
    | error cause =>
      refine (later _).imp fun answer more made => ?_
      refine ⟨List.forall_mem_cons.2 ⟨ofKind _ _, made.1⟩, all rest more made.2.1, ?_⟩
      rw [made.2.2, List.singleton_append, List.findSome?_cons, fails, Option.or_assoc,
        Option.some_or]

end FirstFailure

theorem runTasks_eq (failure : Option BuildError) (tasks : List (String × Finalizer σ)) :
    Finalizers.runTasks failure tasks =
      callAll (fun t => t.2 t.1) (fun t => BuildError.finalizer t.1) failure tasks := by
  induction tasks generalizing failure with
  | nil => rfl
  | cons task rest ih =>
    rw [callAll, Finalizers.runTasks]
    refine bind_congr fun answer => ?_
    cases answer <;> exact ih _

/-- Doing work calls it, in turn, and keeps the first failure. -/
theorem runTasks_makes {tasks : List (String × Finalizer σ)} (h : ∀ t ∈ tasks, (t.2 t.1).Returns)
    (failure : Option BuildError) : (Finalizers.runTasks failure tasks).Makes fun answer calls =>
      (∀ c ∈ calls, c.kind = .finalizer) ∧ calls.filterMap Call.done? = tasks ∧
        answer = failure.or (calls.findSome? Call.buildError?) := by
  rw [runTasks_eq]
  refine callAll_makes (fun t answer => .finalizer t.1 t.2 answer) Call.done? Call.buildError? ?_
    (fun _ _ => rfl) (fun _ _ => rfl) (fun _ => rfl) (fun _ _ => rfl) h failure
  exact fun _ _ _ _ ran => ran

theorem closeAll_eq (failure : Option String) (steppers : List (Stepper σ)) :
    Run.closeAll failure steppers = callAll (·.close) closeMessage failure steppers := by
  induction steppers generalizing failure with
  | nil => rfl
  | cons s rest ih =>
    rw [callAll, Run.closeAll]
    refine bind_congr fun answer => ?_
    cases answer <;> exact ih _

/-- Closing steppers calls each in turn and keeps the first failure. -/
theorem closeAll_makes {steppers : List (Stepper σ)} (h : ∀ s ∈ steppers, s.close.Returns)
    (failure : Option String) : (Run.closeAll failure steppers).Makes fun answer calls =>
      (∀ c ∈ calls, c.kind = .close) ∧ calls.filterMap Call.closed? = steppers ∧
        answer = failure.or (calls.findSome? Call.closeMessage?) := by
  rw [closeAll_eq]
  exact callAll_makes .close Call.closed? Call.closeMessage? (fun _ _ _ _ ran => ran)
    (fun _ _ => rfl) (fun _ _ => rfl) (fun _ => rfl) (fun _ _ => rfl) h failure

/-- What is called at the end of a run: all work that is left, and then the close hooks of all
steppers unless the run stays open; and the first failure. -/
structure AreEndCalls (r : Run σ) (tasks : List (String × Finalizer σ))
    (failure : Option StageFailure) (finalizing closing : List (Call σ)) : Prop where
  finalizers : ∀ c ∈ finalizing, c.kind = .finalizer
  done : finalizing.filterMap Call.done? = tasks
  closes : ∀ c ∈ closing, c.kind = .close
  closed : closing.filterMap Call.closed? = if r.config.stay then [] else r.steppers
  failure : failure = (((finalizing.findSome? Call.buildError?).map (·.message)).or
    (closing.findSome? Call.closeMessage?)).map (⟨.teardown, ·⟩)

/-- The end of a run does all work that is left and closes the steppers, whatever fails. -/
theorem Run.teardown_makes {r : Run σ} (h : ∀ s ∈ r.steppers, s.close.Returns) {q : Finalizers σ}
    (hq : q.Return) : (r.teardown q).Makes fun failure calls => ∃ finalizing closing,
      calls = finalizing ++ closing ∧ AreEndCalls r q.tasks failure finalizing closing := by
  unfold Run.teardown
  refine (runTasks_makes hq none).bind fun error finalizing made => ?_
  obtain ⟨finalizers, done, rfl⟩ := made
  rw [Option.none_or]
  cases stay : r.config.stay with
  | true =>
    refine .pure ⟨finalizing, [], rfl, finalizers, done, List.forall_mem_nil _, ?_, ?_⟩
    · rw [stay]
      rfl
    · rw [List.findSome?_nil, Option.or_none]
  | false =>
    refine (closeAll_makes h none).bind fun message closing made => ?_
    obtain ⟨closes, closed, rfl⟩ := made
    rw [Option.none_or]
    refine .pure ⟨finalizing, closing, by rw [List.append_nil], finalizers, done, closes, ?_, rfl⟩
    rw [stay]
    exact closed

end PlainSteps
