import PlainSteps.Builtin.Variables
import PlainSteps.Proofs.Run.Calls
import PlainSteps.Proofs.Step.Tree
import PlainSteps.Proofs.World.Changes

/-!
# What features see of each other

Where the actions and hooks keep nothing but the world, a feature sees one thing of those before it
and of the building of features. It is the name of the context of the shared variables, which stays
when the world is reset, and is another one after an action has put another context in its place.
Where no feature does that, each gives what it gives when it runs alone in a new world.

* `Effect.ActsOnWorld`: a computation changes the world and sees nothing else.
* `executeStep_actsOnWorld`: a step whose actions do that does it as well.
* `buildFeatures_changesWorld`: building changes the world.
* `executeFeature_fresh`: a feature gives what it gives in a world that is new but for that name.
* `Builtin.actsOnWorld`: the steps that come with the library keep nothing but the world.
* `GiveInTurn`: features give what they give alone, each under the name that is left to it.
* `executeFeatures_inTurn`: a run gives what its features give in turn.
* `not_executeFeatures_alone`: a feature that passes alone and fails after another.

Proof-only: no module that runs imports this one.
-/

namespace PlainSteps

variable {σ : Type}

/-! ## Computations on the world -/

namespace Effect

variable {α β : Type}

/-- What a computation makes of the world can be made of it. -/
def ChangesWorld (x : Effect (Session σ) α) : Prop :=
  ∀ s : Session σ, s.world.Changes (x.start s).2.world

/-- A computation changes the world, and does not see what the steppers keep for themselves. -/
structure ActsOnWorld (x : Effect (Session σ) α) : Prop where
  changes : x.ChangesWorld
  blind (w : World) (store store' : σ) : (x.start ⟨w, store⟩).1 = (x.start ⟨w, store'⟩).1 ∧
    (x.start ⟨w, store⟩).2.world = (x.start ⟨w, store'⟩).2.world

theorem ChangesWorld.bind {x : Effect (Session σ) α} {f : α → Effect (Session σ) β}
    (hx : x.ChangesWorld) (hf : ∀ a, (f a).ChangesWorld) : (x >>= f).ChangesWorld := by
  intro s
  have first := hx s
  rw [start_bind]
  split
  · next a mid ran =>
    rw [ran] at first
    exact first.trans (hf a mid)
  · next crash mid ran =>
    rw [ran] at first
    exact first

namespace ActsOnWorld

theorem pure (a : α) : (Pure.pure a : Effect (Session σ) α).ActsOnWorld where
  changes _ := .refl
  blind _ _ _ := ⟨rfl, rfl⟩

theorem readWorld : (Session.readWorld (σ := σ)).ActsOnWorld where
  changes _ := .refl
  blind _ _ _ := ⟨rfl, rfl⟩

theorem changeWorld {change : World → World} (h : ∀ w : World, w.Changes (change w)) :
    (Session.changeWorld (σ := σ) change).ActsOnWorld where
  changes s := h s.world
  blind _ _ _ := ⟨rfl, rfl⟩

theorem attempt {x : Effect (Session σ) α} (h : x.ActsOnWorld) : x.attempt.ActsOnWorld where
  changes := h.changes
  blind w store store' := (h.blind w store store').imp (congrArg Except.ok) id

theorem bind {x : Effect (Session σ) α} {f : α → Effect (Session σ) β} (hx : x.ActsOnWorld)
    (hf : ∀ a, (f a).ActsOnWorld) : (x >>= f).ActsOnWorld where
  changes := hx.changes.bind fun a => (hf a).changes
  blind w store store' := by
    obtain ⟨answer, world⟩ := hx.blind w store store'
    rw [start_bind, start_bind]
    cases ran : x.start ⟨w, store⟩ with
    | mk a mid =>
    cases ran' : x.start ⟨w, store'⟩ with
    | mk a' mid' =>
    obtain ⟨v, kept⟩ := mid
    obtain ⟨v', kept'⟩ := mid'
    rw [ran, ran'] at answer world
    obtain rfl : a = a' := answer
    obtain rfl : v = v' := world
    cases a with
    | ok a => exact (hf a).blind v kept kept'
    | error crash => exact ⟨rfl, rfl⟩

/-- From worlds that are equal, the answers are, and the worlds afterwards. -/
theorem congr {x : Effect (Session σ) α} (h : x.ActsOnWorld) {s s' : Session σ}
    (same : s.world = s'.world) :
    (x.start s).1 = (x.start s').1 ∧ (x.start s).2.world = (x.start s').2.world := by
  obtain ⟨w, store⟩ := s
  obtain ⟨w', store'⟩ := s'
  obtain rfl : w = w' := same
  exact h.blind w store store'

end ActsOnWorld

end Effect

open Effect (ActsOnWorld)

/-! ## Steppers that keep nothing but the world -/

/-- The action of a definition acts on the world, where statements do. -/
def StepDefinition.ActsOnWorld (d : StepDefinition σ) : Prop :=
  ∀ c : ActionContext σ, (∀ label, (c.runStatement label).ActsOnWorld) → (d.action c).ActsOnWorld

/-- The build handler of a definition changes the world. -/
def StepDefinition.BuildsInWorld (d : StepDefinition σ) : Prop :=
  ∀ handler, d.build = some handler → ∀ c : BuildContext, (handler c).ChangesWorld

theorem StepDefinition.BuildsInWorld.of_none {d : StepDefinition σ} (h : d.build = none) :
    d.BuildsInWorld := by
  intro handler hb
  cases h.symm.trans hb

/-- The hooks of a stepper act on the world. -/
structure Stepper.ActsOnWorld (s : Stepper σ) : Prop where
  onFailure (result : StepResult) : (s.onFailure result).ActsOnWorld
  endFeature : s.endFeature.ActsOnWorld

/-! ## Steps -/

/-- All definitions that a step and those below it resolve to act on the world. -/
def FeatureStep.ActsOnWorld (step : FeatureStep σ) : Prop :=
  ∀ t ∈ step.all, ∀ d, t.head.action.definition? = some d → d.ActsOnWorld

theorem FeatureStep.ActsOnWorld.child {step c : FeatureStep σ} (h : step.ActsOnWorld)
    (hc : c ∈ step.children) : c.ActsOnWorld :=
  fun t ht => h t (FeatureStep.mem_all_iff.2 (.inr ⟨c, hc, ht⟩))

theorem FeatureStep.actsOnWorld_of_plain {head : StepHead σ}
    (h : ∀ d, head.action.definition? = some d → d.ActsOnWorld) :
    (FeatureStep.mk head []).ActsOnWorld := by
  intro t ht
  rcases FeatureStep.mem_all_iff.1 ht with rfl | ⟨c, hc, -⟩
  · exact h
  · exact nomatch hc

theorem executeUntilFailure_actsOnWorld {ctx : RunContext σ} {steps : List (FeatureStep σ)}
    (h : ∀ step ∈ steps, (executeStep ctx step).ActsOnWorld) :
    (executeUntilFailure ctx steps).ActsOnWorld := by
  induction steps with
  | nil =>
    rw [executeUntilFailure]
    exact .pure []
  | cons step rest ih =>
    rw [executeUntilFailure]
    have later := ih fun s hs => h s (List.mem_cons_of_mem step hs)
    refine (h step List.mem_cons_self).bind fun result => ?_
    split
    · exact later.bind fun _ => .pure _
    · exact .pure _

theorem executeStatement_actsOnWorld {ctx : RunContext σ} {nested : List (NestedStatement σ)}
    (h : ∀ step ∈ nested.flatMap (·.steps), (executeStep ctx step).ActsOnWorld) (label : String) :
    (executeStatement ctx label nested).ActsOnWorld := by
  induction nested with
  | nil =>
    rw [executeStatement]
    exact .pure []
  | cons statement rest ih =>
    obtain ⟨l, steps⟩ := statement
    rw [List.flatMap_cons] at h
    rw [executeStatement]
    split
    · exact executeUntilFailure_actsOnWorld fun s hs => h s (List.mem_append_left _ hs)
    · exact ih fun s hs => h s (List.mem_append_right _ hs)

theorem invoke_actsOnWorld {ctx : RunContext σ} {head : StepHead σ}
    {runStatement : String → Effect (Session σ) (List StepResult)}
    (acts : ∀ d, head.action.definition? = some d → d.ActsOnWorld)
    (h : ∀ label, (runStatement label).ActsOnWorld) :
    (invoke ctx head runStatement).ActsOnWorld := by
  unfold invoke
  cases kind : head.action.kind with
  | unresolved message => exact .pure _
  | defined d =>
    refine .bind .readWorld fun world => ?_
    have ofAction : d.ActsOnWorld := acts d (by rw [StepAction.definition?, kind])
    cases populate world ctx.domains ctx.config.env head.action.captures with
    | error e => exact .pure _
    | ok vars => exact (ofAction _ h).attempt.bind fun _ => .pure _

/-- Running a step acts on the world, where all actions do. -/
theorem executeStep_actsOnWorld {ctx : RunContext σ} {step : FeatureStep σ}
    (h : step.ActsOnWorld) : (executeStep ctx step).ActsOnWorld := by
  induction step using FeatureStep.induction with
  | step s ih =>
    have statements (label : String) : (executeStatement ctx label s.nested).ActsOnWorld :=
      executeStatement_actsOnWorld (fun c hc => ih c hc (h.child hc)) label
    have own := h s (FeatureStep.self_mem_all s)
    obtain ⟨head, nested⟩ := s
    rw [executeStep]
    exact (invoke_actsOnWorld own statements).bind fun _ => .pure _

/-! ## Features -/

/-- Nothing but the world is kept by the steps of features and by the hooks of steppers. -/
structure KeepsWorldOnly (steppers : List (Stepper σ)) (features : List (ResolvedFeature σ)) :
    Prop where
  hooks (s : Stepper σ) (hs : s ∈ steppers) : s.ActsOnWorld
  steps (f : ResolvedFeature σ) (hf : f ∈ features) (step : FeatureStep σ) (hs : step ∈ f.steps) :
    step.ActsOnWorld
  builds (f : ResolvedFeature σ) (hf : f ∈ features) (step : FeatureStep σ) (hs : step ∈ f.steps)
    (d : StepDefinition σ) (hd : step.head.action.definition? = some d) : d.BuildsInWorld

/-- Features of one line each, without statements. -/
theorem KeepsWorldOnly.of_plain {steppers : List (Stepper σ)} {features : List (ResolvedFeature σ)}
    (hooks : ∀ s ∈ steppers, s.ActsOnWorld)
    (plain : ∀ f ∈ features, ∃ head : StepHead σ, f.steps = [.mk head []] ∧
      ∀ d, head.action.definition? = some d → d.ActsOnWorld ∧ d.BuildsInWorld) :
    KeepsWorldOnly steppers features where
  hooks := hooks
  steps f hf step hs := by
    obtain ⟨head, only, acts⟩ := plain f hf
    rw [only] at hs
    obtain rfl := List.mem_singleton.1 hs
    exact FeatureStep.actsOnWorld_of_plain fun d hd => (acts d hd).1
  builds f hf step hs d hd := by
    obtain ⟨head, only, acts⟩ := plain f hf
    rw [only] at hs
    obtain rfl := List.mem_singleton.1 hs
    exact (acts d hd).2

theorem KeepsWorldOnly.tail {steppers : List (Stepper σ)} {feature : ResolvedFeature σ}
    {rest : List (ResolvedFeature σ)} (h : KeepsWorldOnly steppers (feature :: rest)) :
    KeepsWorldOnly steppers rest where
  hooks := h.hooks
  steps f hf := h.steps f (List.mem_cons_of_mem feature hf)
  builds f hf := h.builds f (List.mem_cons_of_mem feature hf)

theorem runHooks_actsOnWorld {hook : String}
    {call : Stepper σ → Effect (Session σ) (Except Fault Unit)} {steppers : List (Stepper σ)}
    (h : ∀ s ∈ steppers, (call s).ActsOnWorld) : (runHooks hook call steppers).ActsOnWorld := by
  induction steppers with
  | nil =>
    rw [runHooks]
    exact .pure none
  | cons s rest ih =>
    rw [runHooks]
    refine (h s List.mem_cons_self).bind fun answer => ?_
    cases answer with
    | ok _ => exact ih fun t ht => h t (List.mem_cons_of_mem s ht)
    | error cause => exact .pure _

section Run

variable {ctx : RunContext σ} (hooks : ∀ s ∈ ctx.steppers, s.ActsOnWorld)

include hooks

theorem executeSteps_actsOnWorld {steps : List (FeatureStep σ)}
    (h : ∀ step ∈ steps, step.ActsOnWorld) : (executeSteps ctx steps).ActsOnWorld := by
  induction steps with
  | nil =>
    rw [executeSteps]
    exact .pure _
  | cons step rest ih =>
    have later := ih fun s hs => h s (List.mem_cons_of_mem step hs)
    rw [executeSteps]
    refine (executeStep_actsOnWorld (h step List.mem_cons_self)).bind fun result => ?_
    split
    · exact later.bind fun _ => .pure _
    · have told : (tellFailure ctx result).ActsOnWorld :=
        runHooks_actsOnWorld fun s hs => (hooks s hs).onFailure result
      refine told.bind fun hookFailure => ?_
      cases hookFailure with
      | some failure => exact .pure _
      | none =>
        cases result.failureScore.filter fun _ => ctx.config.continueOnScore with
        | none => exact .pure _
        | some score => exact later.bind fun _ => .pure _

/-- The execution of a feature in the world as it is. -/
def executeHere (ctx : RunContext σ) (feature : ResolvedFeature σ) :
    Effect (Session σ) ExecutedFeature := do
  let progress ← executeSteps ctx feature.steps
  let hookFailure ← endHook ctx progress
  let world ← Session.readWorld
  return ⟨⟨feature.path, world.featureTitle, progress.ok && hookFailure.isNone, progress.steps⟩,
    progress.scored, hookFailure⟩

omit hooks in
theorem start_executeFeature (feature : ResolvedFeature σ) (s : Session σ) :
    (executeFeature ctx feature).start s =
      (executeHere ctx feature).start { s with world := s.world.resetFeature } := by
  rw [executeFeature_eq]
  rfl

theorem executeHere_actsOnWorld {feature : ResolvedFeature σ}
    (h : ∀ step ∈ feature.steps, step.ActsOnWorld) : (executeHere ctx feature).ActsOnWorld := by
  refine (executeSteps_actsOnWorld hooks h).bind fun progress => ?_
  have told : (endHook ctx progress).ActsOnWorld := by
    rw [endHook]
    split
    · exact runHooks_actsOnWorld fun s hs => (hooks s hs).endFeature
    · exact .pure _
  exact told.bind fun _ => .bind .readWorld fun _ => .pure _

variable {tag : String}

/-- Whatever has been changed before, a feature gives what it gives in a world that is new but for
the name of the context of the shared variables, and leaves the same world. -/
theorem executeFeature_fresh {feature : ResolvedFeature σ}
    (h : ∀ step ∈ feature.steps, step.ActsOnWorld) {s : Session σ}
    (hs : (World.new tag).Changes s.world) (store : σ) :
    ((executeFeature ctx feature).start s).1 =
        ((executeFeature ctx feature).start ⟨.named tag s.world.shared.name, store⟩).1 ∧
      ((executeFeature ctx feature).start s).2.world =
        ((executeFeature ctx feature).start ⟨.named tag s.world.shared.name, store⟩).2.world := by
  rw [start_executeFeature, start_executeFeature]
  refine (executeHere_actsOnWorld hooks h).congr ?_
  exact hs.resetFeature_eq

theorem executeFeature_actsOnWorld {feature : ResolvedFeature σ}
    (h : ∀ step ∈ feature.steps, step.ActsOnWorld) : (executeFeature ctx feature).ActsOnWorld := by
  rw [executeFeature_eq]
  exact .bind (.changeWorld fun _ => .reset .refl) fun _ => executeHere_actsOnWorld hooks h

end Run

/-! ## Building -/

theorem buildFeature_changesWorld {domains : DomainRegistry} {config : RunConfig}
    {feature : ResolvedFeature σ} (h : ∀ step ∈ feature.steps, ∀ d,
      step.head.action.definition? = some d → d.BuildsInWorld) (q : Finalizers σ) :
    (buildFeature domains config feature q).ChangesWorld := by
  unfold buildFeature
  cases found : buildable? feature with
  | none => exact (ActsOnWorld.pure _).changes
  | some build =>
    obtain ⟨head, handler⟩ := build
    obtain ⟨step, hs, rfl, d, hd, hbuild⟩ := exists_of_buildable? found
    have reset : (Session.changeWorld (σ := σ) World.resetFeature).ActsOnWorld :=
      .changeWorld fun _ => .reset .refl
    refine reset.changes.bind fun _ => ActsOnWorld.readWorld.changes.bind fun world => ?_
    cases populate world domains config.env step.head.action.captures with
    | error cause => exact (ActsOnWorld.pure _).changes
    | ok vars =>
      refine (h step hs d hd handler hbuild _).bind fun answer => ?_
      cases answer with
      | error cause => exact (ActsOnWorld.pure _).changes
      | ok left => cases left <;> exact (ActsOnWorld.pure _).changes

/-- Building features changes the world. -/
theorem buildFeatures_changesWorld {domains : DomainRegistry} {config : RunConfig}
    {features : List (ResolvedFeature σ)} (h : ∀ f ∈ features, ∀ step ∈ f.steps, ∀ d,
      step.head.action.definition? = some d → d.BuildsInWorld) (q : Finalizers σ) :
    (buildFeatures domains config features q).ChangesWorld := by
  induction features generalizing q with
  | nil => exact (ActsOnWorld.pure _).changes
  | cons feature rest ih =>
    rw [buildFeatures]
    refine (buildFeature_changesWorld (h feature List.mem_cons_self) q).bind fun answer => ?_
    cases answer with
    | error e => exact (ActsOnWorld.pure _).changes
    | ok q => exact ih (fun f hf => h f (List.mem_cons_of_mem feature hf)) q

/-! ## Built-in steps -/

namespace Builtin

theorem featureStep_actsOnWorld : (featureStep (σ := σ)).ActsOnWorld := by
  intro c _
  simp only [featureStep]
  cases c.text? "feature" with
  | none => exact .pure _
  | some title => exact .bind (.changeWorld fun w => .featureTitle .refl _) fun _ => .pure _

theorem scenarioStep_actsOnWorld : (scenarioStep (σ := σ)).ActsOnWorld := by
  intro c _
  simp only [scenarioStep]
  cases c.text? "scenario" with
  | none => exact .pure _
  | some title => exact .bind (.changeWorld fun w => .scenarioTitle .refl _) fun _ => .pure _

theorem notStep_actsOnWorld : (notStep (σ := σ)).ActsOnWorld := by
  intro c statements
  exact (statements "what").bind fun results => .pure _

theorem setVariable_actsOnWorld (key : String) (value : StoredValue) :
    (setVariable (σ := σ) key value).ActsOnWorld :=
  .changeWorld fun w => .set w key value

theorem storeValue_actsOnWorld (c : ActionContext σ) (onlyNew : Bool) :
    (storeValue c onlyNew).ActsOnWorld := by
  unfold storeValue
  split
  · next key value _ _ =>
    refine .bind .readWorld fun w => ?_
    split
    · exact .pure _
    · exact (setVariable_actsOnWorld key value).bind fun _ => .pure _
  · exact .pure _

theorem storeAs_actsOnWorld (c : ActionContext σ) : (storeAs c).ActsOnWorld := by
  unfold storeAs
  split
  · next key domain raw _ _ _ =>
    dsimp only
    split
    · exact (setVariable_actsOnWorld key _).bind fun _ => .pure _
    · exact .pure _
  · exact .pure _

theorem isStep_actsOnWorld : (isStep (σ := σ)).ActsOnWorld := by
  intro c _
  simp only [isStep]
  cases variableKey? c with
  | none => exact .pure _
  | some key => exact .bind .readWorld fun _ => .pure _

theorem isSetStep_actsOnWorld : (isSetStep (σ := σ)).ActsOnWorld := by
  intro c _
  simp only [isSetStep]
  refine .bind .readWorld fun w => ?_
  split <;> exact .pure _

theorem showStep_actsOnWorld : (showStep (σ := σ)).ActsOnWorld := by
  intro c _
  simp only [showStep]
  cases variableKey? c with
  | none => exact .pure _
  | some key => exact .bind .readWorld fun _ => .pure _

/-- The steps and hooks that come with the library keep nothing but the world. -/
theorem actsOnWorld {s : Stepper σ} (h : s ∈ steppers) :
    s.ActsOnWorld ∧ ∀ d ∈ s.steps, d.ActsOnWorld ∧ d.BuildsInWorld := by
  rcases List.mem_cons.1 h with rfl | h
  · refine ⟨⟨fun _ => .pure _, .pure _⟩, ?_⟩
    simp only [structureStepper, List.forall_mem_cons]
    refine ⟨⟨featureStep_actsOnWorld, ?_⟩, ⟨scenarioStep_actsOnWorld, ?_⟩, ⟨fun _ _ => .pure _, ?_⟩,
      ⟨fun _ _ => .pure _, ?_⟩, ⟨notStep_actsOnWorld, ?_⟩, ⟨fun _ _ => .pure _, ?_⟩,
      List.forall_mem_nil _⟩ <;> exact .of_none rfl
  · obtain rfl := List.mem_singleton.1 h
    refine ⟨⟨fun _ => .pure _, .pure _⟩, ?_⟩
    simp only [variablesStepper, List.forall_mem_cons]
    refine ⟨⟨fun c _ => (storeValue_actsOnWorld c false).bind fun _ => .pure _, ?_⟩,
      ⟨fun c _ => (storeValue_actsOnWorld c true).bind fun _ => .pure _, ?_⟩,
      ⟨fun c _ => (storeAs_actsOnWorld c).bind fun _ => .pure _, ?_⟩, ⟨isStep_actsOnWorld, ?_⟩,
      ⟨isSetStep_actsOnWorld, ?_⟩, ⟨showStep_actsOnWorld, ?_⟩, List.forall_mem_nil _⟩ <;>
        exact .of_none rfl

end Builtin

/-! ## A run -/

/-- What a feature gives where it is the only one, and the world that it leaves. -/
def executeAlone (ctx : RunContext σ) (w : World) (feature : ResolvedFeature σ) (store : σ) :
    Except Crash Executed × World :=
  ((executeFeatures ctx [feature]).start ⟨w, store⟩).map id (·.world)

/-- What the execution of a feature gives, as that of a run. -/
def ExecutedFeature.asRun (f : ExecutedFeature) : Executed := ⟨[f.result], f.scored, f.hookFailure⟩

theorem executeAlone_eq (ctx : RunContext σ) (w : World) (feature : ResolvedFeature σ) (store : σ) :
    executeAlone ctx w feature store =
      ((executeFeature ctx feature).start ⟨w, store⟩).map (·.map ExecutedFeature.asRun)
        (·.world) := by
  rw [executeAlone, executeFeatures, Effect.start_bind]
  cases (executeFeature ctx feature).start ⟨w, store⟩ with
  | mk answer s =>
    cases answer with
    | error crash => rfl
    | ok run =>
      obtain ⟨result, scored, hookFailure⟩ := run
      cases hookFailure with
      | some failure => rfl
      | none =>
        show (Except.ok (Executed.mk [result] (scored ++ []) none), s.world) = _
        rw [List.append_nil]
        rfl

/-- Features give in turn what each gives alone, in a world that is new but for the name of the
context of the shared variables. It is the one that the feature before has left. -/
inductive GiveInTurn (ctx : RunContext σ) (tag : String) :
    String → List (ResolvedFeature σ) → List Executed → Prop
  | nil (name : String) : GiveInTurn ctx tag name [] []
  | cons {name : String} {feature : ResolvedFeature σ} {rest : List (ResolvedFeature σ)}
    {part : Executed} {parts : List Executed} {left : World}
    (alone : ∀ store, executeAlone ctx (.named tag name) feature store = (.ok part, left))
    (one : part.features.length = 1) (later : GiveInTurn ctx tag left.shared.name rest parts) :
    GiveInTurn ctx tag name (feature :: rest) (part :: parts)

/-- A feature leaves the name of the context of the shared variables in a new world. -/
def KeepsSharedName (ctx : RunContext σ) (tag : String) (feature : ResolvedFeature σ) : Prop :=
  ∀ store, (executeAlone ctx (.new tag) feature store).2.shared.name = (World.new tag).shared.name

/-- Features that leave the name give what each gives alone in a new world. -/
theorem GiveInTurn.alone (some_ : σ) {ctx : RunContext σ} {tag name : String}
    {features : List (ResolvedFeature σ)} {parts : List Executed}
    (h : GiveInTurn ctx tag name features parts) (new : name = (World.new tag).shared.name)
    (keep : ∀ feature ∈ features, KeepsSharedName ctx tag feature) :
    List.Forall₂ (fun feature part =>
      ∀ store, (executeAlone ctx (.new tag) feature store).1 = .ok part) features parts := by
  induction h with
  | nil name => exact .nil
  | @cons name feature rest part parts left alone one later ih =>
    subst new
    obtain ⟨kept, keep⟩ := List.forall_mem_cons.1 keep
    refine .cons (fun store => congrArg Prod.fst (alone store)) (ih ?_ keep)
    exact (congrArg (·.2.shared.name) (alone some_)).symm.trans (kept some_)

/-- A run gives what its features give in turn, up to the first in which a hook fails. -/
theorem exists_giveInTurn {ctx : RunContext σ} {features : List (ResolvedFeature σ)}
    (keeps : KeepsWorldOnly ctx.steppers features) {tag : String} {s s' : Session σ}
    (hs : (World.new tag).Changes s.world) {executed : Executed}
    (ran : (executeFeatures ctx features).start s = (.ok executed, s')) :
    ∃ parts : List Executed,
      executed.features = parts.flatMap (·.features) ∧
      executed.scored = parts.flatMap (·.scored) ∧
      (executed.hookFailure = none → parts.length = features.length) ∧
      GiveInTurn ctx tag s.world.shared.name (features.take parts.length) parts := by
  -- all that is known of the world between two features is that changes have made it of a new one
  induction features generalizing s executed s' with
  | nil =>
    obtain ⟨rfl, -⟩ := Effect.eq_of_start_pure ran
    exact ⟨[], rfl, rfl, fun _ => rfl, .nil _⟩
  | cons feature rest ih =>
    have steps := keeps.steps feature List.mem_cons_self
    rw [executeFeatures] at ran
    obtain ⟨run, mid, hRun, ran⟩ := Effect.ok_of_start_bind ran
    have alone (store : σ) : executeAlone ctx (.named tag s.world.shared.name) feature store =
        (.ok run.asRun, mid.world) := by
      obtain ⟨answer, world⟩ := executeFeature_fresh keeps.hooks steps hs store
      rw [hRun] at answer world
      rw [executeAlone_eq, Prod.map, ← answer, ← world]
      rfl
    cases hook : run.hookFailure with
    | some failure =>
      simp only [hook] at ran
      obtain ⟨rfl, -⟩ := Effect.eq_of_start_pure ran
      refine ⟨[run.asRun], rfl, (List.append_nil _).symm, fun no => ?_, .cons alone rfl (.nil _)⟩
      cases no
    | none =>
      simp only [hook] at ran
      obtain ⟨more, last, hMore, ran⟩ := Effect.ok_of_start_bind ran
      obtain ⟨rfl, -⟩ := Effect.eq_of_start_pure ran
      have after : (World.new tag).Changes mid.world := by
        have changes := (executeFeature_actsOnWorld keeps.hooks steps).changes s
        rw [hRun] at changes
        exact hs.trans changes
      obtain ⟨parts, results, scored, all, inTurn⟩ := ih keeps.tail after hMore
      exact ⟨run.asRun :: parts, congrArg (run.result :: ·) results,
        congrArg (run.scored ++ ·) scored, fun no => congrArg (· + 1) (all no),
        .cons alone rfl inTurn⟩

/-- Building features makes changes of the world. In a run, each feature gives the result and the
scores that it gives alone, in a world that is new but for the name of the context of the shared
variables; where the features leave this name as it is in a new world, in a new world. -/
theorem executeFeatures_inTurn {ctx : RunContext σ} {features : List (ResolvedFeature σ)}
    (keeps : KeepsWorldOnly ctx.steppers features) (tag : String) :
    (∀ q store, (World.new tag).Changes
      ((buildFeatures ctx.domains ctx.config features q).start ⟨.new tag, store⟩).2.world) ∧
    ∀ s : Session σ, (World.new tag).Changes s.world → ∀ executed s',
      (executeFeatures ctx features).start s = (.ok executed, s') →
      ∃ parts : List Executed,
        executed.features = parts.flatMap (·.features) ∧
        executed.scored = parts.flatMap (·.scored) ∧
        (executed.hookFailure = none → parts.length = features.length) ∧
        GiveInTurn ctx tag s.world.shared.name (features.take parts.length) parts ∧
        (s.world.shared.name = (World.new tag).shared.name →
          (∀ feature ∈ features, KeepsSharedName ctx tag feature) →
          List.Forall₂ (fun feature part =>
              ∀ store, (executeAlone ctx (.new tag) feature store).1 = .ok part)
            (features.take parts.length) parts) := by
  refine ⟨fun q store => buildFeatures_changesWorld keeps.builds q ⟨.new tag, store⟩, ?_⟩
  intro s hs executed s' ran
  obtain ⟨parts, results, scored, all, inTurn⟩ := exists_giveInTurn keeps hs ran
  refine ⟨parts, results, scored, all, inTurn, fun new keep => ?_⟩
  exact inTurn.alone s.store new fun feature mem => keep feature (List.mem_of_mem_take mem)

/-! ## Two features -/

/-- A feature whose only line sets a variable. -/
def settingFeature : ResolvedFeature Unit :=
  ⟨"set.feature", "", [.mk ⟨⟨"set.feature", 1⟩, "set \"x\" to \"1\"", ⟨[1, 1]⟩,
    .resolved "vars" Builtin.setStep
      [⟨"what", "x", .quoted, "string"⟩, ⟨"value", "1", .quoted, "string"⟩]⟩ []]⟩

/-- A feature whose only line asks whether the variable is set. -/
def askingFeature : ResolvedFeature Unit :=
  ⟨"ask.feature", "", [.mk ⟨⟨"ask.feature", 1⟩, "\"x\" is set", ⟨[2, 1]⟩,
    .resolved "vars" Builtin.isSetStep [⟨"what", "x", .quoted, "string"⟩]⟩ []]⟩

/-- The steppers that come with the library, with their domains. -/
def builtinContext : RunContext Unit := ⟨Builtin.steppers, .initial, .initial⟩

theorem keepsWorldOnly_setting :
    KeepsWorldOnly builtinContext.steppers [settingFeature, askingFeature] := by
  have ofVariables (d : StepDefinition Unit) (hd : d ∈ Builtin.variablesStepper.steps) :
      d.ActsOnWorld ∧ d.BuildsInWorld :=
    (Builtin.actsOnWorld (s := Builtin.variablesStepper) (by simp [Builtin.steppers])).2 d hd
  have set := ofVariables Builtin.setStep (by simp [Builtin.variablesStepper])
  have ask := ofVariables Builtin.isSetStep (by simp [Builtin.variablesStepper])
  refine .of_plain (fun s hs => (Builtin.actsOnWorld hs).1) (List.forall_mem_cons.2 ⟨?_,
    List.forall_mem_singleton.2 ?_⟩)
  · exact ⟨_, rfl, fun d hd => Option.some.inj hd ▸ set⟩
  · exact ⟨_, rfl, fun d hd => Option.some.inj hd ▸ ask⟩

/-- The variable that one feature sets is not set in the next, as it is not when that runs alone. -/
theorem executeFeatures_setting : ∃ executed s',
    (executeFeatures builtinContext [settingFeature, askingFeature]).start ⟨.new "run", ()⟩ =
      (.ok executed, s') ∧ executed.features.map (·.ok) = [true, false] ∧
    ∃ parts : List Executed, executed.features = parts.flatMap (·.features) ∧
      GiveInTurn builtinContext "run" "shared" [settingFeature, askingFeature] parts ∧
      List.Forall₂ (fun feature part => (executeAlone builtinContext (.new "run") feature ()).1 =
        .ok part) [settingFeature, askingFeature] parts := by
  obtain ⟨executed, s', ran, oks, told⟩ : ∃ executed s',
      (executeFeatures builtinContext [settingFeature, askingFeature]).start ⟨.new "run", ()⟩ =
        (.ok executed, s') ∧ executed.features.map (·.ok) = [true, false] ∧
          executed.hookFailure = none := ⟨_, _, rfl, rfl, rfl⟩
  have keep : ∀ feature ∈ [settingFeature, askingFeature],
      KeepsSharedName builtinContext "run" feature :=
    List.forall_mem_cons.2 ⟨fun _ => rfl, List.forall_mem_singleton.2 fun _ => rfl⟩
  obtain ⟨parts, results, -, all, inTurn, alone⟩ :=
    (executeFeatures_inTurn keepsWorldOnly_setting "run").2 _ .refl executed s' ran
  have alone := alone rfl keep
  rw [all told] at inTurn alone
  exact ⟨executed, s', ran, oks, parts, results, inTurn, alone.imp fun _ _ h => h ()⟩

/-! ## A context in place of another -/

/-- Takes the context of the shared variables away and leaves one without a name. -/
def takeStep : StepDefinition Unit where
  name := "take"
  form := .exact "take"
  action _ := do
    Session.changeWorld fun w => { w with shared := .new "" }
    return .ok .passed

/-- Asks whether the context of the shared variables has the name that it has in a new world. -/
def nameStep : StepDefinition Unit where
  name := "name"
  form := .exact "name"
  action _ := do
    let w ← Session.readWorld
    return .ok (if w.shared.name = "shared" then .passed else .failed w.shared.name)

/-- The stepper that offers both. -/
def takingStepper : Stepper Unit where
  name := "t"
  steps := [takeStep, nameStep]

/-- A run with this stepper. -/
def takingContext : RunContext Unit := ⟨[takingStepper], .initial, .initial⟩

/-- A feature whose only line takes the context. -/
def takingFeature : ResolvedFeature Unit :=
  ⟨"take.feature", "", [.mk ⟨⟨"take.feature", 1⟩, "take", ⟨[1, 1]⟩, .resolved "t" takeStep []⟩ []]⟩

/-- A feature whose only line asks for the name. -/
def namingFeature : ResolvedFeature Unit :=
  ⟨"name.feature", "", [.mk ⟨⟨"name.feature", 1⟩, "name", ⟨[2, 1]⟩, .resolved "t" nameStep []⟩ []]⟩

theorem keepsWorldOnly_taking :
    KeepsWorldOnly takingContext.steppers [takingFeature, namingFeature] := by
  have take : takeStep.ActsOnWorld := fun _ _ =>
    .bind (.changeWorld fun _ => .shared .refl _) fun _ => .pure _
  have name : nameStep.ActsOnWorld := fun _ _ => .bind .readWorld fun _ => .pure _
  refine .of_plain (List.forall_mem_singleton.2 ⟨fun _ => .pure _, .pure _⟩)
    (List.forall_mem_cons.2 ⟨?_, List.forall_mem_singleton.2 ?_⟩)
  · exact ⟨_, rfl, fun d hd => Option.some.inj hd ▸ ⟨take, .of_none rfl⟩⟩
  · exact ⟨_, rfl, fun d hd => Option.some.inj hd ▸ ⟨name, .of_none rfl⟩⟩

/-- Not every feature gives what it gives alone in a new world: one that asks for the name passes
alone, and fails after one that takes the context. -/
theorem not_executeFeatures_alone :
    ¬ ∀ (ctx : RunContext Unit) (features : List (ResolvedFeature Unit)) (tag : String),
      KeepsWorldOnly ctx.steppers features → ∀ executed s',
        (executeFeatures ctx features).start ⟨.new tag, ()⟩ = (.ok executed, s') →
        ∀ (k : Nat) feature result, features[k]? = some feature →
          executed.features[k]? = some result →
          (executeAlone ctx (.new tag) feature ()).1.map (·.features) = .ok [result] := by
  intro alone
  have second := alone takingContext _ "run" keepsWorldOnly_taking _ _ rfl 1 _ _ rfl rfl
  have oks : Except.ok (ε := Crash) [true] = .ok [false] :=
    congrArg (Except.map (List.map FeatureResult.ok)) second
  cases oks

end PlainSteps
