import PlainSteps.Step.Tree

/-!
# Building and finalizing

Where building is enabled, the first step of each feature that has a build handler is built before
any step runs. A handler may leave work for the end of the run, which is kept by workspace.

* `Finalizers.register`, `Finalizers.pending`: the work that is left.
* `Finalizers.finalize`: does all of it, workspace by workspace, and reports the first failure.
* `BuilderCall`, `Finalizers.call`: what a caller may do with the work that is left.
* `buildFeatures`: builds features up to the first that fails.
-/

namespace PlainSteps

variable {σ : Type}

/-- Why building or finalizing fails. -/
inductive BuildError where
  /-- A term of the step to be built has no value. -/
  | populate (step : String) (location : SourceLocation) (cause : PopulateError)
  /-- A build handler fails. -/
  | handler (step : String) (location : SourceLocation) (cause : Fault)
  /-- Work that was left for the end fails. -/
  | finalizer (workspace : String) (cause : Fault)
  deriving DecidableEq, Repr

/-- The message for a failure. -/
def BuildError.message : BuildError → String
  | .populate step location cause =>
    location.text ++ ": cannot build " ++ backquoted step ++ ": " ++ cause.message
  | .handler step location cause =>
    location.text ++ ": build of " ++ backquoted step ++ " failed: " ++ cause.message
  | .finalizer workspace cause =>
    "finalizer for " ++ backquoted workspace ++ " failed: " ++ cause.message

/-- Work that is left for the end of a run, by workspace, in the order of registration. -/
structure Finalizers (σ : Type) where
  scopes : List (String × List (Finalizer σ))

namespace Finalizers

/-- No work. -/
def none : Finalizers σ := ⟨[]⟩

/-- Adds work to the workspace of a name, or in a new workspace at the end. -/
def addTo (workspace : String) (f : Finalizer σ) :
    List (String × List (Finalizer σ)) → List (String × List (Finalizer σ))
  | [] => [(workspace, [f])]
  | (w, fs) :: rest =>
    if w = workspace then (w, fs ++ [f]) :: rest else (w, fs) :: addTo workspace f rest

/-- Adds work for a workspace. -/
def register (q : Finalizers σ) (workspace : String) (f : Finalizer σ) : Finalizers σ :=
  ⟨addTo workspace f q.scopes⟩

/-- The work in the order in which it is done, each piece with its workspace. -/
def tasks (q : Finalizers σ) : List (String × Finalizer σ) :=
  q.scopes.flatMap fun (workspace, fs) => fs.map (workspace, ·)

/-- The amount of work that is left. -/
def pending (q : Finalizers σ) : Nat := q.tasks.length

/-- Does pieces of work in turn; the first failure, of these or before them. -/
def runTasks : Option BuildError → List (String × Finalizer σ) →
    Effect (Session σ) (Option BuildError)
  | failure, [] => return failure
  | failure, (workspace, f) :: rest => do
    match ← f workspace with
    | .ok () => runTasks failure rest
    | .error cause => runTasks (failure.or (some (.finalizer workspace cause))) rest

/-- Does all work that is left, whatever fails; the first failure. -/
def finalize (q : Finalizers σ) : Effect (Session σ) (Option BuildError) :=
  runTasks Option.none q.tasks

end Finalizers

/-- A call of the work that is left. -/
inductive BuilderCall (σ : Type) where
  | register (workspace : String) (work : Finalizer σ)
  | finalize

/-- What a call does and answers, and the work that is left after it. Work is taken before it is
done, so that none is left even where it crashes. -/
def Finalizers.call (q : Finalizers σ) :
    BuilderCall σ → Effect (Session σ) (Option BuildError) × Finalizers σ
  | .register workspace work => (pure Option.none, q.register workspace work)
  | .finalize => (q.finalize, Finalizers.none)

/-- A handler that builds a step. -/
abbrev BuildHandler (σ : Type) : Type :=
  BuildContext → Effect (Session σ) (Except Fault (Option (Finalizer σ)))

/-- The first step of a feature that has a build handler. -/
def buildable? (feature : ResolvedFeature σ) : Option (StepHead σ × BuildHandler σ) :=
  feature.steps.findSome? fun step =>
    (step.head.action.definition?.bind (·.build)).map fun handler => (step.head, handler)

/-- Builds a feature; the work that this leaves. -/
def buildFeature (domains : DomainRegistry) (config : RunConfig) (feature : ResolvedFeature σ)
    (q : Finalizers σ) : Effect (Session σ) (Except BuildError (Finalizers σ)) := do
  match buildable? feature with
  | none => return .ok q
  | some (step, handler) =>
    Session.changeWorld World.resetFeature
    let workspace := FilePath.directory feature.path
    let name := step.action.qualifiedName
    match populate (← Session.readWorld) domains config.env step.action.captures with
    | .error cause => return .error (.populate name step.source cause)
    | .ok vars =>
      match ← handler ⟨step.view, vars, workspace⟩ with
      | .error cause => return .error (.handler name step.source cause)
      | .ok none => return .ok q
      | .ok (some f) => return .ok (q.register workspace f)

/-- Builds features up to the first that fails; the failure, and the work that is left. -/
def buildFeatures (domains : DomainRegistry) (config : RunConfig) :
    List (ResolvedFeature σ) → Finalizers σ →
      Effect (Session σ) (Option BuildError × Finalizers σ)
  | [], q => return (none, q)
  | feature :: rest, q => do
    match ← buildFeature domains config feature q with
    | .error e => return (some e, q)
    | .ok q => buildFeatures domains config rest q

end PlainSteps
