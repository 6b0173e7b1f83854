import PlainSteps.Resolve.Statement
import PlainSteps.Source.Collection

/-!
# Resolving features

Each line is first offered to the steppers, which may deal with it themselves and define steps;
every other line resolves to a step. Definitions outlast the line, so the registry grows.

* `Resolver`: the registry, and the definitions that lines have made.
* `Resolving`: a computation that changes a resolver and may fail.
* `offerLine`: offers a line to the steppers.
* `resolveBackgrounds`: makes sure that the lines of all backgrounds resolve.
* `resolveFeatures`: the steps of features.
-/

namespace PlainSteps

variable {σ : Type}

/-- The registry, and what lines have added to it. -/
structure Resolver (σ : Type) where
  registry : StepRegistry σ
  /-- The names of the steps that lines have defined, each with the place of its line. -/
  defined : List (String × SourceLocation)

/-- A computation that changes a resolver, the store, or fails. -/
abbrev Resolving (σ α : Type) : Type := ExceptT ResolveError (StateT (Resolver σ) (Effect σ)) α

/-- Adds a definition that a line makes, unless that line has made it before. -/
def Resolver.define (r : Resolver σ) (stepper : String) (source : SourceLocation)
    (d : StepDefinition σ) : Except RegistryError (Resolver σ) :=
  let key := (qualifiedName stepper d.name, source)
  if key ∈ r.defined then .ok r
  else
    match r.registry.register stepper d with
    | .ok registry => .ok ⟨registry, r.defined ++ [key]⟩
    | .error e => .error e

/-- Adds a definition that a line makes. -/
def defineStep (stepper : String) (source : SourceLocation) (d : StepDefinition σ) :
    Resolving σ Unit := do
  match (← get).define stepper source d with
  | .ok r => set r
  | .error e => throw (.invalidStep e)

/-- Offers a line to steppers in turn; whether one has dealt with it. -/
def offerLine (steppers : List (Stepper σ)) (line : SourcedLine) : Resolving σ Bool := do
  match steppers with
  | [] => return false
  | s :: rest =>
    match ← (s.resolveLine line.text line.source : Effect σ (LineDisposition σ)) with
    | .proceed => offerLine rest line
    | .consumed => return true
    | .define definitions =>
      definitions.forM (defineStep s.name line.source)
      return true

/-- The action of a line, by the registry as it is. -/
def resolveAction (line : SourcedLine) : Resolving σ (StepAction σ) := do
  match findAction (← get).registry line.text line.source with
  | .ok action => return action
  | .error e => throw e

/-- Makes sure that a line of a background is dealt with, is a directive, or resolves. -/
def checkLine (steppers : List (Stepper σ)) (line : SourcedLine) : Resolving σ Unit := do
  if ← offerLine steppers line then return
  if (Include.read? line.text).isSome then return
  discard (resolveAction line)

/-- Names the background in the failure of one of its lines. -/
def inBackground {α : Type} (path : String) (x : Resolving σ α) : Resolving σ α :=
  tryCatchThe ResolveError x fun e => throw (.background path e)

/-- Makes sure that the lines of all backgrounds resolve. -/
def resolveBackgrounds (steppers : List (Stepper σ)) (library : SourceLibrary) :
    Resolving σ Unit :=
  library.backgrounds.forM fun b =>
    inBackground b.path (b.lines.forM (checkLine steppers))

/-- The steps of lines, of which the first has an index after `position`. -/
def resolveLines (steppers : List (Stepper σ)) (library : SourceLibrary) (feature : Nat) :
    (position : Nat) → List SourcedLine → Resolving σ (List (FeatureStep σ))
  | _, [] => return []
  | position, line :: rest => do
    if ← offerLine steppers line then resolveLines steppers library feature position rest
    else
      let action ← resolveAction line
      let position := SeqPath.next position
      let step := buildStep (← get).registry library maxStatementDepth action line
        ⟨[feature, position]⟩
      return step :: (← resolveLines steppers library feature position rest)

/-- The steps of a feature. -/
def resolveFeature (steppers : List (Stepper σ)) (library : SourceLibrary) (index : Nat)
    (feature : ExpandedFeature) : Resolving σ (ResolvedFeature σ) := do
  steppers.forM fun s => (s.startResolution feature.path : Effect σ Unit)
  let steps ← resolveLines steppers library index 0 feature.lines
  return ⟨feature.path, feature.base, steps⟩

/-- The steps of features, of which the first has an index after `index`. -/
def resolveFrom (steppers : List (Stepper σ)) (library : SourceLibrary) :
    (index : Nat) → List ExpandedFeature → Resolving σ (List (ResolvedFeature σ))
  | _, [] => return []
  | index, feature :: rest => do
    let index := SeqPath.next index
    let resolved ← resolveFeature steppers library index feature
    return resolved :: (← resolveFrom steppers library index rest)

/-- The steps of features, which count from one. -/
def resolveFeatures (steppers : List (Stepper σ)) (library : SourceLibrary)
    (features : List ExpandedFeature) : Resolving σ (List (ResolvedFeature σ)) :=
  resolveFrom steppers library 0 features

end PlainSteps
