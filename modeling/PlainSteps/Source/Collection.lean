import PlainSteps.Source.Library

/-!
# Collections of sources

The files of a run are its features and, apart from these, the directory backgrounds: files named
`background`, whose lines come before those of every feature in or below their directory.

* `Collection.ofSources`: the features and the directory backgrounds among files.
* `Collection.expand`: the lines of each feature, with the backgrounds of its directories in front,
  from the outermost directory inwards, and every directive replaced.
-/

namespace PlainSteps

/-- The features of a run and the directory backgrounds. -/
structure Collection where
  features : List FeatureSource
  directoryBackgrounds : List FeatureSource

/-- A feature with all its lines. -/
structure ExpandedFeature where
  path : String
  /-- The directory under which the feature was found. -/
  base : String
  lines : List SourcedLine
  deriving DecidableEq, Repr

namespace Collection

/-- The first path that occurs a second time. -/
def duplicate? : (seen : List String) → List String → Option String
  | _, [] => none
  | seen, path :: rest =>
    if path ∈ seen then some path else duplicate? (path :: seen) rest

/-- Whether a file is the background of its directory. -/
def isDirectoryBackground (s : FeatureSource) : Bool := s.name == "background"

/-- The features and the directory backgrounds among files. -/
def ofSources (sources : List FeatureSource) : Except CollectError Collection :=
  match duplicate? [] (sources.map (·.path)) with
  | some path => .error (.duplicatePath path)
  | none =>
    let features := sources.filter (! isDirectoryBackground ·)
    if features.isEmpty then .error .noFeatures
    else .ok ⟨features, sources.filter isDirectoryBackground⟩

/-- The number of parts of the directory of a file. -/
def depth (s : FeatureSource) : Nat := (FilePath.components s.directory).length

/-- The directory backgrounds of a feature, from the outermost directory inwards. -/
def backgroundsOf (c : Collection) (feature : FeatureSource) : List FeatureSource :=
  (c.directoryBackgrounds.filter fun b => FilePath.isWithin b.directory feature.directory).mergeSort
    fun a b => depth a ≤ depth b

/-- A feature with all its lines. -/
def expandFeature (c : Collection) (library : SourceLibrary) (feature : FeatureSource) :
    Except CollectError ExpandedFeature := do
  let lines ← ((c.backgroundsOf feature ++ [feature]).flatMap (·.lines)).mapM library.expandLine
  return ⟨feature.path, feature.base, lines.flatten⟩

/-- The features with all their lines. -/
def expand (c : Collection) (library : SourceLibrary) :
    Except CollectError (List ExpandedFeature) :=
  c.features.mapM (c.expandFeature library)

end Collection

end PlainSteps
