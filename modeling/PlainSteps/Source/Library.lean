import PlainSteps.Source.Include
import PlainSteps.Template.Error

/-!
# The library of sources

The files that include directives may name.

* `SourceLibrary.find?`: the file that a name stands for.
* `SourceLibrary.expandLine`: the lines that a line stands for; a directive is replaced by the
  lines of the files it names, and the directives among those in turn.
* `CollectError`: why there is nothing to run, or a line stands for no lines.

A file is never included while it is being included, so each directive on the way down leaves fewer
files that may still be entered: this bounds the expansion.
-/

namespace PlainSteps

/-- Why the sources of a run cannot be put together. -/
inductive CollectError where
  /-- There is no feature. -/
  | noFeatures
  /-- Two files have one path. -/
  | duplicatePath (path : String)
  /-- A directive names a file that does not exist. -/
  | missingInclude (kind : IncludeKind) (name : String) (location : SourceLocation)
  /-- A file is included while it is being included. -/
  | includeCycle (name : String) (location : SourceLocation)
  deriving DecidableEq, Repr

/-- The message for a fault. -/
def CollectError.message : CollectError → String
  | .noFeatures => "no features to run"
  | .duplicatePath path => "duplicate feature path " ++ backquoted path
  | .missingInclude kind name location =>
    location.text ++ ": no " ++ kind.name ++ " named " ++ backquoted name
  | .includeCycle name location => location.text ++ ": " ++ backquoted name ++ " includes itself"

/-- The files that directives may name. -/
structure SourceLibrary where
  backgrounds : List FeatureSource
  scenarios : List FeatureSource

namespace SourceLibrary

/-- The files of a kind. -/
def sources (l : SourceLibrary) : IncludeKind → List FeatureSource
  | .backgrounds => l.backgrounds
  | .scenarios => l.scenarios

/-- A text without an ending that it has. -/
def dropEnding? (ending s : String) : Option String :=
  (ending.toList.reverse.isPrefixOf? s.toList.reverse).map fun cs => String.ofList cs.reverse

/-- The ending of the files of features. -/
def featureEnding : String := ".feature"

/-- Whether a file has a name: as the name of the file, as its path, or as the end of its path. -/
def hasName (s : FeatureSource) (name : String) : Bool :=
  s.name == name || s.path == name
    || (dropEnding? featureEnding s.path).any fun stem =>
      (dropEnding? ("/" ++ name) stem).isSome

/-- The first file of a kind that has a name, of which the ending may be written. -/
def find? (l : SourceLibrary) (kind : IncludeKind) (name : String) : Option FeatureSource :=
  (l.sources kind).find? (hasName · ((dropEnding? featureEnding name).getD name))

/-- The number of files that may still be entered while those of some paths are being included. -/
def unentered (l : SourceLibrary) (entered : List String) : Nat :=
  ((l.backgrounds ++ l.scenarios).filter fun s => !entered.contains s.path).length

private theorem length_filter_lt {α : Type} {p q : α → Bool} {xs : List α} {x : α}
    (hx : x ∈ xs) (hp : p x = true) (hq : q x = false) (imp : ∀ y, q y = true → p y = true) :
    (xs.filter q).length < (xs.filter p).length := by
  induction xs with
  | nil => cases hx
  | cons y ys ih =>
    have le : (ys.filter q).length ≤ (ys.filter p).length := by
      rw [← List.countP_eq_length_filter, ← List.countP_eq_length_filter]
      exact List.countP_mono_left fun z _ => imp z
    rcases List.mem_cons.1 hx with rfl | hmem
    · simp only [List.filter_cons, hp, hq]
      simp only [if_true, Bool.false_eq_true, if_false, List.length_cons]
      omega
    · have lt := ih hmem
      by_cases hqy : q y = true
      · have := imp y hqy
        simp only [List.filter_cons, hqy, this, if_true, List.length_cons]
        omega
      · by_cases hpy : p y = true
        · simp only [List.filter_cons, hqy, hpy, if_true, List.length_cons]
          simp only [Bool.false_eq_true, if_false]
          omega
        · simp only [List.filter_cons, hqy, hpy]
          simpa using lt

/-- Entering a file leaves fewer that may still be entered. -/
theorem unentered_lt {l : SourceLibrary} {kind : IncludeKind} {name : String}
    {s : FeatureSource} {entered : List String} (found : l.find? kind name = some s)
    (fresh : s.path ∉ entered) : l.unentered (s.path :: entered) < l.unentered entered := by
  have mem : s ∈ l.backgrounds ++ l.scenarios := by
    have := List.mem_of_find?_eq_some found
    cases kind <;> simp_all [sources]
  refine length_filter_lt mem (by simpa using fresh) (by simp) fun y hy => ?_
  simp only [List.contains_cons, Bool.not_or, Bool.and_eq_true] at hy
  exact hy.2

mutual

/-- The lines of files by their names, while those of some paths are being included. -/
def expandNames (l : SourceLibrary) (entered : List String) (kind : IncludeKind)
    (location : SourceLocation) (names : List String) : Except CollectError (List SourcedLine) :=
  match names with
  | [] => .ok []
  | name :: rest =>
    match found : l.find? kind name with
    | none => .error (.missingInclude kind name location)
    | some s =>
      if fresh : s.path ∈ entered then .error (.includeCycle name location)
      else do
        have := unentered_lt found fresh
        let here ← l.expandLines (s.path :: entered) s.lines
        let more ← l.expandNames entered kind location rest
        return here ++ more
termination_by (l.unentered entered, 0, names.length)

/-- The lines that lines stand for, while the files of some paths are being included. -/
def expandLines (l : SourceLibrary) (entered : List String) (lines : List SourcedLine) :
    Except CollectError (List SourcedLine) :=
  match lines with
  | [] => .ok []
  | line :: rest => do
    let here ← match Include.read? line.text with
      | some inc => l.expandNames entered inc.kind line.source inc.names
      | none => .ok [line]
    let more ← l.expandLines entered rest
    return here ++ more
termination_by (l.unentered entered, 1, lines.length)

end

/-- The lines that a line stands for. -/
def expandLine (l : SourceLibrary) (line : SourcedLine) : Except CollectError (List SourcedLine) :=
  l.expandLines [] [line]

end SourceLibrary

end PlainSteps
