import PlainSteps.Text.Cut

/-!
# Paths of files

Paths are texts with slashes. Repeated slashes, slashes at the end and single dots other than at
the start make no difference to what a path names.

* `FilePath.components`: the parts of a path.
* `FilePath.directory`: the path without its last part.
* `FilePath.stem?`, `FilePath.extension?`: the last part before and after its last dot.
* `FilePath.isWithin`: whether a path starts with the parts of another.
-/

namespace PlainSteps.FilePath

/-- A part of a path. -/
inductive Component where
  | root
  /-- A single dot at the start. -/
  | current
  /-- Two dots. -/
  | parent
  | name (s : String)
  deriving DecidableEq, Repr

/-- Whether a piece between slashes makes no difference. -/
def isIdle (piece : String) : Bool := piece == "" || piece == "."

/-- The part that a piece between slashes is. -/
def ofPiece (piece : String) : Component := if piece == ".." then .parent else .name piece

/-- The start of a path that is a part of its own, if there is one, and the pieces after it. -/
def splitStart (path : String) : Option Component × List String :=
  match Text.pieces '/' path with
  | "" :: [] => (none, [])
  | "" :: rest => (some .root, rest)
  | "." :: rest => (some .current, rest)
  | all => (none, all)

/-- The parts of a path. -/
def components (path : String) : List Component :=
  let (start, rest) := splitStart path
  start.toList ++ (rest.filter (! isIdle ·)).map ofPiece

/-- Whether a path starts with the parts of another. -/
def isWithin (directory path : String) : Bool := (components directory).isPrefixOf (components path)

/-- Pieces without those at the end that make no difference. -/
def dropIdle (pieces : List String) : List String := (pieces.reverse.dropWhile isIdle).reverse

/-- A path of a start and the pieces after it. -/
def join (start : Option Component) (pieces : List String) : String :=
  let body := "/".intercalate pieces
  match start with
  | some .root => "/" ++ body
  | some .current => if pieces.isEmpty then "." else "./" ++ body
  | _ => body

/-- The path without its last part; empty where there is none. -/
def directory (path : String) : String :=
  let (start, rest) := splitStart path
  match (dropIdle rest).reverse with
  | [] => ""
  | _ :: before => join start (dropIdle before.reverse)

/-- The last part of a path, where it is a name. -/
def fileName? (path : String) : Option String :=
  match (components path).getLast? with
  | some (.name s) => some s
  | _ => none

/-- What stands before and after the last dot of a name, where something stands before it. -/
def splitExtension (name : String) : String × Option String :=
  match (Text.pieces '.' name).reverse with
  | last :: first :: more =>
    let before := ".".intercalate (first :: more).reverse
    if before.isEmpty then (name, none) else (before, some last)
  | _ => (name, none)

/-- The last part of a path up to its last dot. -/
def stem? (path : String) : Option String :=
  (fileName? path).map fun name => (splitExtension name).1

/-- The last part of a path after its last dot. -/
def extension? (path : String) : Option String :=
  (fileName? path).bind fun name => (splitExtension name).2

end PlainSteps.FilePath
