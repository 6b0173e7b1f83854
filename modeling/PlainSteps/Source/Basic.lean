import PlainSteps.FilePath
import PlainSteps.Text.Blank

/-!
# Sources

A source is a file of features or backgrounds. Its lines are those that say something: blank
lines, comments (after `#` or `;;`) and fenced blocks are left out.

* `FeatureSource`: a file, its `name` and its `directory`.
* `FeatureSource.lines`: its lines, each with its place.
-/

namespace PlainSteps

/-- A place in a file; lines count from one. -/
structure SourceLocation where
  path : String
  line : Nat
  deriving DecidableEq, Repr

/-- A place as it is written. -/
def SourceLocation.text (l : SourceLocation) : String := l.path ++ ":" ++ toString l.line

/-- A line and where it comes from. -/
structure SourcedLine where
  source : SourceLocation
  text : String
  deriving DecidableEq, Repr

/-- A file of features or backgrounds. -/
structure FeatureSource where
  path : String
  content : String
  /-- The directory under which the file was found. -/
  base : String
  deriving DecidableEq, Repr

namespace FeatureSource

/-- The name by which other files include a file. -/
def name (s : FeatureSource) : String := (FilePath.stem? s.path).getD s.path

/-- The directory of a file; empty at the top. -/
def directory (s : FeatureSource) : String := FilePath.directory s.path

/-- The mark of a line that opens or closes a fenced block. -/
def fence : List Char := ['\x60', '\x60', '\x60']

/-- The mark of a comment that has a line of its own. -/
def commentMark : List Char := [';', ';']

/-- The mark of a comment that ends a line. -/
def trailingMark : List Char := [' ', ';', ';']

/-- Whether a line without outer blanks says nothing. -/
def isSilent (text : List Char) : Bool :=
  text.isEmpty || text.head? == some '#' || commentMark.isPrefixOf text

/-- A line without the comment that ends it. -/
def uncommented (text : List Char) : List Char := Text.trimEnd (Text.before trailingMark text)

/-- The lines of a file from a given number on, inside a fenced block or outside. -/
def linesFrom (path : String) : (number : Nat) → (fenced : Bool) → List (List Char) →
    List SourcedLine
  | _, _, [] => []
  | number, fenced, raw :: rest =>
    let text := Text.trim raw
    if fence.isPrefixOf text then linesFrom path (number + 1) (!fenced) rest
    else if fenced || isSilent text then linesFrom path (number + 1) fenced rest
    else
      ⟨⟨path, number⟩, String.ofList (uncommented text)⟩ ::
        linesFrom path (number + 1) fenced rest

/-- The lines of a file that say something. -/
def lines (s : FeatureSource) : List SourcedLine :=
  linesFrom s.path 1 false (Text.lines s.content.toList)

end FeatureSource

end PlainSteps
