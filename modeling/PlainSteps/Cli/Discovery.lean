import PlainSteps.Source.Basic
import PlainSteps.Table

/-!
# Finding features

The files of features are those below a directory whose extension is `feature`, in the order of
their names, directories and files alike.

* `FileTree`: files and directories.
* `FileTree.files`: the files of a tree.
* `discover`: the features below a path.
-/

namespace PlainSteps.Cli

/-- A file with its bytes, or a directory. -/
inductive FileTree where
  | file (bytes : ByteArray)
  | directory (entries : Table FileTree)

namespace FileTree

mutual

/-- The files of a tree at a path, in order. -/
def files (path : String) : FileTree → List (String × ByteArray)
  | .file bytes => [(path, bytes)]
  | .directory ⟨entries⟩ =>
    filesIn (if path.toList.getLast? = some '/' then path else path ++ "/") entries

/-- The files of trees with names below a path, in order. -/
def filesIn (path : String) : List (String × FileTree) → List (String × ByteArray)
  | [] => []
  | (name, t) :: rest => t.files (path ++ name) ++ filesIn path rest

end

end FileTree

/-- Why features are not found. -/
inductive DiscoveryError where
  /-- There is nothing at a path. -/
  | missing (path : String)
  /-- A file is no text. -/
  | unreadable (path : String)
  deriving DecidableEq, Repr

/-- Whether a file is one of features. -/
def isFeatureFile (path : String) : Bool := FilePath.extension? path == some "feature"

/-- A file of features. -/
def sourceOf (base : String) (file : String × ByteArray) :
    Except DiscoveryError FeatureSource :=
  match String.fromUTF8? file.2 with
  | some content => .ok ⟨file.1, content, base⟩
  | none => .error (.unreadable file.1)

/-- The features below a path, for what the path leads to. -/
def discover (found : Option FileTree) (path : String) :
    Except DiscoveryError (List FeatureSource) :=
  match found with
  | none => .error (.missing path)
  | some t => ((t.files path).filter (isFeatureFile ·.1)).mapM (sourceOf path)

end PlainSteps.Cli
