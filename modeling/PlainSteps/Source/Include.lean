import PlainSteps.Source.Basic

/-!
# Include directives

A line `Backgrounds: a, b` or `Scenarios: a, b` stands for the lines of the files it names.

* `Include.read?`: the directive that a line writes.
-/

namespace PlainSteps

/-- Which files a directive draws from. -/
inductive IncludeKind where
  | backgrounds
  | scenarios
  deriving DecidableEq, Repr

/-- What one file of a kind is called. -/
def IncludeKind.name : IncludeKind → String
  | .backgrounds => "background"
  | .scenarios => "scenario"

/-- A directive, and the names of files in it. -/
structure Include where
  kind : IncludeKind
  names : List String
  deriving DecidableEq, Repr

/-- The kind of directive that a word starts. -/
def IncludeKind.ofWord? (word : String) : Option IncludeKind :=
  match word with
  | "Backgrounds" => some .backgrounds
  | "Scenarios" => some .scenarios
  | _ => none

/-- The directive that a line writes. -/
def Include.read? (line : String) : Option Include := do
  let (head, rest) ← Text.cut? ':' line.toList
  let kind ← IncludeKind.ofWord? (String.ofList (Text.trim head))
  let names := ((rest.splitOn ',').map Text.trim).filter (! ·.isEmpty)
  return ⟨kind, names.map String.ofList⟩

end PlainSteps
