import PlainSteps.Domain.Name
import PlainSteps.Origin
import PlainSteps.Regex.Reader
import PlainSteps.Regex.Thread
import PlainSteps.Template.Error

/-!
# Patterns

A pattern describes the lines of a step by a regular expression that an author has written. A line,
without its outer blanks, matches where the expression matches any part of it.

* `Pattern.read`: a pattern from its text.
* `Pattern.captures?`: the captures that a line gives.
-/

namespace PlainSteps

/-- A pattern that has been read. -/
structure Pattern where
  /-- The names of the groups, in the order in which the groups open. -/
  names : List GroupName
  program : Program GroupName

namespace Pattern

/-- Reads a pattern, whose expression has to be within the limit on sizes. -/
def read (text : String) : Except PatternError Pattern :=
  match Regex.read? text with
  | none => .error .badExpression
  | some r => if r.fits then .ok ⟨r.names, .ofRegex r⟩ else .error .tooLarge

/-- The capture of a group that has a name and took part in a match. -/
def capture? (line : List Char) (found : List (GroupName × Nat × Nat)) (group : GroupName) :
    Option Capture := do
  let name ← group.name
  let (first, last) ← found.lookup group
  return ⟨name, String.ofList ((line.drop first).take (last - first)), .quoted, Domain.string⟩

/-- The captures that a line gives, in the order in which the groups open; `none` where it does not
match. -/
def captures? (p : Pattern) (line : String) : Option (List Capture) :=
  let line := Text.trim line.toList
  (p.program.search? line).map fun found => p.names.filterMap (capture? line found)

end Pattern

end PlainSteps
