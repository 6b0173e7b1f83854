import PlainSteps.Source.Library
import PlainSteps.Step.Registry

/-!
# Lines that do not resolve

* `ResolveError`: why a line does not resolve to a step.
* `ResolveError.message`: the message for it.
-/

namespace PlainSteps

/-- Why a line does not resolve to a step. -/
inductive ResolveError where
  /-- No step matches. -/
  | noStep (text : String) (location : SourceLocation)
  /-- Several steps match, and none is preferred. -/
  | ambiguous (text : String) (location : SourceLocation) (candidates : List String)
  /-- A line of a background does not resolve. -/
  | background (path : String) (cause : ResolveError)
  /-- A definition that a stepper makes of a line is refused. -/
  | invalidStep (e : RegistryError)
  /-- A directive in a statement cannot be expanded. -/
  | inclusion (e : CollectError)
  /-- Statements are nested too deeply. -/
  | tooDeep (text : String) (location : SourceLocation)
  deriving Repr

/-- The message for a line that does not resolve. -/
def ResolveError.message : ResolveError → String
  | .noStep text location => location.text ++ ": no step found for " ++ backquoted text
  | .ambiguous text location candidates =>
    location.text ++ ": " ++ backquoted text ++ " matches several steps: "
      ++ ", ".intercalate candidates
  | .background path cause =>
    "background " ++ backquoted path ++ " does not resolve: " ++ cause.message
  | .invalidStep e => e.message
  | .inclusion e => e.message
  | .tooDeep text location =>
    location.text ++ ": statement " ++ backquoted text ++ " nests too deeply"

end PlainSteps
