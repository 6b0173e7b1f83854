import PlainSteps.Resolve.Error
import PlainSteps.Step.Choice
import PlainSteps.Step.Tree

/-!
# Resolving lines and statements

A line resolves to the step that its candidates prefer. A term that is a statement is a text of
lines; these resolve to steps below that of the line, which count on from statement to statement.
A statement that does not resolve yields a step that fails.

* `findAction`: the action of a line.
* `statementLines`: the lines of a statement, with directives expanded.
* `buildStep`: the step of a line, with the steps of its statements.
-/

namespace PlainSteps

variable {σ : Type}

/-- The action of a line. -/
def findAction (registry : StepRegistry σ) (text : String) (location : SourceLocation) :
    Except ResolveError (StepAction σ) :=
  let candidates := registry.candidates text
  if candidates.isEmpty then .error (.noStep text location)
  else
    match chooseCandidate candidates with
    | some c => .ok (.resolved c.step.stepper c.step.definition c.captures)
    | none => .error (.ambiguous text location (candidates.map (·.step.name)))

/-- The levels of statements that a step may have below it. -/
def maxStatementDepth : Nat := 16

/-- The lines of a statement that are not blank, at the place of the line that holds it. -/
def rawStatementLines (term : String) (location : SourceLocation) : List SourcedLine :=
  ((Text.lines term.toList).map Text.trim).filter (! ·.isEmpty)
    |>.map fun text => ⟨location, String.ofList text⟩

/-- The lines of a statement, with directives expanded. -/
def statementLines (library : SourceLibrary) (term : String) (location : SourceLocation) :
    Except CollectError (List SourcedLine) :=
  ((rawStatementLines term location).mapM library.expandLine).map List.flatten

/-- The place that is reported for a line. -/
def reportedSource (action : StepAction σ) (line : SourcedLine) : SourceLocation :=
  (action.definition?.bind (·.source)).getD line.source

/-- The terms of an action that are statements. -/
def statementsOf (action : StepAction σ) : List Capture :=
  action.captures.filter (·.origin == .statement)

/-- Resolves statements in turn, of which the first step has index `next`; `expand` resolves one of
them and returns the index after its last step. -/
def expandStatements (expand : (term : String) → (next : Nat) → List (FeatureStep σ) × Nat) :
    (next : Nat) → List Capture → List (NestedStatement σ)
  | _, [] => []
  | next, c :: rest =>
    let (steps, after) := expand c.term next
    .mk c.label steps :: expandStatements expand after rest

/-- The steps of lines below a step, of which the first has index `next`, and the index after the
last; `build` makes one of them. -/
def stepsBelow (parent : SeqPath) (build : SourcedLine → SeqPath → FeatureStep σ) :
    (next : Nat) → List SourcedLine → List (FeatureStep σ) × Nat
  | next, [] => ([], next)
  | next, line :: rest =>
    let (steps, after) := stepsBelow parent build (SeqPath.next next) rest
    (build line (parent.child next) :: steps, after)

/-- The only step of a statement that cannot be resolved, and the index after it. -/
def unresolvedStatement (term : String) (location : SourceLocation) (parent : SeqPath)
    (next : Nat) (e : ResolveError) : List (FeatureStep σ) × Nat :=
  ([.unresolved term location (parent.child next) e.message], SeqPath.next next)

/-- The step of a line, which may have so many levels of statements below it. -/
def buildStep (registry : StepRegistry σ) (library : SourceLibrary) :
    (levels : Nat) → StepAction σ → SourcedLine → SeqPath → FeatureStep σ
  | 0, action, line, seqPath =>
    .mk ⟨reportedSource action line, line.text, seqPath, action⟩
      (expandStatements (fun term next =>
        unresolvedStatement term line.source seqPath next (.tooDeep term line.source))
        1 (statementsOf action))
  | levels + 1, action, line, seqPath =>
    .mk ⟨reportedSource action line, line.text, seqPath, action⟩
      (expandStatements (fun term next =>
        match statementLines library term line.source with
        | .error e => unresolvedStatement term line.source seqPath next (.inclusion e)
        | .ok lines =>
          stepsBelow seqPath (fun inner path =>
            match findAction registry inner.text inner.source with
            | .ok action => buildStep registry library levels action inner path
            | .error e => .unresolved inner.text inner.source path e.message) next lines)
        1 (statementsOf action))

end PlainSteps
