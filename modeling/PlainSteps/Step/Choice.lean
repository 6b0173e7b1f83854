import PlainSteps.Step.Registry

/-!
# Choosing among candidates

A line that several steps match belongs to the one that its definitions prefer.

* `chooseCandidate`: the only unique candidate; else the only one that remains when fallbacks give
  way to others and then the precluded give way to those that remain.
-/

namespace PlainSteps

variable {σ : Type}

/-- The candidates that are no fallbacks; all, where all are fallbacks. -/
def withoutFallbacks (cs : List (Candidate σ)) : List (Candidate σ) :=
  if cs.any (! ·.step.definition.fallback) then cs.filter (! ·.step.definition.fallback) else cs

/-- The candidates that no candidate precludes. -/
def withoutPrecluded (cs : List (Candidate σ)) : List (Candidate σ) :=
  let precluded := cs.flatMap (·.step.definition.precludes)
  cs.filter fun c => !precluded.contains c.step.name

/-- The preferred candidate; `none` where none or several are left. -/
def chooseCandidate (cs : List (Candidate σ)) : Option (Candidate σ) :=
  match cs.filter (·.step.definition.unique) with
  | [only] => some only
  | _ =>
    match withoutPrecluded (withoutFallbacks cs) with
    | [only] => some only
    | _ => none

end PlainSteps
