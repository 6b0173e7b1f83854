import PlainSteps.Regex.Size

/-!
# Faults of step patterns

Why a template or a pattern is refused, and the message for it.

* `SlotFault`: what is wrong with the braces of a template.
* `PatternError`: the faults, and `PatternError.message`.
-/

namespace PlainSteps

/-- What is wrong with the braces of a template. -/
inductive SlotFault where
  /-- A placeholder has an ill-formed domain, or something after its label. -/
  | invalid
  /-- A placeholder is open at the end of the template. -/
  | unclosed
  /-- A closing brace has no opening one before it. -/
  | unmatchedClose
  /-- An opening brace has no closing one after it. -/
  | unbalanced
  deriving DecidableEq, Repr

/-- The description of a fault. -/
def SlotFault.text : SlotFault → String
  | .invalid => "invalid placeholder in step template"
  | .unclosed => "missing closing '\x7d' for placeholder"
  | .unmatchedClose => "unmatched closing brace '\x7d' in step template"
  | .unbalanced => "unbalanced braces in step template"

/-- Why a step pattern is refused. -/
inductive PatternError where
  /-- The braces are wrong at a byte offset; with the label, if one was read. -/
  | malformed (fault : SlotFault) (position : Nat) (label : Option String)
  /-- Two placeholders have one label. -/
  | duplicateLabel (label : String)
  /-- A placeholder names a domain that is not known. -/
  | unknownDomain (label domain : String)
  /-- A regular expression is ill-formed. -/
  | badExpression
  /-- A regular expression is beyond the limit on sizes. -/
  | tooLarge
  deriving DecidableEq, Repr

/-- A text in backquotes. -/
def backquoted (s : String) : String := "\x60" ++ s ++ "\x60"

/-- The message for a fault; an ill-formed expression is not described further. -/
def PatternError.message : PatternError → String
  | .malformed fault position (some label) =>
    fault.text ++ " for placeholder " ++ backquoted label ++ " at byte " ++ toString position
      ++ " (zero-based)"
  | .malformed fault position none =>
    fault.text ++ " at byte " ++ toString position ++ " (zero-based)"
  | .duplicateLabel label => "duplicate placeholder " ++ backquoted label ++ " in template"
  | .unknownDomain label domain =>
    "placeholder " ++ backquoted label ++ " uses unknown domain " ++ backquoted domain
  | .badExpression => "<regex>"
  | .tooLarge => "Compiled regex exceeds size limit of " ++ toString Regex.sizeLimit ++ " bytes."

end PlainSteps
