/-!
# Origins of terms

A term in a line is written in one of six forms, and the form says where its value comes from. A
term that is itself a statement has an origin of its own.

* `Origin.forms`: the six forms, those with delimiters first.
* `Origin.delimiters?`: the two characters around a term of each delimited form.
* `Capture`: a term that a line gives for a placeholder.
-/

namespace PlainSteps

/-- Where the value of a term comes from. -/
inductive Origin where
  /-- A statement, which runs as steps of its own. -/
  | statement
  /-- A name in the environment, written in braces. -/
  | env
  /-- A name in the shared variables, written in backquotes. -/
  | var
  /-- A literal with a special meaning, written in square brackets. -/
  | special
  /-- The name of a credential, written in angle brackets. -/
  | credential
  /-- A literal, written in double quotes. -/
  | quoted
  /-- Bare text: a name in the environment, else a shared variable, else a literal. -/
  | fallthrough
  deriving DecidableEq, Repr

namespace Origin

/-- The forms of a term, in the order in which they are tried. -/
def forms : List Origin := [.var, .env, .special, .credential, .quoted, .fallthrough]

/-- The name of an origin. -/
def name : Origin → String
  | .statement => "statement"
  | .env => "env"
  | .var => "var"
  | .special => "special"
  | .credential => "credential"
  | .quoted => "quoted"
  | .fallthrough => "fallthrough"

/-- The characters around a term, for the forms that have delimiters. -/
def delimiters? : Origin → Option (Char × Char)
  | .var => some ('\x60', '\x60')
  | .env => some ('{', '}')
  | .special => some ('[', ']')
  | .credential => some ('<', '>')
  | .quoted => some ('"', '"')
  | .statement | .fallthrough => none

end Origin

/-- A term that a line gives for a placeholder of a step. -/
structure Capture where
  /-- The label of the placeholder. -/
  label : String
  /-- The text that was captured, without delimiters. -/
  term : String
  origin : Origin
  /-- The declared domain of the placeholder. -/
  domain : String
  deriving DecidableEq, Repr

end PlainSteps
