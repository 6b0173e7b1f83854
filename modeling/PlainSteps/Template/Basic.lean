import PlainSteps.Domain.Name
import PlainSteps.Keyword
import PlainSteps.Origin
import PlainSteps.Regex.Search
import PlainSteps.Template.Token

/-!
# Step templates

A template describes the lines of a step: literal text with placeholders. It is read into an
expression that a line, without its outer blanks, has to match from end to end, after an optional
keyword and an optional politeness phrase.

* `Template.read`: a template from its text.
* `Template.source`: the expression as it is written.
* `Template.compile`: the same for a template that is within the limit on sizes and may name known
  domains only.
* `Template.isMatch`: whether a line matches.
* `Template.captures?`: the terms that a line gives for the placeholders.
-/

namespace PlainSteps

/-- A placeholder of a template. -/
structure Placeholder where
  label : String
  /-- The declared domain. -/
  domain : String
  /-- The byte offset of the opening brace. -/
  position : Nat
  deriving DecidableEq, Repr

/-- Whether a placeholder holds a statement. -/
def Placeholder.isStatement (p : Placeholder) : Bool := p.domain == Domain.statement

/-- The name of a group: the index of a placeholder and the form that its term has. -/
abbrev FormName := Nat × Origin

/-- A template that has been read. -/
structure Template where
  text : String
  /-- The expression that a line has to match. -/
  matcher : Regex FormName
  /-- The placeholders, in order. -/
  schema : List Placeholder

namespace Template

/-! ## The opening words -/

/-- An expression for one or more blanks. -/
def blanks : Regex FormName := .oneOrMore (.oneOf .blank)

/-- An expression for words with blanks between them. -/
def spaced : List (List Char) → Regex FormName
  | [] => .empty
  | [w] => .text w
  | w :: ws => .cat (.text w) (.cat blanks (spaced ws))

/-- An expression for one of several phrases and the blanks after it, or nothing. -/
def opening (phrases : List String) : Regex FormName :=
  .optional (.group (.cat
    (.group (.alternatives (phrases.map fun p => spaced (Text.words p.toList)))) blanks))

/-- An expression for the words that may stand before a step. -/
def openingWords : Regex FormName :=
  .cat (opening (Keyword.all.map Keyword.word)) (opening politeness)

/-! ## Placeholders -/

/-- An expression for the characters other than a closing delimiter. -/
def inside (close : Char) : CharSet := .complement (.char close)

/-- An expression for a term in one form. A quoted term may be empty; a bare one is as long as
possible, or as short as possible when `short`. -/
def form (index : Nat) (short : Bool) (origin : Origin) : Regex FormName :=
  match origin.delimiters? with
  | some (first, last) =>
    let body : Regex FormName := .oneOf (inside last)
    let term := if origin = .quoted then body.zeroOrMore else body.oneOrMore
    .sequence [.text [first], .named (index, origin) term, .text [last]]
  | none =>
    let body : Regex FormName := .oneOf .notNewline
    .named (index, origin) (if short then body.oneOrMoreLazy else body.oneOrMore)

/-- An expression for a term in any form. -/
def term (index : Nat) (short : Bool) : Regex FormName :=
  .group (.alternatives (Origin.forms.map (form index short)))

/-! ## Reading a template -/

/-- The first fault among tokens, for the labels seen and the stray braces open before them, in a
template of `size` bytes. -/
def fault? (size : Nat) : (seen : List String) → (depth : Nat) → List Token → Option PatternError
  | _, 0, [] => none
  | _, _ + 1, [] => some (.malformed .unbalanced size none)
  | seen, depth, .literal _ :: rest => fault? size seen depth rest
  | seen, depth, .slot _ label _ :: rest =>
    if label ∈ seen then some (.duplicateLabel label) else fault? size (label :: seen) depth rest
  | seen, depth, .strayOpen _ :: rest => fault? size seen (depth + 1) rest
  | _, 0, .strayClose position :: _ => some (.malformed .unmatchedClose position none)
  | seen, depth + 1, .strayClose _ :: rest => fault? size seen depth rest

/-- The placeholder of a token, if it is one. -/
def Token.placeholder? : Token → Option Placeholder
  | .slot position label domain => some ⟨label, domain.getD Domain.string, position⟩
  | _ => none

/-- Expressions for tokens, of which the first placeholder has the given index. A statement that
has a placeholder after it is as short as possible. -/
def body : (index : Nat) → List Token → List (Regex FormName)
  | _, [] => []
  | index, token :: rest =>
    match token with
    | .literal text => .text text :: body index rest
    | .slot _ _ domain =>
      let short := domain == some Domain.statement && rest.any (·.placeholder?.isSome)
      term index short :: body (index + 1) rest
    | .strayOpen _ => .text ['{'] :: body index rest
    | .strayClose _ => .text ['}'] :: body index rest

/-- The expression for a line that consists of opening words and these tokens. -/
def matcherOf (tokens : List Token) : Regex FormName :=
  .cat (.place .start) (.cat openingWords (.cat (.sequence (body 0 tokens)) (.place .stop)))

/-- Reads a template. -/
def read (text : String) : Except PatternError Template := do
  let tokens ← tokens text
  match fault? (Text.width text.toList) [] 0 tokens with
  | some fault => throw fault
  | none => return ⟨text, matcherOf tokens, tokens.filterMap (·.placeholder?)⟩

/-- The name of a group as it is written. -/
def groupName (name : FormName) : String := "p" ++ toString name.1 ++ "_" ++ name.2.name

/-- The expression of a template as it is written. -/
def source (t : Template) : String := String.ofList (t.matcher.source groupName)

/-- The first placeholder that names a domain which is not known, and that domain. -/
def unknownDomain? (known : List String) (schema : List Placeholder) : Option PatternError :=
  schema.findSome? fun p =>
    ((Domain.members p.domain).find? (! known.contains ·)).map (.unknownDomain p.label)

/-- Reads a template that is within the limit on sizes and may name known domains only; where none
are given, all are known. -/
def compile (known : Option (List String)) (text : String) : Except PatternError Template := do
  let t ← read text
  match known.bind (unknownDomain? · t.schema) with
  | some fault => throw fault
  | none => if t.matcher.fits then return t else throw .tooLarge

/-! ## Matching a line -/

/-- The term that a match gives for a placeholder: the text of the first form that took part. -/
def capture? (found : List (FormName × List Char)) (index : Nat) (p : Placeholder) :
    Option Capture :=
  Origin.forms.findSome? fun origin =>
    (found.lookup (index, origin)).map fun text =>
      { label := p.label, term := String.ofList text,
        origin := if p.isStatement then .statement else origin, domain := p.domain }

/-- Whether a line matches. -/
def isMatch (t : Template) (line : String) : Bool :=
  (t.matcher.search? (Text.trim line.toList)).isSome

/-- The terms that a line gives for the placeholders, in their order; `none` where it does not
match. -/
def captures? (t : Template) (line : String) : Option (List Capture) := do
  let found ← t.matcher.search? (Text.trim line.toList)
  (t.schema.zipIdx).mapM fun (p, index) => capture? found index p

end Template

end PlainSteps
