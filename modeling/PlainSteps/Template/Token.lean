import PlainSteps.Template.Error
import PlainSteps.Text.Blank
import PlainSteps.Text.Cut

/-!
# The tokens of a template

A template is literal text with placeholders `{label}` or `{label:domain}`. A backslash takes the
next character literally, and a doubled brace stands for one brace. A brace that is none of these
is a stray brace.

* `Symbol`: one character of literal text, a placeholder, or a stray brace.
* `scan`: the symbols of a template, with their byte offsets.
* `Token`, `merge`: the same with each run of literal characters in one piece.
* `tokens`: the tokens of a template.
-/

namespace PlainSteps.Template

/-- The least part of a template. -/
inductive Symbol where
  | literal (c : Char)
  /-- A placeholder, and the byte offset of its opening brace. -/
  | slot (position : Nat) (label : String) (domain : Option String)
  | strayOpen (position : Nat)
  | strayClose (position : Nat)
  deriving DecidableEq, Repr

/-- A part of a template, with adjacent literal characters in one piece. -/
inductive Token where
  | literal (text : List Char)
  /-- A placeholder, and the byte offset of its opening brace. -/
  | slot (position : Nat) (label : String) (domain : Option String)
  | strayOpen (position : Nat)
  | strayClose (position : Nat)
  deriving DecidableEq, Repr

/-! ## Placeholders -/

/-- Whether a character may start a label. -/
def startsLabel (c : Char) : Bool := c.isAlpha || c == '_'

/-- Whether a character may stand in a label. -/
def isLabelChar (c : Char) : Bool := c.isAlphanum || c == '_' || c == '-'

/-- Whether a text names a domain, or several separated by bars: no member is empty or has a
blank or an opening brace. -/
def isDomainText (cs : List Char) : Bool :=
  (cs.splitOn '|').all fun member =>
    !member.isEmpty && member.all fun c => !Text.isAsciiBlank c && c != '{'

/-- A placeholder that has been read, and what follows it. -/
structure SlotText where
  label : List Char
  domain : Option (List Char)
  rest : List Char

/-- The number of bytes of a placeholder with its braces. -/
def SlotText.width (s : SlotText) : Nat :=
  2 + Text.width s.label + match s.domain with
    | some d => 1 + Text.width d
    | none => 0

/-- Reads a placeholder after its opening brace. -/
def readSlot (cs : List Char) : Except SlotFault SlotText :=
  let label := cs.takeWhile isLabelChar
  match cs.dropWhile isLabelChar with
  | '}' :: rest => .ok ⟨label, none, rest⟩
  | ':' :: more =>
    let domain := more.takeWhile (· != '}')
    if isDomainText domain then
      match more.dropWhile (· != '}') with
      | [] => .error .unclosed
      | _ :: rest => .ok ⟨label, some domain, rest⟩
    else .error .invalid
  | [] => .error .unclosed
  | _ => .error .invalid

theorem length_dropWhile_le (p : Char → Bool) (cs : List Char) :
    (cs.dropWhile p).length ≤ cs.length :=
  (List.dropWhile_sublist p).length_le

/-- What follows a placeholder is shorter than what follows its opening brace. -/
theorem readSlot_rest_lt {cs : List Char} {s : SlotText} (h : readSlot cs = .ok s) :
    s.rest.length < cs.length := by
  have hlabel := length_dropWhile_le isLabelChar cs
  unfold readSlot at h
  split at h
  · next rest heq =>
    cases h
    simp only [heq, List.length_cons] at hlabel
    simp only
    omega
  · next more heq =>
    simp only [heq, List.length_cons] at hlabel
    have hmore := length_dropWhile_le (· != '}') more
    by_cases hd : isDomainText (more.takeWhile (· != '}')) = true
    · simp only [hd, if_true] at h
      split at h
      · cases h
      · next rest hrest =>
        cases h
        simp only [hrest, List.length_cons] at hmore
        simp only
        omega
    · simp [hd] at h
  · cases h
  · cases h

/-! ## Scanning -/

/-- The symbols of a template whose first character has byte offset `at`. -/
def scan (position : Nat) (cs : List Char) : Except PatternError (List Symbol) :=
  match cs with
  | [] => .ok []
  | ['\\'] => .ok [.literal '\\']
  | '\\' :: c :: rest => do
    return .literal c :: (← scan (position + 1 + c.utf8Size) rest)
  | '{' :: '{' :: rest => do return .literal '{' :: (← scan (position + 2) rest)
  | '}' :: '}' :: rest => do return .literal '}' :: (← scan (position + 2) rest)
  | '{' :: rest =>
    if rest.head?.any startsLabel then
      match h : readSlot rest with
      | .ok s => do
        have := readSlot_rest_lt h
        let tail ← scan (position + s.width) s.rest
        return .slot position (String.ofList s.label) (s.domain.map String.ofList) :: tail
      | .error fault =>
        .error (.malformed fault position (some (String.ofList (rest.takeWhile isLabelChar))))
    else do return .strayOpen position :: (← scan (position + 1) rest)
  | '}' :: rest => do return .strayClose position :: (← scan (position + 1) rest)
  | c :: rest => do return .literal c :: (← scan (position + c.utf8Size) rest)
termination_by cs.length

/-- Joins each run of literal characters to one token. -/
def merge : List Symbol → List Token
  | [] => []
  | .literal c :: rest =>
    match merge rest with
    | .literal cs :: more => .literal (c :: cs) :: more
    | more => .literal [c] :: more
  | .slot position label domain :: rest => .slot position label domain :: merge rest
  | .strayOpen position :: rest => .strayOpen position :: merge rest
  | .strayClose position :: rest => .strayClose position :: merge rest

/-- The tokens of a template. -/
def tokens (template : String) : Except PatternError (List Token) :=
  (scan 0 template.toList).map merge

end PlainSteps.Template
