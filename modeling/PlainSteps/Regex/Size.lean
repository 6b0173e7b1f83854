import PlainSteps.Regex.Normal
import PlainSteps.Regex.Tally

/-!
# The size of an expression

The size of an expression is that of the programs that match it byte by byte in UTF-8, one for each
direction. Expressions beyond `Regex.sizeLimit` are refused.

* `Regex.count?`: counts the instructions of an expression.
* `Regex.isWordList`: whether an expression is a choice that is matched without a program.
* `Regex.fits`: whether an expression is within the limit.

Expressions that are repeated are counted pass by pass, since instructions of classes are remembered
by their numbers; counting ends where the limit has been passed.
-/

namespace PlainSteps

namespace Regex

variable {ν : Type}

/-- The greatest size of an expression. -/
def sizeLimit : Nat := 10485760

/-- The bytes of a text, in the order in which they are read. -/
def bytesOf (d : Direction) (cs : List Char) : List Nat :=
  let bytes := cs.flatMap fun c => Utf8.bytes c.toNat
  match d with
  | .forwards => bytes
  | .backwards => bytes.reverse

/-- The text that an expression matches, if it is a text. -/
def text? : Regex ν → Option (List Char)
  | .text cs => some cs
  | _ => none

/-- The texts between which an expression chooses, if all its branches are texts. -/
def texts? (r : Regex ν) : Option (List (List Char)) := r.branches.mapM text?

/-! ## Repetitions -/

/-- Counts a number of passes; `none` beyond the limit. -/
def countPasses? (pass : Tally → Option Tally) : Nat → Tally → Option Tally
  | 0, t => some t
  | n + 1, t => if t.size ≤ sizeLimit then (pass t).bind (countPasses? pass n) else none

/-- Counts exactly `n` passes: one instruction, if there is none. -/
def countExactly? (pass : Tally → Option Tally) (n : Nat) (t : Tally) : Option Tally :=
  if n = 0 then some (t.add 1) else countPasses? pass n t

/-- Counts a repetition. -/
def countRepeated? (pass : Tally → Option Tally) (consumes : Bool) (least : Nat)
    (most : Option Nat) (t : Tally) : Option Tally :=
  match least, most with
  | 0, none =>
    if consumes then pass (t.addFork 2)
    else (pass t).map fun t => ((t.addFork 2).addFork 2).add 1
  | n, none => (countPasses? pass n t).map (·.addFork 2)
  | 0, some 1 => (pass (t.addFork 2)).map (·.add 1)
  | n, some m =>
    if n = m then countExactly? pass n t
    else
      (countExactly? pass n t).bind fun t =>
        countPasses? (fun t => pass (t.addFork 2)) (m - n) (t.add 1)

/-! ## Expressions -/

/-- Where an expression stands. -/
inductive Standing where
  | alone
  /-- It is one of several in a row. -/
  | inSequence
  /-- It is a branch of a fork. -/
  | inChoice
  /-- It is the second branch of a fork, after which the fork itself comes. -/
  | asSecond

/-- Counts what belongs to an expression where it stands: a branch of a fork is in its list. -/
def Standing.close (standing : Standing) (t : Tally) : Tally :=
  match standing with
  | .alone | .inSequence => t
  | .inChoice => t.addBranches 1
  | .asSecond => (t.addFork 1).add 1

/-- Counts the instructions of an expression; `none` only beyond the limit. In a sequence the empty
expression has none, and a choice within a choice has no fork of its own. -/
def count? (d : Direction) : Regex ν → Standing → Tally → Option Tally
  | .empty, .inSequence, t => some t
  | .empty, standing, t => some (standing.close (t.add 1))
  | .place _, standing, t => some (standing.close (t.add 1))
  | .text cs, standing, t => some (standing.close (t.add (bytesOf d cs).length))
  | .oneOf set, standing, t => some (standing.close (t.addClass d set.toSpans))
  | .cat r s, standing, t => do
    let u ← match d with
      | .forwards => (r.count? d .inSequence t).bind (s.count? d .inSequence)
      | .backwards => (s.count? d .inSequence t).bind (r.count? d .inSequence)
    match standing with
    | .inSequence => return u
    | _ => return standing.close (if u = t then t.add 1 else u)
  | .alt r s, .inChoice, t => (r.count? d .inChoice t).bind (s.count? d .inChoice)
  | .alt r s, .asSecond, t => (r.count? d .asSecond t).bind (s.count? d .inChoice)
  | .alt r s, _, t =>
    match (Regex.alt r s).texts? with
    | some texts => some (t.addTexts (texts.map (bytesOf d)))
    | none => (r.count? d .inChoice t).bind (s.count? d .asSecond)
  | .group r, standing, t => r.count? d standing t
  | .named _ r, standing, t =>
    match d with
    | .forwards => (r.count? d .alone (t.add 1)).map fun t => standing.close (t.add 1)
    | .backwards => (r.count? d .alone t).map standing.close
  | .times r least most _, standing, t =>
    (countRepeated? (r.count? d .alone) r.consumes least most t).map standing.close

/-- Whether each match lies at a place that meets a condition before or, backwards, after it. -/
def isTied (d : Direction) (p : Place) : Regex ν → Bool
  | .place q => p == q
  | .cat r s =>
    match d with
    | .forwards => r.isTied d p || (r.isHollow && s.isTied d p)
    | .backwards => s.isTied d p || (s.isHollow && r.isTied d p)
  | .alt r s => r.isTied d p && s.isTied d p
  | .group r | .named _ r => r.isTied d p
  | .times r least _ _ => 0 < least && r.isTied d p
  | .empty | .text _ | .oneOf _ => false

/-- Counts the instructions of the program for a whole expression; `none` only beyond the limit. The
program records, forwards, where a match starts and ends; where a match may lie anywhere, it first
skips any number of bytes. -/
def countWhole? (d : Direction) (r : Regex ν) : Option Tally :=
  let t : Tally := ⟨0, 0⟩
  let skip := ((t.addFork 2).add 1).addRanges 1
  match d with
  | .forwards =>
    (r.count? d .alone ((if r.isTied d .start then t.add 1 else skip).add 1)).map (·.add 2)
  | .backwards => (r.count? d .alone (if r.isTied d .stop then t.add 1 else skip)).map (·.add 1)

/-- Whether an expression is a choice between so many texts that they are looked up together, for
which no program is needed. -/
def isWordList (r : Regex ν) : Bool := r.texts?.any (3000 ≤ ·.length)

/-- Whether an expression is within the limit. -/
def fits (r : Regex ν) : Bool :=
  r.isWordList
    || [Direction.forwards, .backwards].all fun d => (r.countWhole? d).any (·.size ≤ sizeLimit)

end Regex

end PlainSteps
