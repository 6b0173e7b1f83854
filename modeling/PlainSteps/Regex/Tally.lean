import PlainSteps.Text.Spans
import PlainSteps.Text.Utf8
import Std.Data.TreeMap.Basic

/-!
# Counting the instructions of a program

What is counted of a program that matches a text byte by byte in UTF-8, in one of two directions. An
instruction counts 32, and it counts 8 more for each byte range and 4 more for each branch that it
holds in a list.

* `Tally`: a count, and `Tally.size`.
* `Tally.addClass`: counts the instructions for one character of a set.
* `Tally.addTexts`: counts the instructions that tell several texts apart.

The instructions of a class are shared as far as they are remembered: forwards, what encodings end
with, and backwards, what they start with. They are remembered in slots, in each the latest one.
-/

namespace PlainSteps

/-- The direction in which a program reads a text. -/
inductive Direction where
  | forwards
  | backwards
  deriving DecidableEq, Repr

/-- What is counted of a program. -/
structure Tally where
  /-- The number of instructions. -/
  instructions : Nat
  /-- The size of the lists that they hold. -/
  lists : Nat
  deriving DecidableEq, Repr

namespace Tally

/-- The size of what has been counted. -/
def size (t : Tally) : Nat := 32 * t.instructions + t.lists

/-- With some more instructions that hold no list. -/
def add (count : Nat) (t : Tally) : Tally := { t with instructions := t.instructions + count }

/-- With one more instruction, which holds a list of byte ranges. -/
def addRanges (count : Nat) (t : Tally) : Tally := ⟨t.instructions + 1, t.lists + 8 * count⟩

/-- With some more branches of instructions that have been counted. -/
def addBranches (count : Nat) (t : Tally) : Tally := { t with lists := t.lists + 4 * count }

/-- With one more instruction, which holds a list of branches. -/
def addFork (branches : Nat) (t : Tally) : Tally := (t.add 1).addBranches branches

end Tally

/-! ## Classes -/

/-- A tally with the instructions of a class that are remembered. -/
structure ClassTally where
  tally : Tally
  /-- In each slot, what the latest instruction is made of, and its number. -/
  slots : Std.TreeMap Nat (List Nat × Nat)

namespace ClassTally

/-- The number of slots in which instructions are remembered. -/
def slotCount : Direction → Nat
  | .forwards => 10000
  | .backwards => 1000

/-- The slot, of `count` of them, for an instruction that is made of some numbers. -/
def slotOf (count : Nat) (key : List Nat) : Nat :=
  let mixed : UInt64 :=
    key.foldl (fun h n => (h ^^^ n.toUInt64) * 1099511628211) 14695981039346656037
  mixed.toNat % count

/-- The number of the instruction that is made of some numbers: of the remembered one, or else of
one that is counted by `count`. -/
def intern (d : Direction) (key : List Nat) (count : Tally → Tally) (t : ClassTally) :
    Nat × ClassTally :=
  let slot := slotOf (slotCount d) key
  let known := match t.slots[slot]? with
    | some (kept, number) => if kept = key then some number else none
    | none => none
  match known with
  | some number => (number, t)
  | none =>
    let number := t.tally.instructions
    (number, ⟨count t.tally, t.slots.insert slot (key, number)⟩)

/-- Neighbouring sequences that start with the same range, with what follows it in each. -/
def byFirst : List (List (Nat × Nat)) → List ((Nat × Nat) × List (List (Nat × Nat)))
  | [] => []
  | [] :: rest => byFirst rest
  | (range :: more) :: rest =>
    match byFirst rest with
    | (next, tails) :: groups =>
      if range = next then (range, more :: tails) :: groups
      else (range, [more]) :: (next, tails) :: groups
    | [] => [(range, [more])]

/-- The number of the instruction for sequences of up to `depth` ranges, none of them empty, that go
on with the instruction `stop`. -/
def addSequences (stop : Nat) :
    (depth : Nat) → List (List (Nat × Nat)) → ClassTally → Nat × ClassTally
  | 0, _, t => (stop, t)
  | depth + 1, sequences, t =>
    let groups := byFirst sequences
    let (key, t) := groups.foldl
      (fun (key, t) (range, tails) =>
        let (next, t) :=
          if tails.all (·.isEmpty) then (stop, t) else addSequences stop depth tails t
        (key ++ [range.1, range.2, next], t))
      ([], t)
    intern .forwards key (·.addRanges groups.length) t

/-- Counts one sequence backwards, in front of the instruction `stop`. -/
def addBackwards (stop : Nat) (sequence : List (Nat × Nat)) (t : ClassTally) : ClassTally :=
  (sequence.foldl
    (fun (next, t) range => intern .backwards [next, range.1, range.2] (·.add 1) t) (stop, t)).2

end ClassTally

namespace Tally

/-- Counts the instructions for one character of a set. -/
def addClass (d : Direction) (s : Spans) (t : Tally) : Tally :=
  if s.pieces.all (·.2 ≤ 0x7F) then (t.add 1).addRanges s.pieces.length
  else
    let sequences := s.pieces.flatMap fun (first, last) => Utf8.sequences first last
    match d with
    | .forwards =>
      let stop := t.instructions
      (ClassTally.addSequences stop 4 sequences ⟨t.add 1, ∅⟩).2.tally
    | .backwards =>
      let stop := t.instructions + 1
      let t : ClassTally := ⟨(t.addFork sequences.length).add 1, ∅⟩
      (sequences.foldl (fun t sequence => t.addBackwards stop sequence) t).tally

/-! ## Choices between texts -/

/-- The bytes after a first byte in each of several texts that start with it. -/
def tailsOf (byte : Nat) (texts : List (List Nat)) : List (List Nat) :=
  texts.filterMap fun
    | first :: rest => if first = byte then some rest else none
    | [] => none

/-- The texts between those that have ended. -/
def stretches (texts : List (List Nat)) : List (List (List Nat)) :=
  let ended := texts.takeWhile (·.isEmpty)
  let rest := texts.dropWhile (·.isEmpty)
  if ended.isEmpty then rest.splitOnP (·.isEmpty) else [] :: rest.splitOnP (·.isEmpty)

/-- Counts a fork, with what it forks to, between several texts of at most `depth` bytes of which
one has not ended. Texts between those that have ended share what they start with. -/
def addFrom : (depth : Nat) → List (List Nat) → Tally → Tally
  | 0, _, t => t
  | depth + 1, texts, t =>
    if texts.all (·.isEmpty) then t
    else
      let pieces := stretches texts
      let filled := pieces.filter (! ·.isEmpty)
      filled.foldl
        (fun t piece =>
          let firsts : List Nat := (piece.filterMap (·.head?)).eraseDups
          let t := if firsts.length = 1 then t.add 1 else t.addRanges firsts.length
          firsts.foldl (fun t byte => addFrom depth (tailsOf byte piece) t) t)
        (t.addFork (pieces.length - 1 + filled.length))

/-- Counts the instructions that tell several texts apart, each given by its bytes in the order in
which they are read. -/
def addTexts (texts : List (List Nat)) (t : Tally) : Tally :=
  addFrom (texts.foldl (fun n bytes => max n bytes.length) 0) texts (t.add 1)

end Tally

end PlainSteps
