import PlainSteps.Regex.Program

/-!
# Running a program over a text

A program is at several instructions at once, one for each thread, and reads a text from its start
to its end. Threads are kept in order of preference, and at each place at most one of them, the
preferred one, enters an instruction: this bounds the work, and ends repetitions of what matches the
empty text.

* `Thread`: an instruction, with the groups recorded on the way there.
* `Visited`: the instructions that threads have entered at a place.
* `Program.follow`: takes the threads past the next character.
* `Program.search?`: where the groups of the preferred match lie, of those that start leftmost.
-/

namespace PlainSteps

/-- A thread of a program. -/
structure Thread (ν : Type) where
  /-- The instruction that it is to enter. -/
  target : Nat
  /-- Where the groups that have not closed have opened, the latest first. -/
  opened : List Nat
  /-- The places between which the groups that have closed lie, the latest first. -/
  found : List (ν × Nat × Nat)

namespace Thread

variable {ν : Type}

/-- The thread at another instruction. -/
def goTo (t : Thread ν) (next : Nat) : Thread ν := { t with target := next }

/-- The thread after a group has opened at a place. -/
def openGroup (t : Thread ν) (position next : Nat) : Thread ν :=
  { t with target := next, opened := position :: t.opened }

/-- The thread after the group that opened last has closed at a place. -/
def closeGroup (t : Thread ν) (name : ν) (position next : Nat) : Thread ν :=
  match t.opened with
  | start :: opened => ⟨next, opened, (name, start, position) :: t.found⟩
  | [] => t.goTo next

end Thread

/-- The instructions entered at a place: those that are stamped with its number. -/
structure Visited where
  stamps : Array Nat
  now : Nat

namespace Visited

/-- No instruction of a program with `size` of them. -/
def nowhere (size : Nat) : Visited := ⟨Array.replicate size 0, 1⟩

/-- No instruction, at the next place. -/
def next (v : Visited) : Visited := { v with now := v.now + 1 }

/-- Whether an instruction has been entered. -/
def has (v : Visited) (i : Nat) : Bool := v.stamps.getD i 0 == v.now

/-- With one more instruction. -/
def add (v : Visited) (i : Nat) : Visited := { v with stamps := v.stamps.setIfInBounds i v.now }

end Visited

/-- A place of a text. -/
structure Spot where
  position : Nat
  /-- The character before the place. -/
  before : Option Char
  /-- The character after it. -/
  after : Option Char

/-- What threads come to at a place. -/
structure Reached (ν : Type) where
  /-- The threads that go on after the next character, the preferred one last. -/
  onward : List (Thread ν)
  /-- The groups of the preferred match that ends at the place; threads after it are dropped. -/
  found : Option (List (ν × Nat × Nat))
  visited : Visited

namespace Program

variable {ν : Type}

/-- Takes threads, the preferred one first, past the next character. Each round takes one thread on
to its next instruction and spends one unit of `fuel`. -/
def followWithin (p : Program ν) (spot : Spot) :
    (fuel : Nat) → List (Thread ν) → (onward : List (Thread ν)) → Visited → Reached ν
  | 0, _, onward, v => ⟨onward, none, v⟩
  | _, [], onward, v => ⟨onward, none, v⟩
  | fuel + 1, t :: ts, onward, v =>
    if v.has t.target then followWithin p spot fuel ts onward v
    else
      let entered := v.add t.target
      match p.code[t.target]? with
      | none => followWithin p spot fuel ts onward entered
      | some .accept => ⟨onward, some t.found, entered⟩
      | some (.consume set next) =>
        let onward := if spot.after.any set.contains then t.goTo next :: onward else onward
        followWithin p spot fuel ts onward entered
      | some (.meet condition next) =>
        let ts := if condition.holds spot.before spot.after then t.goTo next :: ts else ts
        followWithin p spot fuel ts onward entered
      | some (.opening next) =>
        followWithin p spot fuel (t.openGroup spot.position next :: ts) onward entered
      | some (.closing name next) =>
        followWithin p spot fuel (t.closeGroup name spot.position next :: ts) onward entered
      | some (.fork first second) =>
        followWithin p spot fuel (t.goTo first :: t.goTo second :: ts) onward entered

/-- Takes threads, the preferred one first, past the next character. An instruction is entered once
and goes on with two others at most, so that no thread is left when the fuel is spent. -/
def follow (p : Program ν) (spot : Spot) (threads : List (Thread ν)) (v : Visited) : Reached ν :=
  followWithin p spot (threads.length + 2 * p.code.size + 1) threads [] v

/-- Runs threads over the rest of a text. As long as no match has been found, one may also start at
the place; one that is found later, by a thread that was preferred, replaces it. -/
def scan? (p : Program ν) : (before : Option Char) → (position : Nat) → (rest : List Char) →
    List (Thread ν) → (best : Option (List (ν × Nat × Nat))) → Visited →
    Option (List (ν × Nat × Nat))
  | before, position, rest, threads, best, v =>
    let threads := if best.isNone then threads ++ [⟨p.entry, [], []⟩] else threads
    let ⟨onward, found, visited⟩ := p.follow ⟨position, before, rest.head?⟩ threads v
    let best := found <|> best
    match rest with
    | [] => best
    | c :: more =>
      if onward.isEmpty && best.isSome then best
      else scan? p (some c) (position + 1) more onward.reverse best visited.next

/-- The places between which the groups of a match lie: of those matches that start leftmost, the
preferred one. The latest place of a group comes first. -/
def search? (p : Program ν) (text : List Char) : Option (List (ν × Nat × Nat)) :=
  p.scan? none 0 text [] none (.nowhere p.code.size)

end Program

end PlainSteps
