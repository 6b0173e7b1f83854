import PlainSteps.Regex.Normal

/-!
# Programs of expressions

A program is the graph of an expression: instructions that go on with others.

* `Instruction`: what a program does at a place of a text.
* `Program`: the instructions, and the one with which it begins.
* `Program.ofRegex`: the program of an expression.

A program is built from its end: the instructions of a part are added once those that follow it are
there. A repetition without bound goes back to its own fork.
-/

namespace PlainSteps

/-- What a program does at a place. Groups are known by names of type `ν`. -/
inductive Instruction (ν : Type) where
  /-- The match ends here. -/
  | accept
  /-- Goes on after the next character, if that is in a set. -/
  | consume (set : CharSet) (next : Nat)
  /-- Goes on if the place meets a condition. -/
  | meet (p : Place) (next : Nat)
  /-- A group opens. -/
  | opening (next : Nat)
  /-- The group that has opened last closes. -/
  | closing (name : ν) (next : Nat)
  /-- Goes on with either of two instructions, of which the first is preferred. -/
  | fork (first second : Nat)
  deriving Repr

/-- A program. -/
structure Program (ν : Type) where
  /-- The instructions, each known by its index. -/
  code : Array (Instruction ν)
  /-- The first instruction. -/
  entry : Nat

namespace Program

variable {ν : Type}

/-- The program that begins with one more instruction. -/
def add (code : Array (Instruction ν)) (i : Instruction ν) : Program ν :=
  let entry := code.size
  ⟨code.push i, entry⟩

/-- A fork, in which another pass is preferred when greedy. -/
def choice (greedy : Bool) (pass next : Nat) : Instruction ν :=
  if greedy then .fork pass next else .fork next pass

/-- Any number of passes, in front of a program: the first pass, after which the program forks; with
the number of the fork. -/
def loop (body : Program ν → Program ν) (greedy : Bool) : Program ν → Program ν × Nat
  | ⟨code, next⟩ =>
    let fork := code.size
    let ⟨code, pass⟩ := body ⟨code.push (.fork next next), fork⟩
    (⟨code.setIfInBounds fork (choice greedy pass next), pass⟩, fork)

/-- A number of equal parts, in front of a program. -/
def copies (body : Program ν → Program ν) : Nat → Program ν → Program ν
  | 0, p => p
  | n + 1, p => copies body n (body p)

/-- A choice between another pass and `stop`, in front of a program that begins with the pass. -/
def orStop (greedy : Bool) (stop : Nat) : Program ν → Program ν
  | ⟨code, pass⟩ => add code (choice greedy pass stop)

/-- A repetition, in front of a program. Each pass that may be left out can be followed by what
comes after all. -/
def passes (body : Program ν → Program ν) (consumes : Bool) (least : Nat) (most : Option Nat)
    (greedy : Bool) : Program ν → Program ν
  | ⟨code, next⟩ =>
    match least, most with
    | 0, none =>
      let (⟨code, pass⟩, fork) := loop body greedy ⟨code, next⟩
      if consumes then ⟨code, fork⟩ else orStop greedy next ⟨code, pass⟩
    | n + 1, none => copies body n (loop body greedy ⟨code, next⟩).1
    | n, some m =>
      copies body n (copies (fun p => orStop greedy next (body p)) (m - n) ⟨code, next⟩)

/-- An expression, in front of a program. -/
def prepend : Regex ν → Program ν → Program ν
  | .empty, p => p
  | .text cs, p => cs.foldr (fun c ⟨code, next⟩ => add code (.consume (.char c) next)) p
  | .oneOf set, ⟨code, next⟩ => add code (.consume set next)
  | .place condition, ⟨code, next⟩ => add code (.meet condition next)
  | .cat r s, p => prepend r (prepend s p)
  | .alt r s, ⟨code, next⟩ =>
    let ⟨code, second⟩ := prepend s ⟨code, next⟩
    let ⟨code, first⟩ := prepend r ⟨code, next⟩
    add code (.fork first second)
  | .group r, p => prepend r p
  | .named name r, ⟨code, next⟩ =>
    let ⟨code, body⟩ := prepend r (add code (.closing name next))
    add code (.opening body)
  | .times r least most greedy, p => passes (prepend r) r.consumes least most greedy p

/-- The program of an expression. -/
def ofRegex (r : Regex ν) : Program ν := prepend r ⟨#[.accept], 0⟩

end Program

end PlainSteps
