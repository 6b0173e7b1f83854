import PlainSteps.Number.Text
import PlainSteps.World.Basic

/-!
# Effects

The actions and hooks of steppers read and change a state, may fail, and may crash. What a stepper
keeps for itself is a store of any type.

* `Crash`: what a crash carries, and `Crash.message`.
* `Effect`: a computation that changes a state and may crash; the state outlives the crash.
* `Effect.attempt`: the same computation with the crash as an answer.
* `Session`: the state during a run, which is its world and the store.
-/

namespace PlainSteps

/-- What a crash carries. -/
inductive Crash where
  | text (s : String)
  | integer (n : Int)
  /-- A number in 32 bits. -/
  | single (x : Number)
  /-- A number in 64 bits. -/
  | double (x : Number)
  deriving DecidableEq, Repr

/-- What a crash carries, as text. -/
def Crash.message : Crash → String
  | .text s => s
  | .integer n => toString n
  | .single x => x.plain .single
  | .double x => x.plain .double

/-- A computation that changes a state and may crash. -/
abbrev Effect (τ α : Type) : Type := ExceptT Crash (StateM τ) α

namespace Effect

variable {τ α : Type}

/-- A computation that crashes. -/
def crash (c : Crash) : Effect τ α := throw c

/-- The computation with its crash as an answer. -/
def attempt (x : Effect τ α) : Effect τ (Except Crash α) := fun s =>
  let (answer, s) := x.run.run s
  (.ok answer, s)

/-- Runs a computation from a state. -/
def start (x : Effect τ α) (s : τ) : Except Crash α × τ := x.run.run s

end Effect

/-- A failure that an action or a hook reports, with the failures that caused it. -/
structure Fault where
  message : String
  causes : List String
  deriving DecidableEq, Repr

/-- The state during a run. -/
structure Session (σ : Type) where
  world : World
  /-- What the steppers keep for themselves. -/
  store : σ

namespace Session

variable {σ α : Type}

/-- Reads the world. -/
def readWorld : Effect (Session σ) World := do return (← get).world

/-- Changes the world. -/
def changeWorld (change : World → World) : Effect (Session σ) Unit :=
  modify fun s => { s with world := change s.world }

/-- Runs a computation in a world of its own. -/
def within (world : World) (x : Effect (Session σ) α) : Effect σ α := fun store =>
  let (answer, s) := x.run.run ⟨world, store⟩
  (answer, s.store)

end Session

end PlainSteps
