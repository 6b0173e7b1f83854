import PlainSteps.World.Basic

/-!
# Calls of a world

The steps of a feature act on a world by calls. Some of them visit one of its contexts, and what a
visitor does there may depend on what it has been told before. A world is held by handles: a copy of
a handle holds the same world.

* `ContextCall`, `Context.call`: what a context can be told and asked.
* `Visit`, `Visit.run`: a visitor of a context, who may enter the contexts within it.
* `World.Place`, `World.onPlace`: the contexts of a world that can be visited.
* `WorldCall`, `World.call`: what a world can be told and asked.
* `Worlds`, `Worlds.call`: worlds and the handles that hold them.
-/

namespace PlainSteps

/-! ## Contexts -/

/-- A call of a context, by the type of its answer. -/
inductive ContextCall : Type → Type where
  | name : ContextCall String
  | set (label : String) (value : StoredValue) : ContextCall Unit
  | get? (label : String) : ContextCall (Option StoredValue)
  /-- Forgets a value, which is the answer. -/
  | remove (label : String) : ContextCall (Option StoredValue)
  | labels : ContextCall (List String)
  /-- The number of values. -/
  | size : ContextCall Nat
  | isEmpty : ContextCall Bool
  /-- A context within this one, which is not made where it is missing. -/
  | child? (name : String) : ContextCall (Option Context)
  | setCurrent (label : String) : ContextCall Unit
  | currentLabel : ContextCall (Option String)
  | current? : ContextCall (Option StoredValue)
  | clear : ContextCall Unit

/-- The answer to a call, and the context after it. -/
def Context.call {α : Type} (c : Context) : ContextCall α → α × Context
  | .name => (c.name, c)
  | .set label value => ((), c.set label value)
  | .get? label => (c.get? label, c)
  | .remove label => (c.get? label, c.remove label)
  | .labels => (c.values.names, c)
  | .size => (c.values.size, c)
  | .isEmpty => (c.values.size == 0, c)
  | .child? name => (c.child? name, c)
  | .setCurrent label => ((), c.setCurrent label)
  | .currentLabel => (c.currentLabel, c)
  | .current? => (c.current?, c)
  | .clear => ((), c.clear)

/-- What a visitor of a context does. -/
inductive Visit (α : Type) : Type 1 where
  | done (answer : α)
  /-- Makes a call in the context that a list of names leads to, where all that are missing on the
  way are made, and goes on with the answer. -/
  | call {β : Type} (path : List String) (c : ContextCall β) (next : β → Visit α)

/-- The answer of a visitor, and the context after the visit. -/
def Visit.run {α : Type} : Visit α → Context → α × Context
  | .done answer, context => (answer, context)
  | .call path c next, context =>
    let (told, context) := context.modifyAt path (·.call c)
    (next told).run context

/-! ## Worlds -/

/-- A context of a world that can be visited. -/
inductive World.Place where
  | shared
  | domain (name : String)
  | path (name : String)
  deriving DecidableEq, Repr

/-- Changes the context of a place. -/
def World.onPlace {α : Type} (w : World) (place : World.Place) (change : Context → α × Context) :
    α × World :=
  match place with
  | .shared => w.onShared change
  | .domain name => w.onDomain name change
  | .path name => w.onPath name change

/-- A call of a world, by the type of its answer. -/
inductive WorldCall : Type → Type 1 where
  | tag : WorldCall String
  | set (label : String) (value : StoredValue) : WorldCall Unit
  | get? (label : String) : WorldCall (Option StoredValue)
  | setCurrent (domain label : String) (value : StoredValue) : WorldCall Unit
  | current? (domain : String) : WorldCall (Option StoredValue)
  | visit {α : Type} (place : World.Place) (v : Visit α) : WorldCall α
  | setFeatureTitle (title : String) : WorldCall Unit
  | featureTitle : WorldCall (Option String)
  | setScenarioTitle (title : String) : WorldCall Unit
  | scenarioTitle : WorldCall (Option String)
  | resetFeature : WorldCall Unit

/-- The answer to a call, and the world after it. -/
def World.call {α : Type} (w : World) : WorldCall α → α × World
  | .tag => (w.tag, w)
  | .set label value => ((), w.set label value)
  | .get? label => (w.get? label, w)
  | .setCurrent domain label value => ((), w.setCurrent domain label value)
  -- asking makes the context
  | .current? domain => (w.current? domain, (w.onDomain domain ((), ·)).2)
  | .visit place v => w.onPlace place v.run
  | .setFeatureTitle title => ((), { w with featureTitle := some title })
  | .featureTitle => (w.featureTitle, w)
  | .setScenarioTitle title => ((), { w with scenarioTitle := some title })
  | .scenarioTitle => (w.scenarioTitle, w)
  | .resetFeature => ((), w.resetFeature)

/-! ## Handles -/

/-- Worlds with the handles that hold them. -/
structure Worlds where
  worlds : List World
  /-- The index of the world that a handle holds. -/
  handles : List Nat
  /-- A handle holds a world. -/
  held : ∀ number ∈ handles, number < worlds.length

namespace Worlds

/-- No worlds. -/
def none : Worlds := ⟨[], [], fun _ h => nomatch h⟩

/-- Makes a world and a handle for it. -/
def make (s : Worlds) (tag : String) : Worlds where
  worlds := s.worlds ++ [.new tag]
  handles := s.handles ++ [s.worlds.length]
  held := by
    intro number h
    rw [List.length_append, List.length_singleton]
    rcases List.mem_append.1 h with h | h
    · exact Nat.lt_succ_of_lt (s.held number h)
    · rw [List.mem_singleton.1 h]
      exact Nat.lt_succ_self _

/-- Makes a copy of a handle. -/
def clone (s : Worlds) (handle : Nat) : Worlds where
  worlds := s.worlds
  handles := s.handles ++ s.handles[handle]?.toList
  held := by
    intro number h
    rcases List.mem_append.1 h with h | h
    · exact s.held number h
    · exact s.held number (List.mem_of_getElem? (Option.mem_toList.1 h))

/-- Makes a call through a handle; there is no answer where there is no such handle. -/
def call {α : Type} (s : Worlds) (handle : Nat) (c : WorldCall α) : Option α × Worlds :=
  match h : s.handles[handle]? with
  | .none => (.none, s)
  | some number =>
    have lt := s.held number (List.mem_of_getElem? h)
    let (answer, w) := s.worlds[number].call c
    (some answer, ⟨s.worlds.set number w, s.handles, by simpa using s.held⟩)

end Worlds

end PlainSteps
