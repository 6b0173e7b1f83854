import Mathlib.Data.List.DropRight
import Mathlib.Data.List.Induction
import PlainSteps.Proofs.World.Changes
import PlainSteps.World.Call

/-!
# Calls in turn

Calls of a world are addressed to one of its contexts, or to none. What a context holds, and so what
any call that is addressed to it answers, comes from the calls that have been addressed to it since
the world was last reset, whichever handles they were made through.

* `WorldCall.place?`: the context to which a call is addressed.
* `WorldCall.exists_onPlace`: a call that is addressed to a context changes this one only.
* `World.own`: the calls of a context since the last reset.
* `World.context_replay`: a context after calls is that after its own.
* `Worlds.context_run`: the same through handles.

Proof-only: no module that runs imports this one.
-/

namespace PlainSteps

/-! ## Contexts within contexts -/

namespace Context

theorem child_setChild (c : Context) (name other : String) (d : Context) :
    (c.setChild name d).child other = if other = name then d else c.child other := by
  show ((c.children.insert name d).get? other).getD (new other) = _
  rw [Table.get?_insert]
  split <;> rfl

variable {α : Type}

/-- A change of a context deep within one leaves the name of that one. -/
theorem name_modifyAt (c : Context) (path : List String) {change : Context → α × Context}
    (h : ∀ d : Context, (change d).2.name = d.name) :
    (c.modifyAt path change).2.name = c.name := by
  cases path with
  | nil => exact h c
  | cons name rest => rfl

theorem name_call (c : Context) (k : ContextCall α) : (c.call k).2.name = c.name := by
  cases k <;> rfl

/-- A visitor leaves the name. -/
theorem name_run (v : Visit α) (c : Context) : (v.run c).2.name = c.name := by
  induction v generalizing c with
  | done answer => rfl
  | call path k next ih => exact (ih _ _).trans (name_modifyAt c path fun d => name_call d k)

end Context

/-! ## Contexts of a world -/

namespace World

/-- The context of a place; it is empty where it has not been made. -/
def context (w : World) : Place → Context
  | .shared => w.shared
  | .domain name => w.domains.child name
  | .path name => w.paths.child name

variable {α : Type}

theorem answer_onPlace (w : World) (place : Place) (change : Context → α × Context) :
    (w.onPlace place change).1 = (change (w.context place)).1 := by
  cases place <;> rfl

/-- A change of the context of a place changes no other. -/
theorem context_onPlace (w : World) (place other : Place) (change : Context → α × Context) :
    (w.onPlace place change).2.context other =
      if other = place then (change (w.context place)).2 else w.context other := by
  cases place with
  | shared => cases other <;> rfl
  | domain name =>
    cases other with
    | domain other =>
      show (w.domains.setChild name _).child other = _
      simp only [Context.child_setChild, Place.domain.injEq]
      rfl
    | _ => rfl
  | path name =>
    cases other with
    | path other =>
      show (w.paths.setChild name _).child other = _
      simp only [Context.child_setChild, Place.path.injEq]
      rfl
    | _ => rfl

theorem Changes.onPlace (w : World) (place : Place) (change : Context → α × Context) :
    w.Changes (w.onPlace place change).2 := by
  cases place with
  | shared => exact .onShared w change
  | domain name => exact .onDomain w name change
  | path name => exact .onPath w name change

theorem shared_name_onPlace (w : World) (place : Place) {change : Context → α × Context}
    (h : ∀ c : Context, (change c).2.name = c.name) :
    (w.onPlace place change).2.shared.name = w.shared.name := by
  cases place with
  | shared => exact h w.shared
  | _ => rfl

end World

/-! ## Calls -/

namespace WorldCall

variable {α : Type}

/-- The context to which a call is addressed. -/
def place? : WorldCall α → Option World.Place
  | .set .. | .get? _ => some .shared
  | .setCurrent domain .. | .current? domain => some (.domain domain)
  | .visit place _ => some place
  | .tag | .setFeatureTitle _ | .featureTitle | .setScenarioTitle _ | .scenarioTitle
  | .resetFeature => none

/-- Whether a call resets the world. -/
def isReset : WorldCall α → Bool
  | .resetFeature => true
  | _ => false

/-- A call that is addressed to a context changes this one only, and leaves its name. -/
theorem exists_onPlace {c : WorldCall α} {place : World.Place} (h : c.place? = some place) :
    ∃ change : Context → α × Context, (∀ d : Context, (change d).2.name = d.name) ∧
      ∀ w : World, w.call c = w.onPlace place change := by
  cases c with
  | set label value =>
    cases h
    exact ⟨fun d => ((), d.set label value), fun _ => rfl, fun _ => rfl⟩
  | get? label =>
    cases h
    exact ⟨fun d => (d.get? label, d), fun _ => rfl, fun _ => rfl⟩
  | setCurrent domain label value =>
    cases h
    exact ⟨fun d => ((), (d.set label value).setCurrent label), fun _ => rfl, fun _ => rfl⟩
  | current? domain =>
    cases h
    exact ⟨fun d => (d.current?, d), fun _ => rfl, fun _ => rfl⟩
  | visit place v =>
    cases h
    exact ⟨v.run, fun d => d.name_run v, fun _ => rfl⟩
  | _ => cases h

/-- What a call that is addressed to a context answers and does there is up to this context. -/
theorem call_congr {c : WorldCall α} {place : World.Place} (h : c.place? = some place)
    {v w : World} (same : v.context place = w.context place) :
    (v.call c).1 = (w.call c).1 ∧ (v.call c).2.context place = (w.call c).2.context place := by
  obtain ⟨change, -, eq⟩ := exists_onPlace h
  rw [eq, eq]
  simp only [World.answer_onPlace, World.context_onPlace, if_true, same, and_self]

/-- A call that is not addressed to a context leaves it unless it resets the world. -/
theorem context_call_of_ne {c : WorldCall α} {place : World.Place} (h : c.place? ≠ some place)
    (kept : c.isReset = false) (w : World) : (w.call c).2.context place = w.context place := by
  cases addressed : c.place? with
  | some other =>
    obtain ⟨change, -, eq⟩ := exists_onPlace addressed
    rw [eq, World.context_onPlace, if_neg]
    rintro rfl
    exact h addressed
  | none =>
    cases c with
    | resetFeature => cases kept
    | set | get? | setCurrent | current? | visit => cases addressed
    | _ => cases place <;> rfl

/-- A call makes changes, none of them to the name of the context of the shared variables. -/
theorem changes_call (w : World) (c : WorldCall α) :
    w.Changes (w.call c).2 ∧ (w.call c).2.shared.name = w.shared.name := by
  cases addressed : c.place? with
  | some place =>
    obtain ⟨change, names, eq⟩ := exists_onPlace addressed
    rw [eq]
    exact ⟨.onPlace w place change, w.shared_name_onPlace place names⟩
  | none =>
    cases c with
    | resetFeature => exact ⟨.reset .refl, rfl⟩
    | setFeatureTitle title => exact ⟨.featureTitle .refl _, rfl⟩
    | setScenarioTitle title => exact ⟨.scenarioTitle .refl _, rfl⟩
    | tag | featureTitle | scenarioTitle => exact ⟨.refl, rfl⟩
    | _ => cases addressed

end WorldCall

/-! ## Calls in turn -/

/-- A call with any answer. -/
abbrev AnyCall : Type 1 := (α : Type) × WorldCall α

namespace World

/-- The world after calls in turn. -/
def replay (w : World) (calls : List AnyCall) : World := calls.foldl (fun w c => (w.call c.2).2) w

/-- The calls since the world was last reset. -/
def recent (calls : List AnyCall) : List AnyCall := calls.rtakeWhile (!·.2.isReset)

/-- The calls since then that are addressed to the context of a place. -/
def own (place : Place) (calls : List AnyCall) : List AnyCall :=
  (recent calls).filter (·.2.place? = some place)

theorem replay_concat (w : World) (calls : List AnyCall) (c : AnyCall) :
    w.replay (calls ++ [c]) = ((w.replay calls).call c.2).2 := List.foldl_concat ..

theorem changes_replay (w : World) (calls : List AnyCall) :
    w.Changes (w.replay calls) ∧ (w.replay calls).shared.name = w.shared.name := by
  induction calls using List.reverseRecOn with
  | nil => exact ⟨.refl, rfl⟩
  | append_singleton calls c ih =>
    rw [replay_concat]
    obtain ⟨changes, name⟩ := WorldCall.changes_call (w.replay calls) c.2
    exact ⟨ih.1.trans changes, name.trans ih.2⟩

/-- After calls the reset world is a new one. -/
theorem resetFeature_replay (tag : String) (calls : List AnyCall) :
    ((new tag).replay calls).resetFeature = new tag := by
  obtain ⟨changes, name⟩ := (new tag).changes_replay calls
  rw [changes.resetFeature_eq, name]
  rfl

theorem own_concat_of_reset (place : Place) (calls : List AnyCall) {c : AnyCall}
    (h : c.2.isReset = true) : own place (calls ++ [c]) = [] := by
  rw [own, recent, List.rtakeWhile_concat_neg]
  · rfl
  · simp [h]

theorem own_concat (place : Place) (calls : List AnyCall) {c : AnyCall}
    (h : c.2.isReset = false) :
    own place (calls ++ [c]) = own place calls ++ [c].filter (·.2.place? = some place) := by
  rw [own, recent, List.rtakeWhile_concat_pos, List.filter_append]
  · rfl
  · simp [h]

/-- The context of a place after calls is what it is after its own calls since the last reset. -/
theorem context_replay (tag : String) (calls : List AnyCall) (place : Place) :
    ((new tag).replay calls).context place = ((new tag).replay (own place calls)).context place := by
  -- from the end: a reset leaves no own calls, and any other call adds itself or nothing to them
  induction calls using List.reverseRecOn with
  | nil => rfl
  | append_singleton calls c ih =>
    rw [replay_concat]
    obtain ⟨α, c⟩ := c
    cases kept : c.isReset with
    | true =>
      rw [own_concat_of_reset place calls kept]
      cases c with
      | resetFeature =>
        show ((new tag).replay calls).resetFeature.context place = _
        rw [resetFeature_replay]
        rfl
      | _ => cases kept
    | false =>
      rw [own_concat place calls kept]
      by_cases addressed : c.place? = some place
      · rw [List.filter_cons_of_pos (by simpa using addressed), List.filter_nil, replay_concat]
        exact (c.call_congr addressed ih).2
      · rw [List.filter_cons_of_neg (by simpa using addressed), List.filter_nil, List.append_nil]
        exact (c.context_call_of_ne addressed kept _).trans ih

end World

/-! ## Calls through handles -/

/-- What can be done with worlds and their handles. -/
inductive HandleCall : Type 1 where
  | make (tag : String)
  | clone (handle : Nat)
  | call {α : Type} (handle : Nat) (c : WorldCall α)

namespace Worlds

/-- Worlds and handles after a call. -/
def act (s : Worlds) : HandleCall → Worlds
  | .make tag => s.make tag
  | .clone handle => s.clone handle
  | .call handle c => (s.call handle c).2

/-- Worlds and handles after calls in turn. -/
def run (s : Worlds) (calls : List HandleCall) : Worlds := calls.foldl act s

/-- A call of a world through a handle that holds it. -/
def callOf? (s : Worlds) (number : Nat) : HandleCall → Option AnyCall
  | .call handle c => if s.handles[handle]? = some number then some ⟨_, c⟩ else .none
  | _ => .none

/-- The calls of a world, through whichever handles. -/
def callsOf (number : Nat) : Worlds → List HandleCall → List AnyCall
  | _, [] => []
  | s, c :: rest => (s.callOf? number c).toList ++ callsOf number (s.act c) rest

theorem call_held {α : Type} {s : Worlds} {handle number : Nat} {w : World}
    (held : s.handles[handle]? = some number) (h : s.worlds[number]? = some w) (c : WorldCall α) :
    (s.call handle c).1 = some (w.call c).1 ∧
      (s.call handle c).2.worlds = s.worlds.set number (w.call c).2 := by
  obtain ⟨lt, rfl⟩ := List.getElem?_eq_some_iff.1 h
  unfold call
  split
  · next free => cases free.symm.trans held
  · next other holds =>
    cases holds.symm.trans held
    exact ⟨rfl, rfl⟩

theorem call_free {α : Type} {s : Worlds} {handle : Nat} (free : s.handles[handle]? = .none)
    (c : WorldCall α) : s.call handle c = (.none, s) := by
  unfold call
  split
  · rfl
  · next number holds => cases holds.symm.trans free

/-- A world after one call of any handle. -/
theorem worlds_act {s : Worlds} {number : Nat} {w : World} (h : s.worlds[number]? = some w)
    (c : HandleCall) : (s.act c).worlds[number]? = some (w.replay (s.callOf? number c).toList) := by
  obtain ⟨lt, -⟩ := List.getElem?_eq_some_iff.1 h
  cases c with
  | make tag => exact (List.getElem?_append_left lt).trans h
  | clone handle => exact h
  | @call α handle c =>
    cases held : s.handles[handle]? with
    | none =>
      rw [act, call_free held, callOf?, if_neg (by simp [held])]
      exact h
    | some other =>
      have lt' := s.held other (List.mem_of_getElem? held)
      have there := (call_held held (List.getElem?_eq_getElem lt') c).2
      rw [act, there, callOf?]
      by_cases same : other = number
      · subst same
        rw [if_pos held, List.getElem?_set_self lt]
        cases (List.getElem?_eq_getElem lt').symm.trans h
        rfl
      · rw [if_neg (by simpa [held] using same), List.getElem?_set_ne same]
        exact h

/-- A world after calls of any handles is the world after its own calls. -/
theorem worlds_run {s : Worlds} {number : Nat} {w : World} (h : s.worlds[number]? = some w)
    (calls : List HandleCall) :
    (s.run calls).worlds[number]? = some (w.replay (callsOf number s calls)) := by
  induction calls generalizing s w with
  | nil => exact h
  | cons c rest ih =>
    rw [callsOf, World.replay, List.foldl_append]
    exact ih (worlds_act h c)

/-- What the context of a place holds, and what calls that are addressed to it answer, is the same
as in a new world after only the calls that have been addressed to it since the last reset, through
whichever handles of its world. -/
theorem context_run {s : Worlds} {number : Nat} {tag : String}
    (fresh : s.worlds[number]? = some (.new tag)) (calls : List HandleCall) (place : World.Place) :
    ((s.run calls).worlds[number]?.map (·.context place) =
        some (((World.new tag).replay (World.own place (callsOf number s calls))).context place)) ∧
      ∀ {handle : Nat}, (s.run calls).handles[handle]? = some number →
        ∀ {α : Type} {c : WorldCall α}, c.place? = some place →
          ((s.run calls).call handle c).1 =
            some (((World.new tag).replay (World.own place (callsOf number s calls))).call c).1 := by
  have now := worlds_run fresh calls
  have same := World.context_replay tag (callsOf number s calls) place
  refine ⟨by rw [now, Option.map_some, same], fun {handle} held {α} {c} addressed => ?_⟩
  rw [(call_held held now c).1, (c.call_congr addressed same).1]

/-- Worlds of which the only one is held by two handles. -/
def twoHandles : Worlds := (none.make "run").clone 0

/-- A name as a stored value. -/
def storedName (name : String) : StoredValue := ⟨.text name, some "string", .quoted⟩

/-- Values in places of one name, through both handles, and a reset between them. -/
def sameNames : List HandleCall :=
  [.call 0 (.set "x" (storedName "Ada")), .call 1 .resetFeature,
    .call 1 (.visit (.path "x") (.call ["x"] (.set "x" (storedName "Eve")) .done)),
    .call 0 (.setCurrent "x" "x" (storedName "Bob"))]

/-- Places of one name keep apart. -/
theorem context_run_sameNames :
    ((twoHandles.run sameNames).call 1 (.get? "x")).1 = some .none ∧
      ((twoHandles.run sameNames).call 1 (.current? "x")).1 = some (some (storedName "Bob")) ∧
      ((twoHandles.run sameNames).call 0
        (.visit (.path "x") (.call ["x"] (.get? "x") .done))).1 = some (some (storedName "Eve")) := by
  have fresh : twoHandles.worlds[0]? = some (.new "run") := rfl
  exact ⟨(context_run fresh sameNames .shared).2 rfl rfl,
    (context_run fresh sameNames (.domain "x")).2 rfl rfl,
    (context_run fresh sameNames (.path "x")).2 rfl rfl⟩

end Worlds

end PlainSteps
