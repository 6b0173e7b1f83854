import PlainSteps.World.Basic

/-!
# Changes of a world

What can be made of a world by those that hold it, in whatever order. Who visits a context is handed
the context itself, and may put another in its place. Of the outermost contexts only those of the
domains and of the paths are out of reach. So when the world is reset, the name of the context of
the shared variables is what is left of all that has been done to it.

* `World.Changes`: what can be made of a world.
* `World.Changes.set` and others: the operations are changes.
* `World.named`: the world that is new but for the name of the context of the shared variables.
* `World.Changes.resetFeature_eq`: a world that changes have made of a new one is reset to that.

Proof-only: no module that runs imports this one.
-/

namespace PlainSteps

/-- What can be made of a world. Any context may be put in place of that of the shared variables,
of a domain or of a path. -/
inductive World.Changes (w : World) : World → Prop
  | refl : Changes w w
  | shared {v : World} (h : Changes w v) (c : Context) : Changes w { v with shared := c }
  | domain {v : World} (h : Changes w v) (name : String) (c : Context) :
    Changes w { v with domains := v.domains.setChild name c }
  | path {v : World} (h : Changes w v) (name : String) (c : Context) :
    Changes w { v with paths := v.paths.setChild name c }
  | featureTitle {v : World} (h : Changes w v) (title : Option String) :
    Changes w { v with featureTitle := title }
  | scenarioTitle {v : World} (h : Changes w v) (title : Option String) :
    Changes w { v with scenarioTitle := title }
  | reset {v : World} (h : Changes w v) : Changes w v.resetFeature

/-- The world of a run in which nothing has been set, but for the name of the context of the shared
variables. -/
def World.named (tag name : String) : World := { new tag with shared := .new name }

namespace World.Changes

theorem trans {u v w : World} (huv : u.Changes v) (hvw : v.Changes w) : u.Changes w := by
  induction hvw with
  | refl => exact huv
  | shared _ c ih => exact ih.shared c
  | domain _ name c ih => exact ih.domain name c
  | path _ name c ih => exact ih.path name c
  | featureTitle _ title ih => exact ih.featureTitle title
  | scenarioTitle _ title ih => exact ih.scenarioTitle title
  | reset _ ih => exact ih.reset

/-! ### Operations -/

theorem set (w : World) (label : String) (value : StoredValue) : w.Changes (w.set label value) :=
  .shared .refl _

theorem onShared {α : Type} (w : World) (change : Context → α × Context) :
    w.Changes (w.onShared change).2 := .shared .refl _

theorem onDomain {α : Type} (w : World) (domain : String) (change : Context → α × Context) :
    w.Changes (w.onDomain domain change).2 := .domain .refl domain _

theorem onPath {α : Type} (w : World) (path : String) (change : Context → α × Context) :
    w.Changes (w.onPath path change).2 := .path .refl path _

/-! ### Resetting -/

/-- The names of the run and of the contexts of the domains and the paths stay. -/
theorem names_eq {w v : World} (h : w.Changes v) :
    v.tag = w.tag ∧ v.domains.name = w.domains.name ∧ v.paths.name = w.paths.name := by
  induction h with
  | refl => exact ⟨rfl, rfl, rfl⟩
  | _ => assumption

/-- Whatever has been made of a new world, its reset leaves the name of the context of the shared
variables and nothing else. -/
theorem resetFeature_eq {tag : String} {v : World} (h : (World.new tag).Changes v) :
    v.resetFeature = .named tag v.shared.name := by
  obtain ⟨rfl, domains, paths⟩ := h.names_eq
  simp only [World.resetFeature, Context.clear, domains, paths]
  rfl

end World.Changes

end PlainSteps
