import PlainSteps.World.Context

/-!
# The world of a run

What the steps of a feature share: the shared variables, a context for each domain, a context for
each path, and the titles of the feature and the scenario that are being executed.

* `World.new`: the world of a run.
* `World.onShared`, `World.onDomain`, `World.onPath`: changes of one context.
* `World.resetFeature`: forgets all that a feature has set.
-/

namespace PlainSteps

/-- What the steps of a feature share. -/
structure World where
  /-- The name of the run. -/
  tag : String
  shared : Context
  domains : Context
  paths : Context
  featureTitle : Option String
  scenarioTitle : Option String

/-- The label under which the shared variables hold a credential. -/
def credentialKey (name : String) : String := "__cred_" ++ name

namespace World

/-- The world of a run in which nothing has been set. -/
def new (tag : String) : World :=
  ⟨tag, .new "shared", .new "domains", .new "paths", none, none⟩

/-- Changes the shared variables. -/
def onShared {α : Type} (w : World) (change : Context → α × Context) : α × World :=
  let (answer, shared) := change w.shared
  (answer, { w with shared })

/-- Changes the context of a domain, which is made where it is missing. -/
def onDomain {α : Type} (w : World) (domain : String) (change : Context → α × Context) :
    α × World :=
  let (answer, domains) := w.domains.modifyAt [domain] change
  (answer, { w with domains })

/-- Changes the context of a path, which is made where it is missing. -/
def onPath {α : Type} (w : World) (path : String) (change : Context → α × Context) : α × World :=
  let (answer, paths) := w.paths.modifyAt [path] change
  (answer, { w with paths })

/-- Sets a shared variable. -/
def set (w : World) (label : String) (value : StoredValue) : World :=
  { w with shared := w.shared.set label value }

/-- A shared variable. -/
def get? (w : World) (label : String) : Option StoredValue := w.shared.get? label

/-- Sets a value in the context of a domain and makes its label the current one. -/
def setCurrent (w : World) (domain label : String) (value : StoredValue) : World :=
  (w.onDomain domain fun c => ((), (c.set label value).setCurrent label)).2

/-- The current value of a domain. -/
def current? (w : World) (domain : String) : Option StoredValue :=
  (w.domains.child domain).current?

/-- Forgets all that a feature has set. -/
def resetFeature (w : World) : World :=
  { w with
    shared := w.shared.clear
    domains := w.domains.clear
    paths := w.paths.clear
    featureTitle := none
    scenarioTitle := none }

end World

end PlainSteps
