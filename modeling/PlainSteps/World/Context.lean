import PlainSteps.Table
import PlainSteps.Value

/-!
# Contexts

A context holds values under labels, points to one of the labels as the current one, and has named
contexts of its own.

* `Context.set`, `Context.get?`, `Context.remove`, `Context.setCurrent`, `Context.clear`.
* `Context.modifyAt`: a change of a context within a context, which is made where it is missing.
-/

namespace PlainSteps

/-- A named store of values with contexts of its own. -/
inductive Context where
  | mk (name : String) (values : Table StoredValue) (current : Option String)
      (children : Table Context)

namespace Context

/-- The context without values. -/
def new (name : String) : Context := .mk name ∅ none ∅

/-- The name of a context. -/
def name : Context → String
  | .mk name .. => name

/-- The values of a context, under their labels. -/
def values : Context → Table StoredValue
  | .mk _ values .. => values

/-- The label that is the current one; there need not be a value under it. -/
def currentLabel : Context → Option String
  | .mk _ _ current _ => current

/-- The contexts within a context, under their names. -/
def children : Context → Table Context
  | .mk _ _ _ children => children

/-- Stores a value under a label, instead of any other there. -/
def set (c : Context) (label : String) (value : StoredValue) : Context :=
  .mk c.name (c.values.insert label value) c.currentLabel c.children

/-- The value under a label. -/
def get? (c : Context) (label : String) : Option StoredValue := c.values.get? label

/-- Forgets the value under a label, and the current label if it is that one. -/
def remove (c : Context) (label : String) : Context :=
  .mk c.name (c.values.erase label)
    (if c.currentLabel = some label then none else c.currentLabel) c.children

/-- Makes a label the current one. -/
def setCurrent (c : Context) (label : String) : Context :=
  .mk c.name c.values (some label) c.children

/-- The value under the current label. -/
def current? (c : Context) : Option StoredValue := c.currentLabel.bind c.get?

/-- The context of a name within a context. -/
def child? (c : Context) (name : String) : Option Context := c.children.get? name

/-- The context of a name within a context, or an empty one. -/
def child (c : Context) (name : String) : Context := (c.child? name).getD (new name)

/-- Puts a context in place of the one of a name. -/
def setChild (c : Context) (name : String) (child : Context) : Context :=
  .mk c.name c.values c.currentLabel (c.children.insert name child)

/-- Forgets everything but the name. -/
def clear (c : Context) : Context := new c.name

/-- Changes the context that a list of names leads to, and makes those on the way that are
missing; the change has an answer. -/
def modifyAt {α : Type} (c : Context) (path : List String) (change : Context → α × Context) :
    α × Context :=
  match path with
  | [] => change c
  | name :: rest =>
    let (answer, child) := (c.child name).modifyAt rest change
    (answer, c.setChild name child)

end Context

end PlainSteps
