import PlainSteps.Text.Cut

/-!
# Domain names

A placeholder declares a domain: one name, or a union of several names separated by bars.

* `isUnion`, `members`: the parts of a declared domain.
* `unionKey`: one spelling for all unions of the same members.
* `key`: the name under which a declared domain is kept.
-/

namespace PlainSteps.Domain

/-- The domain of a placeholder that declares none. -/
def string : String := "string"

/-- The domain of finite numbers. -/
def number : String := "number"

/-- The domain of texts that run as steps of their own. -/
def statement : String := "statement"

/-- Whether a declared domain is a union. -/
def isUnion (domain : String) : Bool := domain.toList.contains '|'

/-- The names in a declared domain, in the order in which they are written. -/
def members (domain : String) : List String := Text.pieces '|' domain

/-- The one spelling of a union: its members sorted, each once. -/
def unionKey (domain : String) : String :=
  "|".intercalate ((members domain).mergeSort (· ≤ ·)).eraseReps

/-- The name under which a domain is kept: the one spelling of a union, any other name itself. -/
def key (domain : String) : String := if isUnion domain then unionKey domain else domain

end PlainSteps.Domain
