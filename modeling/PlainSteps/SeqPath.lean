/-!
# Sequence paths

The address of a step: the index of its feature, its index there, and one index for each statement
that it is nested in. Indices count from one, up to the largest number of 32 bits.

* `SeqPath.child`: the address one level down.
* `SeqPath.startsWith`: whether an address is another, or below it.
* `SeqPath.text`: the indices with points between them.
-/

namespace PlainSteps

/-- The address of a step. -/
structure SeqPath where
  indices : List Nat
  deriving DecidableEq, Repr

namespace SeqPath

/-- The largest index. -/
def lastIndex : Nat := 4294967295

/-- The index after another; the largest is followed by itself. -/
def next (index : Nat) : Nat := min (index + 1) lastIndex

/-- The address with one more index. -/
def child (p : SeqPath) (index : Nat) : SeqPath := ⟨p.indices ++ [index]⟩

/-- Whether an address is another, or below it. -/
def startsWith (p other : SeqPath) : Bool := other.indices.isPrefixOf p.indices

/-- The indices with points between them. -/
def text (p : SeqPath) : String := ".".intercalate (p.indices.map toString)

end SeqPath

end PlainSteps
