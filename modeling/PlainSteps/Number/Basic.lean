/-!
# Binary floating-point numbers

A number is a sign and a magnitude `m · 2^q`, an infinity, or not a number. A format bounds the
magnitudes.

* `Format`, `Format.double`, `Format.single`: precision and range.
* `Number`: the numbers.
* `Number.ofFraction`: the number of a format that is nearest to a fraction; of two that are
  equally near, the one with the even mantissa.
-/

namespace PlainSteps

namespace Number

/-- The power of two with an exponent. -/
def twoTo (e : Nat) : Nat := Nat.pow 2 e

/-- The power of ten with an exponent. -/
def tenTo (e : Nat) : Nat := Nat.pow 10 e

/-- A binary format: the number of bits of a mantissa, and the exponents of its least bit. -/
structure Format where
  precision : Nat
  leastExponent : Int
  greatestExponent : Int

/-- The format in 64 bits. -/
def Format.double : Format := ⟨53, -1074, 971⟩

/-- The format in 32 bits. -/
def Format.single : Format := ⟨24, -149, 104⟩

end Number

/-- A binary floating-point number. -/
inductive Number where
  | finite (negative : Bool) (mantissa : Nat) (exponent : Int)
  | infinite (negative : Bool)
  | notANumber
  deriving DecidableEq, Repr

namespace Number

/-- Zero with a plus sign. -/
def zero : Number := .finite false 0 0

/-- Whether a number is neither infinite nor missing. -/
def isFinite : Number → Bool
  | .finite .. => true
  | _ => false

/-- The quotient rounded to the nearest integer, a half to the even neighbour. -/
def divideToEven (a b : Nat) : Nat :=
  let q := a / b
  let r := a % b
  if 2 * r < b then q else if b < 2 * r then q + 1 else if q % 2 = 0 then q else q + 1

/-- The fraction `a / b` scaled by `2^e`. -/
def scale (a b : Nat) (e : Int) : Nat × Nat := (a * twoTo e.toNat, b * twoTo (-e).toNat)

/-- The exponent of the least bit of a fraction `a / b` in a format that has no least exponent:
the quotient by that power of two has as many bits as the precision. -/
def exponentOf (f : Format) (a b : Nat) : Int :=
  let guess : Int := (a.log2 : Int) - b.log2 - (f.precision - 1)
  let (n, d) := scale a b (-guess)
  if n < d * twoTo (f.precision - 1) then guess - 1 else guess

/-- The number of a format that is nearest to the fraction `a / b`. -/
def ofFraction (f : Format) (negative : Bool) (a b : Nat) : Number :=
  if a = 0 then .finite negative 0 0
  else
    let q := max (exponentOf f a b) f.leastExponent
    let (n, d) := scale a b (-q)
    let m := divideToEven n d
    let (m, q) := if m = twoTo f.precision then (twoTo (f.precision - 1), q + 1) else (m, q)
    if f.greatestExponent < q then .infinite negative
    else if m = 0 then .finite negative 0 0
    else .finite negative m q

end Number

end PlainSteps
