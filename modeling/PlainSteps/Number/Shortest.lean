import PlainSteps.Number.Basic

/-!
# The shortest decimal of a number

Among the decimals that read back as a number, those with the fewest digits, and of these the
nearest; a tie is resolved by rule.

* `Decimal`: an integer times a power of ten.
* `Tie`: which of two equally near decimals is taken.
* `shortest`: the decimal of a positive magnitude.
-/

namespace PlainSteps.Number

/-- The value `digits · 10^exponent`. -/
structure Decimal where
  digits : Nat
  exponent : Int
  deriving DecidableEq, Repr

/-- Which of two equally near neighbours is taken. -/
inductive Tie where
  | toEven
  | up
  deriving DecidableEq, Repr

/-- A decimal of the same value whose digits do not end in zero. -/
def Decimal.strip (d : Decimal) : Decimal :=
  go d.digits d
where
  /-- Drops at most `fuel` trailing zeros. -/
  go : Nat → Decimal → Decimal
    | 0, d => d
    | fuel + 1, d =>
      if d.digits % 10 = 0 && d.digits != 0 then go fuel ⟨d.digits / 10, d.exponent + 1⟩ else d

/-- The interval of values that read back as a number: the value is `value / unit`, and it reaches
`below / unit` down and `above / unit` up, with its ends where `closed`. -/
structure Interval where
  value : Nat
  unit : Nat
  below : Nat
  above : Nat
  closed : Bool

/-- The values that read back as `m · 2^q`: half the distance to each neighbour. -/
def interval (f : Format) (m : Nat) (q : Int) : Interval :=
  let up := twoTo q.toNat
  let nearBelow := m = twoTo (f.precision - 1) && f.leastExponent < q
  { value := 4 * m * up
    unit := 4 * twoTo (-q).toNat
    below := if nearBelow then up else 2 * up
    above := 2 * up
    closed := m % 2 = 0 }

/-- The decimal of an interval on the grid of multiples of `10^e`, if there is one. -/
def Interval.onGrid? (i : Interval) (tie : Tie) (e : Int) : Option Decimal :=
  let stretch := tenTo (-e).toNat
  let value := i.value * stretch
  let unit := i.unit * tenTo e.toNat
  let d := value / unit
  let r := value % unit
  let reaches (distance gap : Nat) : Bool :=
    distance < gap || (i.closed && distance == gap)
  let low := reaches r (i.below * stretch)
  let high := reaches (unit - r) (i.above * stretch)
  let takeLow := 2 * r < unit || (2 * r == unit && tie == .toEven && d % 2 == 0)
  if low && (!high || takeLow) then some ⟨d, e⟩
  else if high then some ⟨d + 1, e⟩
  else none

/-- The exponent of the leading digit of `value / unit`, from a lower estimate. -/
def leadingExponent (value unit : Nat) : Int :=
  climb 4 (Int.fdiv (((value.log2 : Int) - unit.log2 - 1) * 30103) 100000 - 1)
where
  /-- Raises the exponent while the next power of ten is not above the value. -/
  climb : Nat → Int → Int
    | 0, e => e
    | fuel + 1, e =>
      if unit * tenTo (e + 1).toNat ≤ value * tenTo (-(e + 1)).toNat then climb fuel (e + 1) else e

/-- The first grid, from `e` down, that has a decimal of the interval. -/
def Interval.search (i : Interval) (tie : Tie) : Nat → Int → Decimal
  | 0, e => ⟨i.value / i.unit, e⟩
  | fuel + 1, e =>
    match i.onGrid? tie e with
    | some d => d.strip
    | none => i.search tie fuel (e - 1)

/-- The shortest decimal that reads back as `m · 2^q`. -/
def shortest (f : Format) (tie : Tie) (m : Nat) (q : Int) : Decimal :=
  let i := interval f m q
  i.search tie 20 (leadingExponent i.value i.unit)

end PlainSteps.Number
