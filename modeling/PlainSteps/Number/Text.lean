import PlainSteps.Number.Shortest

/-!
# Writing numbers

Two notations of numbers, both with the fewest digits that read back.

* `plain`: never an exponent, and no fraction for a whole number; a tie goes up.
* `scientific`: always a fraction or an exponent; positional from `10^-5` up to but not including
  `10^16`; a tie goes to the even digit; `none` for what is not finite.
-/

namespace PlainSteps.Number

/-- A number of zeros. -/
def zeros (n : Nat) : String := String.ofList (List.replicate n '0')

/-- The sign of a number. -/
def signText (negative : Bool) : String := if negative then "-" else ""

/-- Digits with a point before the last `places` of them. -/
def pointed (digits : String) (places : Nat) : String :=
  let cs := digits.toList
  if cs.length ≤ places then "0." ++ zeros (places - cs.length) ++ digits
  else
    String.ofList (cs.take (cs.length - places)) ++ "."
      ++ String.ofList (cs.drop (cs.length - places))

/-- A decimal without an exponent. -/
def Decimal.positional (d : Decimal) : String :=
  if 0 ≤ d.exponent then toString d.digits ++ zeros d.exponent.toNat
  else pointed (toString d.digits) (-d.exponent).toNat

/-- The text of a number without an exponent. -/
def plain (f : Format) : Number → String
  | .notANumber => "NaN"
  | .infinite negative => signText negative ++ "inf"
  | .finite negative 0 _ => signText negative ++ "0"
  | .finite negative m q => signText negative ++ (shortest f .up m q).positional

/-- A decimal with one digit before the point and an exponent. -/
def Decimal.withExponent (d : Decimal) : String :=
  let digits := (toString d.digits).toList
  let e := d.exponent + (digits.length - 1 : Nat)
  let lead := match digits with
    | [c] => String.singleton c
    | c :: cs => String.singleton c ++ "." ++ String.ofList cs
    | [] => ""
  lead ++ "e" ++ (if e < 0 then "-" else "+") ++ toString e.natAbs

/-- A decimal with a fraction or an exponent. -/
def Decimal.scientific (d : Decimal) : String :=
  let e := d.exponent + ((toString d.digits).length - 1 : Nat)
  if -5 ≤ e && e < 16 then
    if 0 ≤ d.exponent then d.positional ++ ".0" else d.positional
  else d.withExponent

/-- The text of a finite number with a fraction or an exponent. -/
def scientific? (f : Format) : Number → Option String
  | .finite negative 0 _ => some (signText negative ++ "0.0")
  | .finite negative m q => some (signText negative ++ (shortest f .toEven m q).scientific)
  | _ => none

end PlainSteps.Number
