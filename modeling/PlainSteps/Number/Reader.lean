import PlainSteps.Number.Basic
import PlainSteps.Text.Blank

/-!
# Reading numbers

The decimal notation of numbers: an optional sign, digits with at most one point among or around
them, and an optional exponent; or one of the words `inf`, `infinity` and `nan` in any case.

* `Number.read?`: the nearest number of a format that a text denotes.
* `Number.readFinite?`: the same for a finite number with blanks around it.
-/

namespace PlainSteps.Number

/-- The value of a string of decimal digits. -/
def digitsValue (cs : List Char) : Nat := cs.foldl (fun n c => n * 10 + (c.toNat - '0'.toNat)) 0

/-- Splits a sign off a text. -/
def splitSign : List Char → Bool × List Char
  | '-' :: cs => (true, cs)
  | '+' :: cs => (false, cs)
  | cs => (false, cs)

/-- The exponent that ends a number, where the text is empty or writes one. -/
def readExponent? : List Char → Option Int
  | [] => some 0
  | c :: cs =>
    if c == 'e' || c == 'E' then
      let (negative, digits) := splitSign cs
      if digits.isEmpty || !digits.all Char.isDigit then none
      else some (if negative then -(digitsValue digits : Int) else digitsValue digits)
    else none

/-- The nearest number to `digits · 10^e`. Magnitudes beyond every format need no exact power. -/
def ofDecimal (f : Format) (negative : Bool) (digits : Nat) (e : Int) : Number :=
  if digits = 0 then .finite negative 0 0
  else
    let size : Int := e + digits.log2
    if 2000 < e then .infinite negative
    else if size < -4000 then .finite negative 0 0
    else ofFraction f negative (digits * tenTo e.toNat) (tenTo (-e).toNat)

/-- Reads an unsigned decimal number. -/
def readMagnitude? (f : Format) (negative : Bool) (cs : List Char) : Option Number := do
  let whole := cs.takeWhile Char.isDigit
  let rest := cs.dropWhile Char.isDigit
  let (places, rest) :=
    match rest with
    | '.' :: more => (more.takeWhile Char.isDigit, more.dropWhile Char.isDigit)
    | rest => ([], rest)
  if whole.isEmpty && places.isEmpty then none
  else
    let e ← readExponent? rest
    some (ofDecimal f negative (digitsValue (whole ++ places)) (e - places.length))

/-- The nearest number of a format that a text denotes. -/
def read? (f : Format) (s : String) : Option Number :=
  let (negative, body) := splitSign s.toList
  let small := String.ofList (body.map Char.toLower)
  if small == "inf" || small == "infinity" then some (.infinite negative)
  else if small == "nan" then some .notANumber
  else readMagnitude? f negative body

/-- The finite number that a text denotes, up to the blanks around it. -/
def readFinite? (s : String) : Option Number :=
  (read? .double (Text.trimmed s)).filter isFinite

end PlainSteps.Number
