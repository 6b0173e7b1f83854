import PlainSteps.Text.Spans

/-!
# Spans of code points in UTF-8

* `Utf8.bytes`: the bytes of a character.
* `Utf8.sequences`: the sequences of byte ranges that encode exactly the code points of a span, in
  ascending order.

Only the range of the last byte that is not free differs from one byte; the bytes after it are free.
-/

namespace PlainSteps

namespace Utf8

/-- The bytes of a code point. -/
def bytes (n : Nat) : List Nat :=
  if n < 0x80 then [n]
  else if n < 0x800 then [0xC0 + n / 64, 0x80 + n % 64]
  else if n < 0x10000 then [0xE0 + n / 4096, 0x80 + n / 64 % 64, 0x80 + n % 64]
  else [0xF0 + n / 262144, 0x80 + n / 4096 % 64, 0x80 + n / 64 % 64, 0x80 + n % 64]

/-- The values from `first` to `last`, as sequences of ranges: of the first digit, which has no
bound, and of `digits` more to base 64. -/
def digitRanges : (digits : Nat) → (first last : Nat) → List (List (Nat × Nat))
  | 0, first, last => [[(first, last)]]
  | digits + 1, first, last =>
    let block := digits.repeat (64 * ·) 64
    let low := first / block
    let high := last / block
    if low = high then
      (digitRanges digits (first % block) (last % block)).map ((low, low) :: ·)
    else
      let (head, low) :=
        if first % block = 0 then ([], low)
        else ((digitRanges digits (first % block) (block - 1)).map ((low, low) :: ·), low + 1)
      let (tail, above) :=
        if last % block = block - 1 then ([], high + 1)
        else ((digitRanges digits 0 (last % block)).map ((high, high) :: ·), high)
      let middle :=
        if low < above then [(low, above - 1) :: List.replicate (digits + 1) (0, 63)] else []
      head ++ middle ++ tail

/-- A range of values with `base` in front. -/
def raise (base : Nat) (range : Nat × Nat) : Nat × Nat := (base + range.1, base + range.2)

/-- The code points with encodings of one length: how many bytes follow the first one, what is added
to the first one, and the code points. -/
def lengths : List (Nat × Nat × Nat × Nat) :=
  [(0, 0, 0, 0x7F), (1, 0xC0, 0x80, 0x7FF), (2, 0xE0, 0x800, 0xD7FF), (2, 0xE0, 0xE000, 0xFFFF),
    (3, 0xF0, 0x10000, 0x10FFFF)]

/-- The sequences of byte ranges for the code points from `first` to `last`. -/
def sequences (first last : Nat) : List (List (Nat × Nat)) :=
  lengths.flatMap fun (digits, base, least, greatest) =>
    let first := max first least
    let last := min last greatest
    if first ≤ last then
      (digitRanges digits first last).map fun
        | [] => []
        | lead :: rest => raise base lead :: rest.map (raise 0x80)
    else []

end Utf8

end PlainSteps
