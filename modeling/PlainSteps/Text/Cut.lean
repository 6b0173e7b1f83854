/-!
# Cutting texts

Cuts at the first occurrence of a mark, pieces between separators, and the number of bytes of a
text in UTF-8.

* `cut?`: what stands before and after the first occurrence of a character.
* `before`: what stands before the first occurrence of a text.
* `pieces`: the pieces between the occurrences of a character; there is always at least one.
* `width`: the number of bytes of a text in UTF-8.
* `isPrefixOf?_eq_some_iff`: what remains after a text that another starts with.
-/

namespace PlainSteps.Text

/-- What stands before and after the first `mark`; `none` where there is none. -/
def cut? (mark : Char) : List Char → Option (List Char × List Char)
  | [] => none
  | c :: cs => if c = mark then some ([], cs) else (cut? mark cs).map fun (a, b) => (c :: a, b)

/-- What stands before the first occurrence of `mark`, or the whole text. -/
def before (mark : List Char) : List Char → List Char
  | [] => []
  | c :: cs => if mark.isPrefixOf (c :: cs) then [] else c :: before mark cs

/-- The pieces of a text between the occurrences of `mark`. -/
def pieces (mark : Char) (s : String) : List String := (s.toList.splitOn mark).map String.ofList

/-- The number of bytes of a text in UTF-8. -/
def width : List Char → Nat
  | [] => 0
  | c :: cs => c.utf8Size + width cs

/-- What remains of a text after a lead that it starts with. -/
def afterLead? (lead s : String) : Option String :=
  (lead.toList.isPrefixOf? s.toList).map String.ofList

/-- What remains of a text after `cs` is all that has to be put behind `cs` to make it. -/
theorem isPrefixOf?_eq_some_iff {cs text rest : List Char} :
    cs.isPrefixOf? text = some rest ↔ text = cs ++ rest := by
  induction cs generalizing text with
  | nil => exact ⟨fun h => Option.some.inj h, fun h => congrArg some h⟩
  | cons c cs ih =>
    cases text with
    | nil => exact ⟨fun h => (Option.some_ne_none rest h.symm).elim, fun h => nomatch h⟩
    | cons d text =>
      show (if (c == d) = true then cs.isPrefixOf? text else none) = some rest ↔
        d :: text = c :: (cs ++ rest)
      by_cases h : c = d
      · simp [h, ih]
      · simp [h, Ne.symm h]

end PlainSteps.Text
