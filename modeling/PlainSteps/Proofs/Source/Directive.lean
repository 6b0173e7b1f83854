import PlainSteps.Proofs.Text.Pieces
import PlainSteps.Source.Include

/-!
# Directives that are written

* `IsSourceName`: the names that a directive can write.
* `Include.directive`: the directive of a kind for one name.
* `IsSourceName.read?_directive`: what is read from it.

Proof-only: no module that runs imports this one.
-/

namespace PlainSteps

/-- A name that a directive can write: it is not blank, has no outer blanks, and is neither cut at a
comma nor at the end of a line. -/
structure IsSourceName (name : String) : Prop where
  ne_nil : name.toList ≠ []
  trimmed : Text.IsTrimmed name.toList
  comma : ',' ∉ name.toList
  newline : '\n' ∉ name.toList

instance (name : String) : Decidable (IsSourceName name) :=
  have : Decidable (Text.IsTrimmed name.toList) := inferInstanceAs (Decidable (_ ∧ _))
  decidable_of_iff
    (name.toList ≠ [] ∧ Text.IsTrimmed name.toList ∧ ',' ∉ name.toList ∧ '\n' ∉ name.toList)
    ⟨fun ⟨ne_nil, trimmed, comma, newline⟩ => ⟨ne_nil, trimmed, comma, newline⟩,
      fun h => ⟨h.ne_nil, h.trimmed, h.comma, h.newline⟩⟩

/-- What is read from a line that is cut at its first colon. -/
theorem Include.read?_eq_some {line : String} {head rest : List Char} {kind : IncludeKind}
    (cut : Text.cut? ':' line.toList = some (head, rest))
    (word : IncludeKind.ofWord? (String.ofList (Text.trim head)) = some kind) :
    Include.read? line = some ⟨kind,
      (((rest.splitOn ',').map Text.trim).filter (! ·.isEmpty)).map String.ofList⟩ := by
  simp only [Include.read?, cut, word, Option.bind_eq_bind, Option.bind_some]
  rfl

/-- What a directive of a kind starts with. -/
def IncludeKind.lead : IncludeKind → String
  | .backgrounds => "Backgrounds: "
  | .scenarios => "Scenarios: "

/-- The directive of a kind for one name. -/
def Include.directive (kind : IncludeKind) (name : String) : String := kind.lead ++ name

/-- A directive is read as the name that it writes. -/
theorem IsSourceName.read?_directive {name : String} (h : IsSourceName name) (kind : IncludeKind) :
    Include.read? (Include.directive kind name) = some ⟨kind, [name]⟩ := by
  have single : (' ' :: name.toList).splitOn ',' = [' ' :: name.toList] := by
    refine List.splitOn_eq_singleton fun mem => ?_
    rcases List.mem_cons.1 mem with space | mem
    · exact absurd space (by decide)
    · exact h.comma mem
  have trimmed : Text.trim (' ' :: name.toList) = name.toList := h.trimmed.trim_eq
  have filled : [name.toList].filter (! ·.isEmpty) = [name.toList] :=
    List.filter_cons_of_pos (by simpa using h.ne_nil)
  have read (word : List Char) (lead : kind.lead.toList = word ++ [':', ' ']) (plain : ':' ∉ word)
      (means : IncludeKind.ofWord? (String.ofList (Text.trim word)) = some kind) :
      Include.read? (Include.directive kind name) = some ⟨kind, [name]⟩ := by
    have cut : Text.cut? ':' (Include.directive kind name).toList =
        some (word, ' ' :: name.toList) := by
      refine Text.cut?_eq_some_iff.2 ⟨?_, plain⟩
      rw [Include.directive, String.toList_append, lead, List.append_assoc]
      rfl
    rw [Include.read?_eq_some cut means, single, List.map_singleton, trimmed,
      filled, List.map_singleton, String.ofList_toList]
  cases kind with
  | backgrounds => exact read "Backgrounds".toList (by decide) (by decide) (by decide)
  | scenarios => exact read "Scenarios".toList (by decide) (by decide) (by decide)

end PlainSteps
