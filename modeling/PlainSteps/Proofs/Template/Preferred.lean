import PlainSteps.Proofs.Template.Captures

/-!
# The preferred way to read a line

Where a template describes a line in several ways, one of them is preferred to all the others, and
the captures are its terms.

* `Way.IsFirst`: a way that is preferred to the others, `Way.IsFirst.unique`.
* `Template.captures?_preferred`: a line that matches has such a way, and gives its terms.

Proof-only: no module that runs imports this one.
-/

namespace PlainSteps

/-- A way to read a line that is preferred to the others. -/
structure Way.IsFirst (first : Way) (tokens : List Template.Token) (line : List Char) : Prop where
  describes : first.Describes tokens line
  preferred (way : Way) (h : way.Describes tokens line) :
    way = first ∨ first.Before (shorts (Template.slots tokens)) way

theorem Way.IsFirst.unique {x y : Way} {tokens : List Template.Token} {line : List Char}
    (hx : x.IsFirst tokens line) (hy : y.IsFirst tokens line) : x = y := by
  rcases hx.preferred y hy.describes with same | before
  · exact same.symm
  · exact (hy.preferred x hx.describes).resolve_right fun after => before.asymm after

namespace Template

/-- A line matches a compiled template if the template describes it in some way. One of these ways
is then preferred to the others: the opening words come first, and then each term in turn. The
captures are its terms. -/
theorem captures?_preferred {known : Option (List String)} {text : String} {t : Template}
    (h : compile known text = .ok t) :
    ∃ tokens, Template.tokens text = .ok tokens ∧ t.schema = slots tokens ∧ ∀ line : String,
      (t.isMatch line = true ↔
        ∃ way : Way, way.Describes tokens (Text.trim line.toList)) ∧
      (t.isMatch line = true → ∃ first : Way, first.IsFirst tokens (Text.trim line.toList) ∧
        (∀ other : Way, other.IsFirst tokens (Text.trim line.toList) → other = first) ∧
        t.captures? line = some (List.zipWith Written.capture t.schema first.terms)) := by
  obtain ⟨tokens, read, matcher, schema⟩ := read_eq_ok (read_of_compile h)
  refine ⟨tokens, read, schema, fun line => ?_⟩
  rcases captures?_first matcher schema line with
    ⟨unmatched, -, never⟩ | ⟨first, describes, preferred, hit, found⟩
  · rw [unmatched]
    exact ⟨by simpa using never, fun hit => nomatch hit⟩
  · have isFirst : first.IsFirst tokens (Text.trim line.toList) :=
      ⟨describes, schema ▸ preferred⟩
    exact ⟨⟨fun _ => ⟨first, describes⟩, fun _ => hit⟩,
      fun _ => ⟨first, isFirst, fun other h => h.unique isFirst, found⟩⟩

/-- The tokens of a template in which a term follows a statement. -/
def andTokens : List Token :=
  [.slot 0 "what" (some "statement"), .literal " and ".toList, .slot 21 "then" none]

/-- The keyword is not a part of the first term, which is as short as possible. -/
theorem captures?_and : ∃ t, compile none "\x7bwhat:statement\x7d and \x7bthen\x7d" = .ok t ∧
    t.isMatch "Then a and b and c" = true ∧
    ∃ first : Way, first.IsFirst andTokens "Then a and b and c".toList ∧
      List.zipWith Written.capture t.schema first.terms =
        [⟨"what", "a", .statement, "statement"⟩, ⟨"then", "b and c", .fallthrough, "string"⟩] := by
  let t : Template :=
    ⟨"\x7bwhat:statement\x7d and \x7bthen\x7d", matcherOf andTokens, slots andTokens⟩
  have scanned : Template.tokens t.text = .ok andTokens := by decide +kernel
  have compiled : compile none t.text = .ok t :=
    compile_of_tokens scanned (by decide) rfl (by decide +kernel)
  have hit : t.isMatch "Then a and b and c" = true := by decide +kernel
  have found : t.captures? "Then a and b and c" = some
      [⟨"what", "a", .statement, "statement"⟩, ⟨"then", "b and c", .fallthrough, "string"⟩] := by
    decide +kernel
  have trimmed : Text.trim "Then a and b and c".toList = "Then a and b and c".toList := by decide
  obtain ⟨tokens, same, -, lines⟩ := captures?_preferred compiled
  obtain rfl := Except.ok.inj (same.symm.trans scanned)
  obtain ⟨first, isFirst, -, captured⟩ := (lines "Then a and b and c").2 hit
  rw [trimmed] at isFirst
  exact ⟨t, compiled, hit, first, isFirst, Option.some.inj (captured.symm.trans found)⟩

end Template

end PlainSteps
