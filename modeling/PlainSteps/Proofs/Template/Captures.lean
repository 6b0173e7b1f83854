import PlainSteps.Proofs.Effect
import PlainSteps.Proofs.Template.Source
import PlainSteps.Proofs.Template.Ways

/-!
# The captures of a template

A template matches the lines that it describes, and the captures are the terms of a line in the
preferred one of the ways in which the template describes it.

* `Template.offers_middle`: the expression of a template chooses among these ways.
* `Template.mapM_capture?`: the groups of a way give one capture for each placeholder.
* `Template.captures?_first`: the captures of a line are the terms of the preferred way.
* `Template.isMatch_iff_describes`: a template that has been read compiles, its written expression
  can be read back, and it matches what it describes.

Proof-only: no module that runs imports this one.
-/

namespace PlainSteps.Template

open Regex

/-! ## The expression of a template -/

theorem isFree_sequence {rs : List (Regex FormName)} (h : ∀ r ∈ rs, r.isFree = true) :
    (Regex.sequence rs).isFree = true := by
  induction rs with
  | nil => rfl
  | cons r rs ih =>
    refine Bool.and_eq_true_iff.2 ⟨h r List.mem_cons_self, ih fun s hs => ?_⟩
    exact h s (List.mem_cons_of_mem r hs)

theorem isFree_term (index : Nat) (short : Bool) : (term index short).isFree = true := by
  cases short <;> rfl

theorem isFree_body (index : Nat) (tokens : List Token) :
    ∀ r ∈ body index tokens, r.isFree = true := by
  induction tokens generalizing index with
  | nil => exact fun r hr => nomatch hr
  | cons token rest ih =>
    intro r hr
    cases token with
    | slot position label domain =>
      rcases List.mem_cons.1 hr with rfl | hr
      · exact isFree_term index _
      · exact ih (index + 1) r hr
    | _ =>
      rcases List.mem_cons.1 hr with rfl | hr
      · rfl
      · exact ih index r hr

theorem isFree_openingWords : openingWords.isFree = true := by decide

/-- What stands between the two ends in the expression of a template. -/
def middle (tokens : List Token) : Regex FormName := .cat openingWords (.sequence (body 0 tokens))

theorem isFree_middle (tokens : List Token) : (middle tokens).isFree = true :=
  Bool.and_eq_true_iff.2 ⟨isFree_openingWords, isFree_sequence (isFree_body 0 tokens)⟩

theorem search?_matcherOf (tokens : List Token) (line : List Char) :
    (matcherOf tokens).search? line = ((middle tokens).wholeReadings line).head?.map (·.found) :=
  search?_tied _ _ (isFree_middle tokens) line

/-- The ways to read a line. -/
def ways (tokens : List Token) : Choices FormName Way where
  valid way := (∀ p ∈ way.keyword, IsBlanks p.2) ∧ (∀ p ∈ way.courtesy, p.1.Valid ∧ IsBlanks p.2) ∧
    way.terms.length = (slots tokens).length ∧ ∀ w ∈ way.terms, w.Valid
  text way := way.opening ++ spell (segments tokens) way.terms
  found way := groups 0 way.terms
  before := Way.Before (shorts (slots tokens))

theorem whole_ways {tokens : List Token} {line : List Char} {way : Way} :
    (ways tokens).Whole line way ↔ way.Describes tokens line := by
  constructor
  · rintro ⟨⟨keyword, courtesy, length, valid⟩, split⟩
    exact ⟨keyword, courtesy, length, valid, split⟩
  · rintro ⟨keyword, courtesy, length, valid, split⟩
    exact ⟨⟨keyword, courtesy, length, valid⟩, split⟩

/-- What stands between the two ends chooses among the ways to read a line. -/
theorem offers_middle (tokens : List Token) : (middle tokens).readings.Offers (ways tokens) := by
  refine (offers_cat offers_openingWords (offers_body 0 tokens)).rename
    (fun p => ⟨p.1.1, p.1.2, p.2⟩) (fun way => ?_) (fun _ _ => rfl)
    (fun p _ => (List.append_nil _).symm) fun _ p q _ _ h => ?_
  · constructor
    · rintro ⟨keyword, courtesy, terms⟩
      exact ⟨((way.keyword, way.courtesy), way.terms),
        ⟨⟨fun p hp => ⟨trivial, keyword p hp⟩, courtesy⟩, terms⟩, rfl⟩
    · rintro ⟨p, ⟨⟨keyword, courtesy⟩, terms⟩, rfl⟩
      exact ⟨fun p hp => (keyword p hp).2, courtesy, terms⟩
  · obtain ⟨⟨k, c⟩, ws⟩ := p
    obtain ⟨⟨k', c'⟩, ws'⟩ := q
    rcases Prod.lex_def.1 h with h | ⟨same, h⟩
    · rcases Prod.lex_def.1 h with h | ⟨same, h⟩
      · exact .inl h
      · exact .inr ⟨same, .inl h⟩
    · cases same
      exact .inr ⟨rfl, .inr ⟨rfl, h⟩⟩

/-! ## The captures of a match -/

/-- The group of a form of a placeholder holds the term, if the line writes it in that form. -/
theorem lookup_groups (first index : Nat) (o : Origin) (ws : List Written) :
    (groups first ws).lookup (index, o) =
      if first ≤ index then
        ws[index - first]?.bind fun w => if o = w.origin then some w.term else none
      else none := by
  induction ws generalizing first with
  | nil => simp [groups]
  | cons w ws ih =>
    rw [groups, List.lookup_append, ih (first + 1), List.lookup_cons, List.lookup_nil]
    rcases Nat.lt_trichotomy index first with h | rfl | h
    · have hne : ((index, o) == (first, w.origin)) = false := by
        simp [Nat.ne_of_lt h]
      rw [if_neg (by omega), if_neg (by omega), hne]
      rfl
    · rw [if_neg (by omega), if_pos (Nat.le_refl index), Nat.sub_self, List.getElem?_cons_zero]
      by_cases ho : o = w.origin
      · simp [ho]
      · have hne : ((index, o) == (index, w.origin)) = false := by simp [ho]
        simp [hne, ho]
    · have hne : ((index, o) == (first, w.origin)) = false := by
        simp [Nat.ne_of_gt h]
      obtain ⟨d, rfl⟩ : ∃ d, index = first + 1 + d := ⟨index - (first + 1), by omega⟩
      rw [if_pos (by omega), if_pos (by omega), hne,
        show first + 1 + d - (first + 1) = d by omega, show first + 1 + d - first = d + 1 by omega,
        List.getElem?_cons_succ]
      simp

/-- The capture of a placeholder is the term in its place. -/
theorem capture?_groups {ws : List Written} {index : Nat} {w : Written} (hw : ws[index]? = some w)
    (valid : w.Valid) (p : Placeholder) :
    capture? (groups 0 ws) index p = some (w.capture p) := by
  have found (o : Origin) : (groups 0 ws).lookup (index, o) =
      if o = w.origin then some w.term else none := by
    rw [lookup_groups, if_pos (Nat.zero_le index), Nat.sub_zero, hw]
    rfl
  obtain ⟨o, term⟩ := w
  simp only [capture?, found, Written.capture, Placeholder.isStatement, beq_iff_eq]
  cases o with
  | statement => exact valid.elim
  | _ => rfl

/-- The groups of a described line give one capture for each placeholder. -/
theorem mapM_capture? {ps : List Placeholder} {ws : List Written} (hlen : ws.length = ps.length)
    (valid : ∀ w ∈ ws, w.Valid) :
    (ps.zipIdx.mapM fun (p, index) => capture? (groups 0 ws) index p) =
      some (List.zipWith Written.capture ps ws) := by
  have from_ (ps : List Placeholder) (first : Nat) (h : (ws.drop first).length = ps.length) :
      ((ps.zipIdx first).mapM fun (p, index) => capture? (groups 0 ws) index p) =
        some (List.zipWith Written.capture ps (ws.drop first)) := by
    induction ps generalizing first with
    | nil => rfl
    | cons p ps ih =>
      have hlt : first < ws.length := by
        rw [List.length_drop, List.length_cons] at h
        omega
      have hdrop : ws.drop first = ws[first] :: ws.drop (first + 1) := List.drop_eq_getElem_cons hlt
      have hrest : (ws.drop (first + 1)).length = ps.length := by
        rw [hdrop, List.length_cons, List.length_cons] at h
        exact Nat.succ.inj h
      have here := capture?_groups (List.getElem?_eq_getElem hlt) (valid _ (List.getElem_mem hlt)) p
      rw [List.zipIdx_cons, List.mapM_cons, ih (first + 1) hrest, hdrop]
      simp only [here]
      rfl
  exact from_ ps 0 (by simpa using hlen)

/-- The captures of a line are the terms of the preferred way to read it. -/
theorem captures?_first {t : Template} {tokens : List Token}
    (matcher : t.matcher = matcherOf tokens) (schema : t.schema = slots tokens) (line : String) :
    (t.isMatch line = false ∧ t.captures? line = none ∧
      ∀ way : Way, ¬ way.Describes tokens (Text.trim line.toList)) ∨
    ∃ first : Way, first.Describes tokens (Text.trim line.toList) ∧
      (∀ way : Way, way.Describes tokens (Text.trim line.toList) →
        way = first ∨ first.Before (shorts t.schema) way) ∧
      t.isMatch line = true ∧
      t.captures? line = some (List.zipWith Written.capture t.schema first.terms) := by
  unfold isMatch captures?
  rw [matcher, schema, search?_matcherOf]
  rcases exists_first (offers_middle tokens) (Text.trim line.toList) with
    ⟨never, found⟩ | ⟨first, whole, preferred, found⟩
  · refine .inl ⟨?_, ?_, fun way h => never way (whole_ways.2 h)⟩ <;> rw [found] <;> rfl
  · have describes := whole_ways.1 whole
    refine .inr ⟨first, describes, fun way h => preferred way (whole_ways.2 h), ?_, ?_⟩ <;>
      rw [found]
    · rfl
    · exact mapM_capture? describes.length describes.valid

/-- The captures of a line are the terms of one of the ways to read it. -/
theorem captures?_eq {t : Template} {tokens : List Token} (matcher : t.matcher = matcherOf tokens)
    (schema : t.schema = slots tokens) (line : String) :
    (t.isMatch line = false ∧ t.captures? line = none ∧
      ∀ ws, ¬ Describes tokens ws (Text.trim line.toList)) ∨
    ∃ ws, Describes tokens ws (Text.trim line.toList) ∧ t.isMatch line = true ∧
      t.captures? line = some (List.zipWith Written.capture t.schema ws) := by
  rcases captures?_first matcher schema line with
    ⟨unmatched, nothing, never⟩ | ⟨first, describes, -, hit, found⟩
  · refine .inl ⟨unmatched, nothing, fun ws h => ?_⟩
    obtain ⟨way, h, -⟩ := describes_iff.1 h
    exact never way h
  · exact .inr ⟨first.terms, describes_iff.2 ⟨first, describes, rfl⟩, hit, found⟩

/-! ## Templates that have been read -/

theorem read_eq_ok {text : String} {t : Template} (h : Template.read text = .ok t) :
    ∃ tokens, Template.tokens text = .ok tokens ∧ t.matcher = matcherOf tokens ∧
      t.schema = slots tokens := by
  unfold Template.read at h
  obtain ⟨tokens, read, h⟩ := ok_of_bind h
  split at h
  · cases h
  · cases h
    exact ⟨tokens, read, rfl, rfl⟩

theorem read_of_tokens {text : String} {tokens : List Token}
    (read : Template.tokens text = .ok tokens)
    (faultless : fault? (Text.width text.toList) [] 0 tokens = none) :
    Template.read text = .ok ⟨text, matcherOf tokens, slots tokens⟩ := by
  rw [Template.read, read]
  simp only [bind, Except.bind, faultless]
  rfl

/-- A text without faults compiles unless it names an unknown domain or is too large. -/
theorem compile_of_tokens {known : Option (List String)} {text : String} {tokens : List Token}
    (read : Template.tokens text = .ok tokens)
    (faultless : fault? (Text.width text.toList) [] 0 tokens = none)
    (domains : known.bind (unknownDomain? · (slots tokens)) = none)
    (fits : (matcherOf tokens).fits = true) :
    compile known text = .ok ⟨text, matcherOf tokens, slots tokens⟩ := by
  rw [compile, read_of_tokens read faultless]
  simp only [bind, Except.bind, domains, fits, if_true]
  rfl

theorem read_of_compile {known : Option (List String)} {text : String} {t : Template}
    (h : compile known text = .ok t) : Template.read text = .ok t := by
  unfold compile at h
  obtain ⟨t', read, h⟩ := ok_of_bind h
  split at h
  · cases h
  · split at h
    · cases h
      exact read
    · cases h

theorem length_segments (tokens : List Token) :
    (segments tokens).length = (slots tokens).length + 1 := by
  have prepend (cs : List Char) (texts : List (List Char)) (h : texts ≠ []) :
      (prepend cs texts).length = texts.length := by
    cases texts with
    | nil => exact absurd rfl h
    | cons first rest => rfl
  induction tokens with
  | nil => rfl
  | cons token rest ih =>
    cases token with
    | slot position label domain => exact congrArg (· + 1) ih
    | _ => exact (prepend _ _ (segments_ne_nil rest)).trans ih

/-- A template that has been read compiles unless it is too large, and what its written expression
matches is what it describes: the captures of a line, which it has where it matches, are the terms
of the line in one of the ways in which the template describes it. -/
theorem isMatch_iff_describes {text : String} {t : Template} (h : Template.read text = .ok t) :
    ∃ tokens, Template.tokens text = .ok tokens ∧ t.schema = slots tokens ∧
      (segments tokens).length = t.schema.length + 1 ∧
      compile none text = (if t.matcher.fits then .ok t else .error .tooLarge) ∧
      (∃ r, Regex.read? t.source = some r ∧ ∀ line, r.search? line =
        (t.matcher.search? line).map (List.map fun (name, word) => (groupOf name, word))) ∧
      ∀ line : String,
        ((t.captures? line).isSome ↔ t.isMatch line = true) ∧
        (t.isMatch line = true ↔ ∃ ws, Describes tokens ws (Text.trim line.toList)) ∧
        ∀ cs, t.captures? line = some cs →
          cs.length = t.schema.length ∧ ∃ ws, Describes tokens ws (Text.trim line.toList) ∧
            cs = List.zipWith Written.capture t.schema ws := by
  obtain ⟨tokens, read, matcher, schema⟩ := read_eq_ok h
  obtain ⟨r, written, alike⟩ := read?_source tokens
  refine ⟨tokens, read, schema, ?_, ?_, ⟨r, ?_, fun line => ?_⟩, fun line => ?_⟩
  · rw [schema]
    exact length_segments tokens
  · rw [compile, h]
    rfl
  · rw [source, matcher]
    exact written
  · rw [matcher]
    exact alike.search? line
  · rcases captures?_eq matcher schema line with ⟨unmatched, nothing, never⟩ | ⟨ws, hws, hit, found⟩
    · rw [unmatched, nothing]
      refine ⟨by simp, ⟨fun hit => ?_, fun ⟨ws, hws⟩ => absurd hws (never ws)⟩, fun cs hcs => ?_⟩
      · cases hit
      · cases hcs
    · rw [hit, found]
      refine ⟨by simp, ⟨fun _ => ⟨ws, hws⟩, fun _ => rfl⟩, fun cs hcs => ?_⟩
      cases hcs
      refine ⟨?_, ws, hws, rfl⟩
      rw [List.length_zipWith, hws.1, schema, Nat.min_self]

/-- A placeholder is scanned, whatever follows it. -/
theorem scan_slot {rest : List Char} {s : SlotText} (position : Nat)
    (starts : rest.head?.any startsLabel = true) (slot : readSlot rest = .ok s) :
    scan position ('{' :: rest) = (scan (position + s.width) s.rest).map
      (.slot position (String.ofList s.label) (s.domain.map String.ofList) :: ·) := by
  have single : ∀ more, rest ≠ '{' :: more := by
    rintro more rfl
    exact absurd (show startsLabel '{' = true from starts) (by decide)
  rw [scan]
  · rw [if_pos starts]
    split
    · next found h =>
      cases h.symm.trans slot
      rfl
    · next fault h => cases h.symm.trans slot
  · exact single

/-- The tokens of a template with one placeholder. -/
def seeTokens : List Token := [.literal "see ".toList, .slot 4 "it" none]

/-- A line that this template describes. -/
theorem isMatch_see : ∃ t, Template.read "see {it}" = .ok t ∧ t.isMatch " Given I see [x]" = true ∧
    ∃ ws, Describes seeTokens ws "Given I see [x]".toList := by
  have text : "see {it}".toList = ['s', 'e', 'e', ' ', '{', 'i', 't', '}'] := by decide
  have slot : readSlot ['i', 't', '}'] = .ok ⟨['i', 't'], none, []⟩ := rfl
  have scanned : Template.tokens "see {it}" = .ok seeTokens := by
    rw [Template.tokens, text, scan, scan, scan, scan, scan_slot _ rfl slot, scan]
    · rfl
    all_goals
      intros
      contradiction
  have read : Template.read "see {it}" =
      .ok ⟨"see {it}", matcherOf seeTokens, slots seeTokens⟩ := by
    rw [Template.read, scanned]
    rfl
  have hit : isMatch ⟨"see {it}", matcherOf seeTokens, slots seeTokens⟩ " Given I see [x]" =
      true := by
    decide +kernel
  have trimmed : Text.trim " Given I see [x]".toList = "Given I see [x]".toList := by decide
  obtain ⟨tokens, same, -, -, -, -, lines⟩ := isMatch_iff_describes read
  obtain rfl := Except.ok.inj (same.symm.trans scanned)
  obtain ⟨ws, hws⟩ := (lines " Given I see [x]").2.1.1 hit
  exact ⟨_, read, hit, ws, trimmed ▸ hws⟩

end PlainSteps.Template
