import PlainSteps.Regex.PlacesLemmas
import PlainSteps.Regex.Search
import PlainSteps.Text.Cut

/-!
# Lemmas about searching

A search that leaves out vain attempts finds what the plain search finds. Each cursor that a search
hands on is a place of the same text, and a place from which the search succeeds is in the set
`Regex.before`, so that leaving the others out changes nothing.

* `Regex.run_congr`: a search depends on its continuation at places of the text only.
* `Regex.has_before_of_run`: a place from which a search succeeds is in `Regex.before`.
* `Regex.guide_search`: the search without vain attempts is the plain one.
* `Regex.search?_eq`: what a search of a text finds, by the plain search from each place.

Proof-only: no module that runs imports this one.
-/

namespace PlainSteps

variable {ν α : Type}

/-! ## Places of a text -/

/-- A cursor is a place of `text`. -/
def Cursor.At (text : List Char) (s : Cursor ν) : Prop :=
  s.before.reverse ++ s.rest = text ∧ s.position = s.before.length

namespace Cursor

variable {text : List Char} {s t : Cursor ν}

theorem At.position_le (h : s.At text) : s.position ≤ text.toArray.size := by
  obtain ⟨rfl, hp⟩ := h
  simp [hp]

theorem At.getElem?_position (h : s.At text) : text.toArray[s.position]? = s.rest.head? := by
  obtain ⟨rfl, hp⟩ := h
  cases hr : s.rest <;> simp [hp]

theorem At.drop_position (h : s.At text) : text.drop s.position = s.rest := by
  obtain ⟨rfl, hp⟩ := h
  simp [hp]

theorem At.record {name : ν} {origin : Cursor ν} (h : s.At text) : (s.record name origin).At text :=
  h

theorem At.step? {set : CharSet} (h : s.At text) (step : s.step? set = some t) : t.At text := by
  unfold Cursor.step? at step
  obtain ⟨rfl, hp⟩ := h
  split at step
  · next c rest hr =>
    split at step
    · cases step
      simp [Cursor.At, hr, hp]
    · cases step
  · cases step

/-- After a step one character of the set has been consumed. -/
theorem step?_eq_some {set : CharSet} (step : s.step? set = some t) :
    ∃ c, s.rest = c :: t.rest ∧ set.contains c = true ∧ t.position = s.position + 1 := by
  unfold Cursor.step? at step
  split at step
  · next c rest hr =>
    split at step
    · next hc => cases step; exact ⟨c, hr, hc, rfl⟩
    · cases step
  · cases step

/-- After a skip these characters have been consumed. -/
theorem skip?_eq_some {cs : List Char} (skip : s.skip? cs = some t) :
    s.rest = cs ++ t.rest ∧ t.position = s.position + cs.length := by
  unfold Cursor.skip? at skip
  obtain ⟨rest, hrest, rfl⟩ := Option.map_eq_some_iff.1 skip
  exact ⟨Text.isPrefixOf?_eq_some_iff.1 hrest, rfl⟩

theorem At.skip? {cs : List Char} (h : s.At text) (skip : s.skip? cs = some t) : t.At text := by
  unfold Cursor.skip? at skip
  obtain ⟨rfl, hp⟩ := h
  obtain ⟨rest, hrest, rfl⟩ := Option.map_eq_some_iff.1 skip
  simp [Cursor.At, Text.isPrefixOf?_eq_some_iff.1 hrest, hp, Nat.add_comm]

end Cursor

namespace Regex

/-- What hands cursors on to a continuation. -/
abbrev Searcher (ν α : Type) : Type := Cursor ν → (Cursor ν → Option α) → Option α

/-- A searcher that depends on its continuation at places of the text only. -/
def Local (text : List Char) (body : Searcher ν α) : Prop :=
  ∀ s k k', s.At text → (∀ t, t.At text → k t = k' t) → body s k = body s k'

/-- A searcher that, where the continuation succeeds in a set only, succeeds in the set only. -/
def Keeps (text : List Char) (P : Nat → Prop) (body : Searcher ν α) : Prop :=
  ∀ s k, s.At text → (∀ t, t.At text → (k t).isSome → P t.position) → (body s k).isSome →
    P s.position

/-- A searcher that does what another does, where the continuation succeeds in a set only. -/
def AgreesWithin (text : List Char) (P : Nat → Prop) (body body' : Searcher ν α) : Prop :=
  ∀ s k, s.At text → (∀ t, t.At text → (k t).isSome → P t.position) → body' s k = body s k

variable {text : List Char} {P : Nat → Prop} {body body' : Searcher ν α} {greedy : Bool}

/-! ## Repetitions -/

private theorem isSome_orElse {a b : Option α} (h : (a <|> b).isSome) : a.isSome ∨ b.isSome := by
  cases a <;> simp_all

theorem Local.passes (local_ : Local text body) (fuel : Nat) :
    Local text (Regex.passes body greedy fuel) := by
  induction fuel with
  | zero => intro s k k' hs hk; exact hk s hs
  | succ fuel ih =>
    intro s k k' hs hk
    have more : (body s fun t =>
          if s.position < t.position then Regex.passes body greedy fuel t k else none) =
        body s fun t =>
          if s.position < t.position then Regex.passes body greedy fuel t k' else none :=
      local_ s _ _ hs fun t ht => by rw [ih t k k' ht hk]
    unfold Regex.passes
    simp only [more, hk s hs]

theorem Local.onePassOrMore (local_ : Local text body) :
    Local text (Regex.onePassOrMore body greedy) := by
  intro s k k' hs hk
  exact local_ s _ _ hs fun t ht => by
    rw [local_.passes _ t k k' ht hk, hk t ht]

theorem Local.passesUpTo (local_ : Local text body) (n : Nat) :
    Local text (Regex.passesUpTo body greedy n) := by
  induction n with
  | zero => intro s k k' hs hk; exact hk s hs
  | succ n ih =>
    intro s k k' hs hk
    have more : (body s fun t => Regex.passesUpTo body greedy n t k) =
        body s fun t => Regex.passesUpTo body greedy n t k' :=
      local_ s _ _ hs fun t ht => ih t k k' ht hk
    unfold Regex.passesUpTo
    simp only [more, hk s hs]

theorem Local.passesThen {next : Searcher ν α} (local_ : Local text body)
    (local_next : Local text next) (n : Nat) : Local text (Regex.passesThen body next n) := by
  induction n with
  | zero => exact local_next
  | succ n ih => intro s k k' hs hk; exact local_ s _ _ hs fun t ht => ih t k k' ht hk

theorem Local.repeated (local_ : Local text body) (least : Nat) (most : Option Nat) :
    Local text (Regex.repeated body least most greedy) := by
  intro s k k' hs hk
  unfold Regex.repeated
  split
  · simp only [local_.onePassOrMore s k k' hs hk, hk s hs]
  · next n => exact local_.passesThen local_.onePassOrMore n s k k' hs hk
  · exact local_.passesThen (local_.passesUpTo _) _ s k k' hs hk

theorem Keeps.passes (keeps : Keeps text P body) (fuel : Nat) :
    Keeps text P (Regex.passes body greedy fuel) := by
  induction fuel with
  | zero => intro s k hs hk h; exact hk s hs h
  | succ fuel ih =>
    intro s k hs hk h
    have more (h : (body s fun t =>
        if s.position < t.position then Regex.passes body greedy fuel t k else none).isSome) :
        P s.position :=
      keeps s _ hs (fun t ht h => by
        split at h
        · exact ih t k ht hk h
        · cases h) h
    unfold Regex.passes at h
    split at h <;> rcases isSome_orElse h with h | h
    · exact more h
    · exact hk s hs h
    · exact hk s hs h
    · exact more h

theorem Keeps.onePassOrMore (keeps : Keeps text P body) :
    Keeps text P (Regex.onePassOrMore body greedy) := by
  intro s k hs hk h
  refine keeps s _ hs (fun t ht h => ?_) h
  split at h
  · exact keeps.passes _ t k ht hk h
  · exact hk t ht h

theorem Keeps.passesUpTo (keeps : Keeps text P body) (n : Nat) :
    Keeps text P (Regex.passesUpTo body greedy n) := by
  induction n with
  | zero => intro s k hs hk h; exact hk s hs h
  | succ n ih =>
    intro s k hs hk h
    have more (h : (body s fun t => Regex.passesUpTo body greedy n t k).isSome) : P s.position :=
      keeps s _ hs (fun t ht h => ih t k ht hk h) h
    unfold Regex.passesUpTo at h
    split at h <;> rcases isSome_orElse h with h | h
    · exact more h
    · exact hk s hs h
    · exact hk s hs h
    · exact more h

theorem Keeps.passesThen {next : Searcher ν α} (keeps : Keeps text P body)
    (keeps_next : Keeps text P next) (n : Nat) : Keeps text P (Regex.passesThen body next n) := by
  induction n with
  | zero => exact keeps_next
  | succ n ih => intro s k hs hk h; exact keeps s _ hs (fun t ht h => ih t k ht hk h) h

theorem Keeps.repeated (keeps : Keeps text P body) (least : Nat) (most : Option Nat) :
    Keeps text P (Regex.repeated body least most greedy) := by
  intro s k hs hk h
  unfold Regex.repeated at h
  split at h
  · split at h <;> rcases isSome_orElse h with h | h
    · exact keeps.onePassOrMore s k hs hk h
    · exact hk s hs h
    · exact hk s hs h
    · exact keeps.onePassOrMore s k hs hk h
  · next n => exact keeps.passesThen keeps.onePassOrMore n s k hs hk h
  · exact keeps.passesThen (keeps.passesUpTo _) _ s k hs hk h

/-- A repetition with at least one pass starts with a pass, after which the search succeeds in the
set only. -/
theorem Keeps.exists_of_repeated_succ (keeps : Keeps text P body) {least : Nat}
    {most : Option Nat} {s : Cursor ν} {k : Cursor ν → Option α}
    (hk : ∀ t, t.At text → (k t).isSome → P t.position)
    (h : (Regex.repeated body (least + 1) most greedy s k).isSome) :
    ∃ k', (∀ t, t.At text → (k' t).isSome → P t.position) ∧ (body s k').isSome := by
  cases most with
  | some m =>
    exact ⟨_, fun t ht h => keeps.passesThen (keeps.passesUpTo _) least t k ht hk h, h⟩
  | none =>
    cases least with
    | zero =>
      refine ⟨_, fun t ht h => ?_, h⟩
      split at h
      · exact keeps.passes _ t k ht hk h
      · exact hk t ht h
    | succ n =>
      exact ⟨_, fun t ht h => keeps.passesThen keeps.onePassOrMore n t k ht hk h, h⟩

theorem AgreesWithin.passes (agrees : AgreesWithin text P body body') (keeps : Keeps text P body)
    (local_ : Local text body) (fuel : Nat) :
    AgreesWithin text P (Regex.passes body greedy fuel) (Regex.passes body' greedy fuel) := by
  induction fuel with
  | zero => intro s k hs hk; rfl
  | succ fuel ih =>
    intro s k hs hk
    have more : (body' s fun t =>
          if s.position < t.position then Regex.passes body' greedy fuel t k else none) =
        body s fun t =>
          if s.position < t.position then Regex.passes body greedy fuel t k else none := by
      rw [agrees s _ hs fun t ht h => ?_]
      · exact local_ s _ _ hs fun t ht => by rw [ih t k ht hk]
      · split at h
        · rw [ih t k ht hk] at h
          exact keeps.passes _ t k ht hk h
        · cases h
    unfold Regex.passes
    simp only [more]

theorem AgreesWithin.onePassOrMore (agrees : AgreesWithin text P body body')
    (keeps : Keeps text P body) (local_ : Local text body) :
    AgreesWithin text P (Regex.onePassOrMore body greedy) (Regex.onePassOrMore body' greedy) := by
  intro s k hs hk
  unfold Regex.onePassOrMore
  rw [agrees s _ hs fun t ht h => ?_]
  · exact local_ s _ _ hs fun t ht => by rw [agrees.passes keeps local_ _ t k ht hk]
  · split at h
    · rw [agrees.passes keeps local_ _ t k ht hk] at h
      exact keeps.passes _ t k ht hk h
    · exact hk t ht h

theorem AgreesWithin.passesUpTo (agrees : AgreesWithin text P body body')
    (keeps : Keeps text P body) (local_ : Local text body) (n : Nat) :
    AgreesWithin text P (Regex.passesUpTo body greedy n) (Regex.passesUpTo body' greedy n) := by
  induction n with
  | zero => intro s k hs hk; rfl
  | succ n ih =>
    intro s k hs hk
    have more : (body' s fun t => Regex.passesUpTo body' greedy n t k) =
        body s fun t => Regex.passesUpTo body greedy n t k := by
      rw [agrees s _ hs fun t ht h => ?_]
      · exact local_ s _ _ hs fun t ht => ih t k ht hk
      · rw [ih t k ht hk] at h
        exact keeps.passesUpTo _ t k ht hk h
    unfold Regex.passesUpTo
    simp only [more]

theorem AgreesWithin.passesThen {next next' : Searcher ν α}
    (agrees : AgreesWithin text P body body') (agrees_next : AgreesWithin text P next next')
    (keeps : Keeps text P body) (keeps_next : Keeps text P next) (local_ : Local text body)
    (n : Nat) :
    AgreesWithin text P (Regex.passesThen body next n) (Regex.passesThen body' next' n) := by
  induction n with
  | zero => exact agrees_next
  | succ n ih =>
    intro s k hs hk
    unfold Regex.passesThen
    rw [agrees s _ hs fun t ht h => ?_]
    · exact local_ s _ _ hs fun t ht => ih t k ht hk
    · rw [ih t k ht hk] at h
      exact keeps.passesThen keeps_next n t k ht hk h

theorem AgreesWithin.repeated (agrees : AgreesWithin text P body body')
    (keeps : Keeps text P body) (local_ : Local text body) (least : Nat) (most : Option Nat) :
    AgreesWithin text P (Regex.repeated body least most greedy)
      (Regex.repeated body' least most greedy) := by
  intro s k hs hk
  unfold Regex.repeated
  split
  · simp only [agrees.onePassOrMore keeps local_ s k hs hk]
  · exact agrees.passesThen (agrees.onePassOrMore keeps local_) keeps keeps.onePassOrMore local_ _
      s k hs hk
  · exact agrees.passesThen (agrees.passesUpTo keeps local_ _) keeps (keeps.passesUpTo _) local_ _
      s k hs hk

/-! ## The plain search -/

/-- A search depends on its continuation at places of the text only. -/
theorem run_congr (r : Regex ν) : Local text (r.run : Searcher ν α) := by
  induction r with
  | empty => intro s k k' hs hk; exact hk s hs
  | text cs =>
    intro s k k' hs hk
    simp only [Regex.run]
    cases h : s.skip? cs with
    | none => rfl
    | some t => exact hk t (hs.skip? h)
  | oneOf set =>
    intro s k k' hs hk
    simp only [Regex.run]
    cases h : s.step? set with
    | none => rfl
    | some t => exact hk t (hs.step? h)
  | place p => intro s k k' hs hk; simp only [Regex.run, hk s hs]
  | cat a b iha ihb =>
    intro s k k' hs hk
    exact iha s _ _ hs fun t ht => ihb t _ _ ht hk
  | alt a b iha ihb =>
    intro s k k' hs hk
    simp only [Regex.run, iha s k k' hs hk, ihb s k k' hs hk]
  | group r ih => exact ih
  | named n r ih =>
    intro s k k' hs hk
    exact ih s _ _ hs fun t ht => hk (t.record n s) ht.record
  | times r least most greedy ih => exact Local.repeated ih least most

/-- A set that has each place where an accepted character and one of its places come has a place
from which accepted characters lead to it. -/
theorem of_accepted {accepts : Char → Bool}
    (closed : ∀ i c, text.toArray[i]? = some c → accepts c → P (i + 1) → P i) (cs rest : List Char)
    (accepted : ∀ c ∈ cs, accepts c) (i : Nat) (here : text.drop i = cs ++ rest)
    (after : P (i + cs.length)) : P i := by
  induction cs generalizing i with
  | nil => exact after
  | cons c cs ih =>
    have first : text[i]? = some c := by
      rw [← Nat.add_zero i, ← List.getElem?_drop, here]; rfl
    have more : text.drop (i + 1) = cs ++ rest := by
      rw [← List.drop_drop, here]; rfl
    refine closed i c (by simpa using first) (accepted c (by simp)) ?_
    refine ih (fun d hd => accepted d (by simp [hd])) (i + 1) more ?_
    rwa [List.length_cons, Nat.add_comm cs.length, ← Nat.add_assoc] at after

private theorem contains_alphabet_text {cs : List Char} {c : Char} (h : c ∈ cs) :
    (Regex.text cs : Regex ν).alphabet.contains c = true := by
  induction cs with
  | nil => cases h
  | cons d cs ih =>
    rcases List.mem_cons.1 h with rfl | h
    · simp [alphabet, CharSet.contains]
    · have := ih h
      simp_all [alphabet, CharSet.contains]

/-- A set that has each place where a character of the alphabet and one of its places come has all
places from which a search succeeds in it. -/
theorem run_keeps {accepts : Char → Bool}
    (closed : ∀ i c, text.toArray[i]? = some c → accepts c → P (i + 1) → P i) (r : Regex ν)
    (within : ∀ c, r.alphabet.contains c → accepts c) :
    Keeps text P (r.run : Searcher ν α) := by
  induction r with
  | empty => intro s k hs hk h; exact hk s hs h
  | text cs =>
    intro s k hs hk h
    obtain ⟨a, h⟩ := Option.isSome_iff_exists.1 h
    obtain ⟨t, skip, ha⟩ := Option.bind_eq_some_iff.1 h
    obtain ⟨hr, hp⟩ := Cursor.skip?_eq_some skip
    refine of_accepted closed cs t.rest (fun c hc => within c (contains_alphabet_text hc))
      s.position (hs.drop_position.trans hr) ?_
    rw [← hp]
    exact hk t (hs.skip? skip) (by simp [ha])
  | oneOf set =>
    intro s k hs hk h
    obtain ⟨a, h⟩ := Option.isSome_iff_exists.1 h
    obtain ⟨t, step, ha⟩ := Option.bind_eq_some_iff.1 h
    obtain ⟨c, hr, hc, hp⟩ := Cursor.step?_eq_some step
    refine closed s.position c (by simp [hs.getElem?_position, hr]) (within c hc) ?_
    rw [← hp]
    exact hk t (hs.step? step) (by simp [ha])
  | place p =>
    intro s k hs hk h
    simp only [Regex.run] at h
    split at h
    · exact hk s hs h
    · cases h
  | cat a b iha ihb =>
    have hb := ihb fun c hc => within c (by simp [alphabet, CharSet.contains, hc])
    intro s k hs hk h
    exact iha (fun c hc => within c (by simp [alphabet, CharSet.contains, hc])) s _ hs
      (fun t ht h => hb t k ht hk h) h
  | alt a b iha ihb =>
    intro s k hs hk h
    rcases isSome_orElse h with h | h
    · exact iha (fun c hc => within c (by simp [alphabet, CharSet.contains, hc])) s k hs hk h
    · exact ihb (fun c hc => within c (by simp [alphabet, CharSet.contains, hc])) s k hs hk h
  | group r ih => exact ih within
  | named n r ih =>
    intro s k hs hk h
    exact ih within s (fun t => k (t.record n s)) hs (fun t ht h => hk (t.record n s) ht.record h) h
  | times r least most greedy ih => exact Keeps.repeated (ih within) least most

/-- A place from which any number of passes lead to the goal is in `Regex.beforeMany`. -/
theorem run_keeps_beforeMany (r : Regex ν) (goal : Places) :
    Keeps text (fun i => (r.beforeMany text.toArray goal).has i = true)
      (r.run : Searcher ν α) :=
  run_keeps (fun _ _ next accepted rest => Places.has_backMany_of_next next accepted rest) r
    fun _ h => h

theorem has_beforeMany {r : Regex ν} {goal : Places} {s : Cursor ν} (hs : s.At text)
    (here : goal.has s.position = true) : (r.beforeMany text.toArray goal).has s.position = true :=
  Places.has_backMany_of_has hs.position_le here

/-! ## Places from which a search succeeds -/

private theorem has_before_text {goal : Places} (cs rest : List Char) (i : Nat)
    (here : text.drop i = cs ++ rest) (after : goal.has (i + cs.length) = true) :
    ((Regex.text cs : Regex ν).before text.toArray goal).has i = true := by
  induction cs generalizing i with
  | nil => exact after
  | cons c cs ih =>
    have first : text[i]? = some c := by
      rw [← Nat.add_zero i, ← List.getElem?_drop, here]; rfl
    have more : text.drop (i + 1) = cs ++ rest := by
      rw [← List.drop_drop, here]; rfl
    refine Places.has_back (by simpa using first) (by simp) (ih (i + 1) more ?_)
    rwa [List.length_cons, Nat.add_comm cs.length, ← Nat.add_assoc] at after

/-- A place from which a search succeeds in a set only is in `Regex.before`. -/
theorem has_before_of_run (r : Regex ν) {goal : Places} {s : Cursor ν} {k : Cursor ν → Option α}
    (hs : s.At text) (hk : ∀ t, t.At text → (k t).isSome → goal.has t.position = true)
    (h : (r.run s k).isSome) : (r.before text.toArray goal).has s.position = true := by
  induction r generalizing goal s k with
  | empty => exact hk s hs h
  | text cs =>
    obtain ⟨a, h⟩ := Option.isSome_iff_exists.1 h
    obtain ⟨t, skip, ha⟩ := Option.bind_eq_some_iff.1 h
    obtain ⟨hr, hp⟩ := Cursor.skip?_eq_some skip
    refine has_before_text cs t.rest s.position (hs.drop_position.trans hr) ?_
    rw [← hp]
    exact hk t (hs.skip? skip) (by simp [ha])
  | oneOf set =>
    obtain ⟨a, h⟩ := Option.isSome_iff_exists.1 h
    obtain ⟨t, step, ha⟩ := Option.bind_eq_some_iff.1 h
    obtain ⟨c, hr, hc, hp⟩ := Cursor.step?_eq_some step
    refine Places.has_back (by simp [hs.getElem?_position, hr]) hc ?_
    rw [← hp]
    exact hk t (hs.step? step) (by simp [ha])
  | place p =>
    simp only [Regex.run] at h
    split at h
    · next met =>
      have here := hk s hs h
      cases p with
      | start =>
        have : s.position = 0 := by
          rw [hs.2]
          simpa [Cursor.meets, Place.holds] using met
        simp_all [before, Places.has_upTo]
      | stop =>
        have : s.position = text.length := by
          obtain ⟨rfl, hp⟩ := hs
          simp_all [Cursor.meets, Place.holds]
        simp_all [before, Places.has_upTo]
      | _ => exact here
    · cases h
  | cat a b iha ihb => exact iha hs (fun t ht h => ihb ht hk h) h
  | alt a b iha ihb =>
    rw [before, Places.has_union hs.position_le, Bool.or_eq_true]
    exact (isSome_orElse h).imp (iha hs hk) (ihb hs hk)
  | group r ih => exact ih hs hk h
  | named n r ih =>
    simp only [Regex.run] at h
    exact ih hs (fun t ht h => hk (t.record n s) ht.record h) h
  | times r least most greedy ih =>
    have keeps : Keeps text _ (r.run : Searcher ν α) := run_keeps_beforeMany r goal
    have hk' : ∀ t, t.At text → (k t).isSome →
        (r.beforeMany text.toArray goal).has t.position = true :=
      fun t ht h => has_beforeMany ht (hk t ht h)
    cases least with
    | zero => exact keeps.repeated 0 most s k hs hk' h
    | succ least =>
      obtain ⟨k', good, h⟩ := keeps.exists_of_repeated_succ hk' h
      exact ih hs good h

/-! ## The search without vain attempts -/

private theorem onlyIn_of_isSome {goal : Places} {s : Cursor ν} {k : Cursor ν → Option α}
    (h : (onlyIn goal k s).isSome) : goal.has s.position = true := by
  unfold onlyIn at h
  split at h
  · assumption
  · cases h

private theorem onlyIn_eq {goal : Places} {s : Cursor ν} {k : Cursor ν → Option α}
    (h : (k s).isSome → goal.has s.position = true) : onlyIn goal k s = k s := by
  unfold onlyIn
  split
  · rfl
  · cases hk : k s <;> simp_all

theorem guide_starts (r : Regex ν) (text : Array Char) (goal : Places) :
    (r.guide text goal : Guide ν α).starts = r.before text goal := by
  induction r generalizing goal with
  | cat a b iha ihb =>
    unfold guide
    split
    · exact congrArg (a.before text) (ihb goal)
    · exact (iha _).trans (congrArg (a.before text) (ihb goal))
  | alt a b iha ihb => simp only [guide, before, iha, ihb]
  | group r ih => exact ih goal
  | named n r ih => exact ih goal
  | times r least most greedy ih =>
    cases least with
    | zero => rfl
    | succ least => exact ih _
  | _ => rfl

/-- The search without vain attempts is the plain one. -/
theorem guide_search (r : Regex ν) {goal : Places} {s : Cursor ν} {k : Cursor ν → Option α}
    (hs : s.At text) (hk : ∀ t, t.At text → (k t).isSome → goal.has t.position = true) :
    (r.guide text.toArray goal).search s k = r.run s k := by
  induction r generalizing goal s k with
  | cat a b iha ihb =>
    unfold guide
    split
    · exact a.run_congr s _ _ hs fun t ht => ihb ht hk
    · simp only [guide_starts]
      rw [iha hs fun t ht h => onlyIn_of_isSome h]
      refine a.run_congr s _ _ hs fun t ht => ?_
      rw [onlyIn_eq fun h => ?_, ihb ht hk]
      rw [ihb ht hk] at h
      exact b.has_before_of_run ht hk h
  | alt a b iha ihb => simp only [guide, Regex.run, iha hs hk, ihb hs hk]
  | group r ih => exact ih hs hk
  | named n r ih =>
    simp only [guide]
    rw [ih hs fun t ht h => onlyIn_of_isSome h]
    exact r.run_congr s _ _ hs fun t ht => onlyIn_eq fun h => hk (t.record n s) ht.record h
  | times r least most greedy ih =>
    have keeps : Keeps text _ (r.run : Searcher ν α) := run_keeps_beforeMany r goal
    refine AgreesWithin.repeated (fun t k ht hk => ?_) keeps r.run_congr least most s k hs
      fun t ht h => has_beforeMany ht (hk t ht h)
    rw [ih ht fun u hu h => onlyIn_of_isSome h]
    exact r.run_congr t _ _ ht fun u hu => onlyIn_eq fun h => hk u hu h
  | _ => rfl

/-! ## The leftmost match -/

/-- The places of a text from one on, in order. -/
def placesFrom (before : List Char) (position : Nat) : List Char → List (Cursor ν)
  | [] => [⟨before, position, [], []⟩]
  | c :: rest => ⟨before, position, c :: rest, []⟩ :: placesFrom (c :: before) (position + 1) rest

private theorem searchFrom?_eq (r : Regex ν) (before : List Char) (rest : List Char)
    (h : before.reverse ++ rest = text) :
    searchFrom? (r.guide text.toArray (.all text.toArray.size)) before before.length rest =
      (placesFrom before before.length rest).findSome? fun s => r.run s fun t => some t.found := by
  have here (s : Cursor ν) (hs : s.At text) :
      onlyIn (r.before text.toArray (.all text.toArray.size))
          (fun s => (r.guide text.toArray (.all text.toArray.size)).search s
            fun t => some t.found) s =
        r.run s fun t => some t.found := by
    have good : ∀ t : Cursor ν, t.At text → (some t.found).isSome →
        (Places.all text.toArray.size).has t.position = true :=
      fun t ht _ => Places.has_all ht.position_le
    rw [onlyIn_eq, r.guide_search hs good]
    rw [r.guide_search hs good]
    exact fun h => r.has_before_of_run hs good h
  induction rest generalizing before with
  | nil =>
    unfold searchFrom?
    simp only [placesFrom, List.findSome?_cons, List.findSome?_nil, guide_starts]
    rw [here _ ⟨h, rfl⟩]
    cases r.run ⟨before, before.length, [], []⟩ fun t => some t.found <;> rfl
  | cons c rest ih =>
    unfold searchFrom?
    simp only [placesFrom, List.findSome?_cons, guide_starts]
    rw [here _ ⟨h, rfl⟩, show before.length + 1 = (c :: before).length from rfl,
      ih (c :: before) (by simpa using h)]
    cases r.run ⟨before, before.length, c :: rest, []⟩ fun t => some t.found <;> rfl

/-- A search finds the groups of the preferred match from the first place that has one. -/
theorem search?_eq (r : Regex ν) (text : List Char) :
    r.search? text = (placesFrom [] 0 text).findSome? fun s => r.run s fun t => some t.found :=
  searchFrom?_eq r [] text rfl

end Regex

end PlainSteps
