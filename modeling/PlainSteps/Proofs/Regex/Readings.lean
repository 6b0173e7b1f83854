import PlainSteps.Regex.SearchLemmas

/-!
# The ways to read a text

An expression without conditions on places can match the start of a text in several ways.
`Regex.readings` lists them in order of preference, each with what it leaves and the groups that it
records, and a search tries them in turn.

* `Reading`: a match at the start of a text.
* `Regex.readings`: the readings of a text, in order of preference.
* `Regex.word_append_rest`: a reading splits its text.
* `Regex.run_eq`: a search is the first answer after one of the readings.
* `Regex.search?_tied`: the search of an expression that has to match a whole text.

Proof-only: no module that runs imports this one.
-/

namespace PlainSteps

/-- A match at the start of a text. -/
structure Reading (ν : Type) where
  /-- What is matched. -/
  word : List Char
  /-- What remains of the text. -/
  rest : List Char
  /-- The texts of the groups that have closed, the latest first. -/
  found : List (ν × List Char)

namespace Reading

variable {ν : Type}

/-- The reading that matches nothing. -/
def idle (cs : List Char) : Reading ν := ⟨[], cs, []⟩

/-- A reading, and then another of what it leaves. -/
def andThen (x y : Reading ν) : Reading ν := ⟨x.word ++ y.word, y.rest, y.found ++ x.found⟩

/-- The reading with its text recorded under a name. -/
def record (name : ν) (x : Reading ν) : Reading ν := { x with found := (name, x.word) :: x.found }

end Reading

/-- The place that a reading leads to. -/
def Cursor.after {ν : Type} (s : Cursor ν) (x : Reading ν) : Cursor ν :=
  ⟨x.word.reverse ++ s.before, s.position + x.word.length, x.rest, x.found ++ s.found⟩

namespace Cursor

variable {ν : Type}

theorem after_idle (s : Cursor ν) : s.after (.idle s.rest) = s := rfl

theorem after_andThen (s : Cursor ν) (x y : Reading ν) :
    s.after (x.andThen y) = (s.after x).after y := by
  simp [after, Reading.andThen, Nat.add_assoc]

theorem position_lt_after (s : Cursor ν) (x : Reading ν) :
    s.position < (s.after x).position ↔ x.word ≠ [] := by
  cases h : x.word <;> simp [after, h]

theorem after_record (s : Cursor ν) {x : Reading ν} (name : ν) (split : x.word ++ x.rest = s.rest) :
    (s.after x).record name s = s.after (x.record name) := by
  simp [after, Cursor.record, Reading.record, ← split]

end Cursor

namespace Regex

variable {ν α : Type}

/-! ## The list of readings -/

/-- How a text is read. -/
abbrev Reader (ν : Type) : Type := List Char → List (Reading ν)

/-- The reader without readings. -/
def Reader.nothing : Reader ν := fun _ => []

/-- One reader after another. -/
def Reader.andThen (first second : Reader ν) : Reader ν := fun cs =>
  (first cs).flatMap fun x => (second x.rest).map x.andThen

/-- The readings that match something. -/
def Reader.consuming (read : Reader ν) : Reader ν := fun cs => (read cs).filter (! ·.word.isEmpty)

/-- The readings of another reader and the idle one: this is the last choice of a greedy reader. -/
def Reader.orIdle (greedy : Bool) (more : Reader ν) : Reader ν := fun cs =>
  if greedy then more cs ++ [.idle cs] else .idle cs :: more cs

/-- Passes that consume; `fuel` bounds the characters that remain. -/
def readPasses (body : Reader ν) (greedy : Bool) : Nat → Reader ν
  | 0 => .orIdle true .nothing
  | fuel + 1 => .orIdle greedy (body.consuming.andThen (readPasses body greedy fuel))

/-- At least one pass: the first may be empty, and is then the last. -/
def readOneOrMore (body : Reader ν) (greedy : Bool) : Reader ν := fun cs =>
  (body cs).flatMap fun x =>
    if x.word.isEmpty then [x]
    else (readPasses body greedy x.rest.length x.rest).map x.andThen

/-- At most `n` passes. -/
def readUpTo (body : Reader ν) (greedy : Bool) : Nat → Reader ν
  | 0 => .orIdle true .nothing
  | n + 1 => .orIdle greedy (body.andThen (readUpTo body greedy n))

/-- Exactly `n` passes, and then what `next` reads. -/
def readThen (body next : Reader ν) : Nat → Reader ν
  | 0 => next
  | n + 1 => body.andThen (readThen body next n)

/-- A repetition between two bounds. -/
def readRepeated (body : Reader ν) (least : Nat) (most : Option Nat) (greedy : Bool) : Reader ν :=
  match least, most with
  | 0, none => .orIdle greedy (readOneOrMore body greedy)
  | n + 1, none => readThen body (readOneOrMore body greedy) n
  | n, some m => readThen body (readUpTo body greedy (m - n)) n

/-- The readings of a text, in order of preference. Conditions on places are not considered. -/
def readings : Regex ν → Reader ν
  | .empty => fun cs => [.idle cs]
  | .text ds => fun cs => ((ds.isPrefixOf? cs).map (⟨ds, ·, []⟩)).toList
  | .oneOf set => fun
    | c :: rest => if set.contains c then [⟨[c], rest, []⟩] else []
    | [] => []
  | .place _ => .nothing
  | .cat a b => a.readings.andThen b.readings
  | .alt a b => fun cs => a.readings cs ++ b.readings cs
  | .group r => r.readings
  | .named n r => fun cs => (r.readings cs).map (·.record n)
  | .times r least most greedy => readRepeated r.readings least most greedy

/-- Whether an expression has no condition on a place. -/
def isFree : Regex ν → Bool
  | .place _ => false
  | .cat a b | .alt a b => a.isFree && b.isFree
  | .group r | .named _ r | .times r _ _ _ => r.isFree
  | .empty | .text _ | .oneOf _ => true

/-! ## A reading splits its text -/

/-- Each reading of a text is what it matches and what it leaves. -/
def Reader.Splits (read : Reader ν) : Prop := ∀ cs, ∀ x ∈ read cs, x.word ++ x.rest = cs

variable {first second body next more : Reader ν} {greedy : Bool}

theorem Reader.Splits.andThen (hf : first.Splits) (hs : second.Splits) :
    (first.andThen second).Splits := by
  intro cs z hz
  obtain ⟨x, hx, hz⟩ := List.mem_flatMap.1 hz
  obtain ⟨y, hy, rfl⟩ := List.mem_map.1 hz
  rw [← hf cs x hx, ← hs x.rest y hy]
  exact List.append_assoc ..

theorem Reader.Splits.consuming (h : body.Splits) : body.consuming.Splits :=
  fun cs x hx => h cs x (List.mem_filter.1 hx).1

theorem Reader.Splits.orIdle (h : more.Splits) : (Reader.orIdle greedy more).Splits := by
  intro cs x hx
  have : x ∈ more cs ∨ x = .idle cs := by
    unfold Reader.orIdle at hx
    split at hx
    · simpa using hx
    · simpa [or_comm] using hx
  rcases this with hx | rfl
  · exact h cs x hx
  · rfl

theorem Reader.splits_nothing : (Reader.nothing : Reader ν).Splits := fun _ _ hx => nomatch hx

theorem Reader.Splits.readPasses (h : body.Splits) (fuel : Nat) :
    (Regex.readPasses body greedy fuel).Splits := by
  induction fuel with
  | zero => exact Reader.splits_nothing.orIdle
  | succ fuel ih => exact (h.consuming.andThen ih).orIdle

theorem Reader.Splits.readOneOrMore (h : body.Splits) :
    (Regex.readOneOrMore body greedy).Splits := by
  intro cs z hz
  obtain ⟨x, hx, hz⟩ := List.mem_flatMap.1 hz
  split at hz
  · obtain rfl := List.mem_singleton.1 hz
    exact h cs z hx
  · obtain ⟨y, hy, rfl⟩ := List.mem_map.1 hz
    rw [← h cs x hx, ← h.readPasses x.rest.length x.rest y hy]
    exact List.append_assoc ..

theorem Reader.Splits.readUpTo (h : body.Splits) (n : Nat) :
    (Regex.readUpTo body greedy n).Splits := by
  induction n with
  | zero => exact Reader.splits_nothing.orIdle
  | succ n ih => exact (h.andThen ih).orIdle

theorem Reader.Splits.readThen (h : body.Splits) (hn : next.Splits) (n : Nat) :
    (Regex.readThen body next n).Splits := by
  induction n with
  | zero => exact hn
  | succ n ih => exact h.andThen ih

theorem Reader.Splits.readRepeated (h : body.Splits) (least : Nat) (most : Option Nat) :
    (Regex.readRepeated body least most greedy).Splits := by
  cases most with
  | some m =>
    cases least with
    | zero => exact h.readUpTo m
    | succ n => exact h.readThen (h.readUpTo _) (n + 1)
  | none =>
    cases least with
    | zero => exact h.readOneOrMore.orIdle
    | succ n => exact h.readThen h.readOneOrMore n

/-- A reading splits its text. -/
theorem word_append_rest (r : Regex ν) : r.readings.Splits := by
  induction r with
  | empty =>
    intro cs x hx
    obtain rfl := List.mem_singleton.1 hx
    rfl
  | text ds =>
    intro cs x hx
    obtain ⟨rest, hrest, rfl⟩ := Option.map_eq_some_iff.1 (Option.mem_toList.1 hx)
    exact (Text.isPrefixOf?_eq_some_iff.1 hrest).symm
  | oneOf set =>
    intro cs x hx
    cases cs with
    | nil => cases hx
    | cons c rest =>
      simp only [readings] at hx
      split at hx
      · obtain rfl := List.mem_singleton.1 hx
        rfl
      · cases hx
  | place p => exact Reader.splits_nothing
  | cat a b iha ihb => exact iha.andThen ihb
  | alt a b iha ihb =>
    intro cs x hx
    exact (List.mem_append.1 hx).elim (iha cs x) (ihb cs x)
  | group r ih => exact ih
  | named n r ih =>
    intro cs x hx
    obtain ⟨y, hy, rfl⟩ := List.mem_map.1 hx
    exact ih cs y hy
  | times r least most greedy ih => exact Reader.Splits.readRepeated ih least most

/-! ## A search tries the readings in turn -/

/-- A searcher that hands on the places after the readings of a reader. -/
def Tries (search : Searcher ν α) (read : Reader ν) : Prop :=
  ∀ s k, search s k = (read s.rest).findSome? fun x => k (s.after x)

private theorem findSome?_flatMap {β γ : Type} (f : β → List γ) (k : γ → Option α) (xs : List β) :
    (xs.flatMap f).findSome? k = xs.findSome? fun x => (f x).findSome? k := by
  induction xs with
  | nil => rfl
  | cons x xs ih =>
    rw [List.flatMap_cons, List.findSome?_append, ih, List.findSome?_cons]
    cases (f x).findSome? k <;> rfl

private theorem findSome?_filter {β : Type} (p : β → Bool) (k : β → Option α) (xs : List β) :
    (xs.filter p).findSome? k = xs.findSome? fun x => if p x then k x else none := by
  induction xs with
  | nil => rfl
  | cons x xs ih =>
    by_cases h : p x = true
    · rw [List.filter_cons_of_pos h, List.findSome?_cons, List.findSome?_cons, ih, if_pos h]
    · rw [List.filter_cons_of_neg h, ih, List.findSome?_cons, if_neg h]

private theorem findSome?_congr {β : Type} {f g : β → Option α} {xs : List β}
    (h : ∀ x ∈ xs, f x = g x) : xs.findSome? f = xs.findSome? g := by
  induction xs with
  | nil => rfl
  | cons x xs ih =>
    rw [List.findSome?_cons, List.findSome?_cons, h x List.mem_cons_self,
      ih fun y hy => h y (List.mem_cons_of_mem x hy)]

private theorem findSome?_andThen (x : Reading ν) (ys : List (Reading ν)) (s : Cursor ν)
    (k : Cursor ν → Option α) :
    (ys.map x.andThen).findSome? (fun z => k (s.after z)) =
      ys.findSome? fun y => k ((s.after x).after y) := by
  rw [List.findSome?_map]
  exact congrArg (List.findSome? · ys) (funext fun y => congrArg k (s.after_andThen x y))

/-- What a reader that goes on with another hands on. -/
theorem Reader.findSome?_andThen (first second : Reader ν) (s : Cursor ν)
    (k : Cursor ν → Option α) :
    ((first.andThen second) s.rest).findSome? (fun z => k (s.after z)) =
      (first s.rest).findSome? fun x =>
        (second (s.after x).rest).findSome? fun y => k ((s.after x).after y) := by
  rw [Reader.andThen, findSome?_flatMap]
  exact congrArg (List.findSome? · _)
    (funext fun x => Regex.findSome?_andThen x (second x.rest) s k)

/-- What a reader that may be idle hands on. -/
theorem Reader.findSome?_orIdle (greedy : Bool) (more : Reader ν) (s : Cursor ν)
    (k : Cursor ν → Option α) :
    ((Reader.orIdle greedy more) s.rest).findSome? (fun x => k (s.after x)) =
      if greedy then ((more s.rest).findSome? fun x => k (s.after x)) <|> k s
      else k s <|> (more s.rest).findSome? fun x => k (s.after x) := by
  unfold Reader.orIdle
  split
  · rw [List.findSome?_append, List.findSome?_singleton, Cursor.after_idle]
    cases (more s.rest).findSome? fun x => k (s.after x) <;> rfl
  · rw [List.findSome?_cons, Cursor.after_idle]
    cases k s <;> rfl

variable {search : Searcher ν α}

theorem Tries.passes (tries : Tries search body) (fuel : Nat) :
    Tries (Regex.passes search greedy fuel) (readPasses body greedy fuel) := by
  induction fuel with
  | zero =>
    intro s k
    exact (Reader.findSome?_orIdle true .nothing s k).symm
  | succ fuel ih =>
    intro s k
    have more : (search s fun t =>
          if s.position < t.position then Regex.passes search greedy fuel t k else none) =
        ((body.consuming.andThen (readPasses body greedy fuel)) s.rest).findSome?
          fun x => k (s.after x) := by
      rw [tries, Reader.findSome?_andThen, Reader.consuming, findSome?_filter]
      refine congrArg (List.findSome? · _) (funext fun x => ?_)
      simp only [ih (s.after x) k, s.position_lt_after x, Bool.not_eq_true',
        List.isEmpty_eq_false_iff,
        ne_eq]
    rw [readPasses, Reader.findSome?_orIdle, ← more]
    rfl

theorem Tries.onePassOrMore (tries : Tries search body) :
    Tries (Regex.onePassOrMore search greedy) (readOneOrMore body greedy) := by
  intro s k
  unfold Regex.onePassOrMore readOneOrMore
  rw [tries, findSome?_flatMap]
  refine congrArg (List.findSome? · _) (funext fun x => ?_)
  by_cases h : x.word = []
  · rw [if_neg (by simp [s.position_lt_after, h]), if_pos (by simp [h]), List.findSome?_singleton]
  · rw [if_pos ((s.position_lt_after x).2 h), if_neg (by simpa using h), findSome?_andThen]
    exact tries.passes _ (s.after x) k

theorem Tries.passesUpTo (tries : Tries search body) (n : Nat) :
    Tries (Regex.passesUpTo search greedy n) (readUpTo body greedy n) := by
  induction n with
  | zero =>
    intro s k
    exact (Reader.findSome?_orIdle true .nothing s k).symm
  | succ n ih =>
    intro s k
    have more : (search s fun t => Regex.passesUpTo search greedy n t k) =
        ((body.andThen (readUpTo body greedy n)) s.rest).findSome? fun x => k (s.after x) := by
      rw [tries, Reader.findSome?_andThen]
      exact congrArg (List.findSome? · _) (funext fun x => ih (s.after x) k)
    rw [readUpTo, Reader.findSome?_orIdle, ← more]
    rfl

theorem Tries.passesThen {search' : Searcher ν α} (tries : Tries search body)
    (tries' : Tries search' next) (n : Nat) :
    Tries (Regex.passesThen search search' n) (readThen body next n) := by
  induction n with
  | zero => exact tries'
  | succ n ih =>
    intro s k
    rw [readThen, Reader.findSome?_andThen]
    exact (tries s _).trans (congrArg (List.findSome? · _) (funext fun x => ih (s.after x) k))

theorem Tries.repeated (tries : Tries search body) (least : Nat) (most : Option Nat) :
    Tries (Regex.repeated search least most greedy) (readRepeated body least most greedy) := by
  cases most with
  | some m =>
    cases least with
    | zero => exact tries.passesUpTo m
    | succ n => exact tries.passesThen (tries.passesUpTo _) (n + 1)
  | none =>
    cases least with
    | zero =>
      intro s k
      have some_ : Regex.onePassOrMore search greedy s k = _ := tries.onePassOrMore s k
      rw [readRepeated, Reader.findSome?_orIdle, ← some_]
      rfl
    | succ n => exact tries.passesThen tries.onePassOrMore n

/-- A search is the first answer after one of the readings. -/
theorem run_eq (r : Regex ν) (free : r.isFree = true) :
    Tries (r.run : Searcher ν α) r.readings := by
  induction r with
  | empty =>
    intro s k
    exact (Reader.findSome?_orIdle true .nothing s k).symm
  | text ds =>
    intro s k
    simp only [run, readings, Cursor.skip?]
    cases ds.isPrefixOf? s.rest with
    | none => rfl
    | some rest => exact List.findSome?_singleton.symm
  | oneOf set =>
    intro s k
    simp only [run, readings, Cursor.step?]
    cases hr : s.rest with
    | nil => rfl
    | cons c rest =>
      simp only
      split
      · exact List.findSome?_singleton.symm
      · rfl
  | place p => cases free
  | cat a b iha ihb =>
    intro s k
    have hab := Bool.and_eq_true_iff.1 free
    rw [readings, Reader.findSome?_andThen]
    refine (iha hab.1 s _).trans (congrArg (List.findSome? · _) (funext fun x => ?_))
    exact ihb hab.2 (s.after x) k
  | alt a b iha ihb =>
    intro s k
    have hab := Bool.and_eq_true_iff.1 free
    simp only [run, readings]
    rw [iha hab.1, ihb hab.2, List.findSome?_append]
    cases (a.readings s.rest).findSome? fun x => k (s.after x) <;> rfl
  | group r ih => exact ih free
  | named n r ih =>
    intro s k
    simp only [run, readings]
    rw [ih free, List.findSome?_map]
    exact findSome?_congr fun x hx =>
      congrArg k (s.after_record n (r.word_append_rest s.rest x hx))
  | times r least most greedy ih => exact (ih free).repeated least most

/-! ## Matching a whole text -/

/-- The readings of a whole text. -/
def wholeReadings (r : Regex ν) (text : List Char) : List (Reading ν) :=
  (r.readings text).filter (·.rest.isEmpty)

private theorem findSome?_placesFrom_eq_none {f : Cursor ν → Option α}
    (h : ∀ s, s.before ≠ [] → f s = none) {before : List Char} (hb : before ≠ [])
    (position : Nat) (rest : List Char) : (placesFrom before position rest).findSome? f = none := by
  induction rest generalizing before position with
  | nil =>
    rw [placesFrom, List.findSome?_singleton]
    exact h _ hb
  | cons c rest ih =>
    rw [placesFrom, List.findSome?_cons, h _ hb]
    exact ih (List.cons_ne_nil c before) (position + 1)

/-- Two expressions that are tied to both ends of a text find the groups of their first reading of
the whole text. -/
theorem search?_tied (a b : Regex ν) (free : (a.cat b).isFree = true) (text : List Char) :
    (Regex.cat (.place .start) (.cat a (.cat b (.place .stop)))).search? text =
      ((a.cat b).wholeReadings text).head?.map (·.found) := by
  let m : Regex ν := .cat (.place .start) (.cat a (.cat b (.place .stop)))
  have later (s : Cursor ν) (hs : s.before ≠ []) : m.run s (fun t => some t.found) = none := by
    obtain ⟨c, before, hb⟩ := List.exists_cons_of_ne_nil hs
    simp [m, run, Cursor.meets, Place.holds, hb]
  have first : m.run ⟨[], 0, text, []⟩ (fun t => some t.found) =
      ((a.cat b).wholeReadings text).head?.map (·.found) := by
    show ((a.cat b).run ⟨[], 0, text, []⟩ fun t =>
      if t.meets .stop then some t.found else none) = _
    rw [run_eq _ free, wholeReadings, List.head?_filter]
    induction (a.cat b).readings text with
    | nil => rfl
    | cons x xs ih =>
      rw [List.findSome?_cons, List.find?_cons]
      cases hx : x.rest with
      | nil => simp [Cursor.meets, Place.holds, Cursor.after, hx]
      | cons c rest => simpa [Cursor.meets, Place.holds, Cursor.after, hx] using ih
  rw [search?_eq]
  cases text with
  | nil =>
    rw [placesFrom, List.findSome?_singleton]
    exact first
  | cons c rest =>
    rw [placesFrom, List.findSome?_cons, first,
      findSome?_placesFrom_eq_none later (List.cons_ne_nil c []) _ _]
    cases ((a.cat b).wholeReadings (c :: rest)).head? <;> rfl

end Regex

end PlainSteps
