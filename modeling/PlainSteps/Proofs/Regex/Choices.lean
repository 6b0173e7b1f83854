import Mathlib.Tactic.Choose
import PlainSteps.Proofs.Regex.Readings

/-!
# What an expression chooses among

The readings of a text are those choices of an expression that the text starts with, and they come
in an order of preference that does not depend on the text. Each way to put expressions together
has a rule for these choices and their order.

* `Choices`: texts with the groups that are recorded in them, and an order of preference.
* `Reader.Offers`: the readings of every text are the choices that fit it, in order.
* `Reader.Offers.andThen`, `Reader.Offers.optional`: rules for sequences and optional parts, in
  which an earlier choice outweighs the later ones.
* `Regex.offers_oneOrMore`, `Regex.offers_zeroOrMore`: runs of characters of a set.
* `Regex.offers_alternatives`: one of several expressions.
* `Regex.exists_first`: the first reading of a whole text is the preferred choice.

Proof-only: no module that runs imports this one.
-/

namespace PlainSteps

namespace Regex

variable {ν ι κ β : Type}

/-- What a reader chooses among, whatever the text. -/
structure Choices (ν ι : Type) where
  /-- What may be chosen. -/
  valid : ι → Prop
  /-- The text that a choice matches. -/
  text : ι → List Char
  /-- The groups that are recorded in it, the latest first. -/
  found : ι → List (ν × List Char)
  /-- The first of two choices is preferred. -/
  before : ι → ι → Prop

namespace Choices

/-- A choice fits the texts that start with what it matches. -/
def Fits (C : Choices ν ι) (cs : List Char) (i : ι) : Prop := C.valid i ∧ C.text i <+: cs

/-- The reading of a text that makes a choice. -/
def reading (C : Choices ν ι) (cs : List Char) (i : ι) : Reading ν :=
  ⟨C.text i, cs.drop (C.text i).length, C.found i⟩

/-- One choice and then another, the first of which outweighs the second. -/
def andThen (C : Choices ν ι) (D : Choices ν κ) : Choices ν (ι × κ) where
  valid p := C.valid p.1 ∧ D.valid p.2
  text p := C.text p.1 ++ D.text p.2
  found p := D.found p.2 ++ C.found p.1
  before := Prod.Lex C.before D.before

/-- Something is preferred to nothing. -/
def SomeFirst (r : ι → ι → Prop) : Option ι → Option ι → Prop
  | some i, some j => r i j
  | some _, none => True
  | none, _ => False

/-- A choice or, rather than that, nothing. -/
def optional (C : Choices ν ι) : Choices ν (Option ι) where
  valid o := ∀ i ∈ o, C.valid i
  text o := o.elim [] C.text
  found o := o.elim [] C.found
  before := SomeFirst C.before

/-- The choices of one kind. -/
def ofKind (C : Choices ν ι) (kind : ι → Prop) : Choices ν ι :=
  { C with valid := fun i => kind i ∧ C.valid i }

/-- One text only. -/
def only (ν : Type) (cs : List Char) : Choices ν Unit :=
  ⟨fun _ => True, fun _ => cs, fun _ => [], fun _ _ => False⟩

/-- The longer of two texts is preferred, or the shorter. -/
def ByLength : (longest : Bool) → List Char → List Char → Prop
  | true, v, w => w.length < v.length
  | false, v, w => v.length < w.length

theorem ByLength.asymm {longest : Bool} {v w : List Char} (h : ByLength longest v w) :
    ¬ ByLength longest w v := by
  cases longest <;> exact Nat.lt_asymm h

/-- Texts without groups, the longest first or the shortest first. -/
def texts (ν : Type) (valid : List Char → Prop) (longest : Bool) : Choices ν (List Char) :=
  ⟨valid, id, fun _ => [], ByLength longest⟩

end Choices

/-- The readings of a text are the choices that fit it, the preferred ones first. -/
def Reader.OffersAt (read : Reader ν) (C : Choices ν ι) (cs : List Char) : Prop :=
  ∃ is : List ι, read cs = is.map (C.reading cs) ∧ (∀ i, i ∈ is ↔ C.Fits cs i) ∧
    is.Pairwise C.before

/-- The readings of every text are the choices that fit it, the preferred ones first. -/
def Reader.Offers (read : Reader ν) (C : Choices ν ι) : Prop := ∀ cs, read.OffersAt C cs

variable {C : Choices ν ι} {D : Choices ν κ} {read first second : Reader ν}

/-- The same choices under other names. -/
theorem Reader.Offers.rename (h : read.Offers C) (f : ι → κ)
    (valid : ∀ k, D.valid k ↔ ∃ i, C.valid i ∧ f i = k)
    (text : ∀ i, C.valid i → D.text (f i) = C.text i)
    (found : ∀ i, C.valid i → D.found (f i) = C.found i)
    (before : ∀ cs i j, C.Fits cs i → C.Fits cs j → C.before i j → D.before (f i) (f j)) :
    read.Offers D := by
  intro cs
  obtain ⟨is, hread, fits, sorted⟩ := h cs
  refine ⟨is.map f, ?_, fun k => ?_, ?_⟩
  · rw [hread, List.map_map]
    refine List.map_congr_left fun i hi => ?_
    have hi := ((fits i).1 hi).1
    simp [Choices.reading, text i hi, found i hi]
  · rw [List.mem_map]
    constructor
    · rintro ⟨i, hi, rfl⟩
      obtain ⟨hvalid, hstart⟩ := (fits i).1 hi
      exact ⟨(valid _).2 ⟨i, hvalid, rfl⟩, by rwa [text i hvalid]⟩
    · rintro ⟨hvalid, hstart⟩
      obtain ⟨i, hi, rfl⟩ := (valid k).1 hvalid
      exact ⟨i, (fits i).2 ⟨hi, by rwa [text i hi] at hstart⟩, rfl⟩
  · rw [List.pairwise_map]
    exact sorted.imp_of_mem fun hi hj => before cs _ _ ((fits _).1 hi) ((fits _).1 hj)

theorem append_prefix_iff {v w cs : List Char} :
    v ++ w <+: cs ↔ v <+: cs ∧ w <+: cs.drop v.length := by
  constructor
  · rintro ⟨rest, rfl⟩
    exact ⟨⟨w ++ rest, by simp⟩, ⟨rest, by simp⟩⟩
  · rintro ⟨⟨more, rfl⟩, ⟨rest, h⟩⟩
    rw [List.drop_left] at h
    exact ⟨rest, by rw [List.append_assoc, h]⟩

/-- One reader after another chooses twice, and the first choice outweighs the second. -/
theorem Reader.Offers.andThen (hf : first.Offers C) (hs : second.Offers D) :
    (first.andThen second).Offers (C.andThen D) := by
  intro cs
  obtain ⟨is, hread, fits, sorted⟩ := hf cs
  choose js hread' fits' sorted' using hs
  have later (i : ι) : (second (cs.drop (C.text i).length)).map (C.reading cs i).andThen =
      ((js (cs.drop (C.text i).length)).map (i, ·)).map ((C.andThen D).reading cs) := by
    rw [hread', List.map_map, List.map_map]
    refine List.map_congr_left fun j _ => ?_
    simp [Choices.reading, Choices.andThen, Reading.andThen]
  refine ⟨is.flatMap fun i => (js (cs.drop (C.text i).length)).map (i, ·), ?_, fun p => ?_, ?_⟩
  · rw [Reader.andThen, hread, List.flatMap_map, List.map_flatMap]
    exact congrArg (List.flatMap · is) (funext later)
  · obtain ⟨i, j⟩ := p
    simp only [List.mem_flatMap, List.mem_map, Prod.mk.injEq]
    constructor
    · rintro ⟨i', hi, j', hj, rfl, rfl⟩
      obtain ⟨hC, hstart⟩ := (fits i').1 hi
      obtain ⟨hD, hstart'⟩ := (fits' _ j').1 hj
      exact ⟨⟨hC, hD⟩, append_prefix_iff.2 ⟨hstart, hstart'⟩⟩
    · rintro ⟨⟨hC, hD⟩, hstart⟩
      obtain ⟨hi, hj⟩ := append_prefix_iff.1 hstart
      exact ⟨i, (fits i).2 ⟨hC, hi⟩, j, (fits' _ j).2 ⟨hD, hj⟩, rfl, rfl⟩
  · rw [List.pairwise_flatMap]
    refine ⟨fun i _ => ?_, sorted.imp fun hij x hx y hy => ?_⟩
    · rw [List.pairwise_map]
      exact (sorted' _).imp fun h => .right _ h
    · obtain ⟨_, _, rfl⟩ := List.mem_map.1 hx
      obtain ⟨_, _, rfl⟩ := List.mem_map.1 hy
      exact .left _ _ hij

/-- A greedy reader that may be idle is so as its last choice. -/
theorem Reader.Offers.orIdle (h : read.Offers C) :
    (Reader.orIdle true read).Offers C.optional := by
  intro cs
  obtain ⟨is, hread, fits, sorted⟩ := h cs
  refine ⟨is.map some ++ [none], ?_, fun o => ?_, ?_⟩
  · rw [Reader.orIdle, if_pos rfl, hread, List.map_append, List.map_map]
    rfl
  · cases o with
    | none => simp [Choices.Fits, Choices.optional]
    | some i => simp [Choices.Fits, Choices.optional, fits i]
  · rw [List.pairwise_append, List.pairwise_map]
    refine ⟨sorted, List.pairwise_singleton _ _, fun x hx y hy => ?_⟩
    obtain ⟨i, -, rfl⟩ := List.mem_map.1 hx
    obtain rfl := List.mem_singleton.1 hy
    trivial

/-! ## Single expressions -/

theorem offers_text (ds : List Char) : (Regex.text ds : Regex ν).readings.Offers (.only ν ds) := by
  intro cs
  by_cases h : ds <+: cs
  · obtain ⟨rest, rfl⟩ := h
    refine ⟨[()], ?_, fun i => ?_, List.pairwise_singleton _ _⟩
    · simp [readings, Text.isPrefixOf?_eq_some_iff.2, Choices.reading, Choices.only]
    · simp [Choices.Fits, Choices.only]
  · refine ⟨[], ?_, fun i => ?_, .nil⟩
    · have none : ds.isPrefixOf? cs = none :=
        Option.eq_none_iff_forall_not_mem.2 fun rest hrest =>
          h ⟨rest, (Text.isPrefixOf?_eq_some_iff.1 hrest).symm⟩
      simp [readings, none]
    · simp [Choices.Fits, Choices.only, h]

theorem offers_empty : (Regex.empty : Regex ν).readings.Offers (.only ν []) := by
  intro cs
  refine ⟨[()], ?_, fun i => ?_, List.pairwise_singleton _ _⟩
  · simp [readings, Choices.reading, Choices.only, Reading.idle]
  · simp [Choices.Fits, Choices.only]

theorem offers_cat {a b : Regex ν} (ha : a.readings.Offers C) (hb : b.readings.Offers D) :
    (a.cat b).readings.Offers (C.andThen D) := ha.andThen hb

theorem offers_named {r : Regex ν} (name : ν) (h : r.readings.Offers C) :
    (r.named name).readings.Offers { C with found := fun i => (name, C.text i) :: C.found i } := by
  intro cs
  obtain ⟨is, hread, fits, sorted⟩ := h cs
  refine ⟨is, ?_, fits, sorted⟩
  simp only [readings, hread, List.map_map]
  rfl

theorem offers_optional {r : Regex ν} (h : r.readings.Offers C) :
    r.optional.readings.Offers C.optional := by
  have once : (r.readings.andThen (readUpTo r.readings true 0)) = r.readings := by
    funext cs
    simp [Reader.andThen, readUpTo, Reader.orIdle, Reader.nothing, Reading.andThen, Reading.idle]
  have both : (readUpTo r.readings true 1).Offers C.optional := by
    rw [readUpTo, once]
    exact h.orIdle
  exact both

/-! ## Runs of characters -/

section Runs

variable {set : CharSet} {longest : Bool} {cs : List Char}

/-- A run of characters of a set. -/
def IsRun (set : CharSet) (w : List Char) : Prop := ∀ c ∈ w, set.contains c = true

/-- The empty run is preferred last where the longest is preferred, and else first. -/
theorem offersAt_orIdle
    (h : read.OffersAt (.texts ν (fun w => w ≠ [] ∧ IsRun set w) longest) cs) :
    (Reader.orIdle longest read).OffersAt (.texts ν (IsRun set) longest) cs := by
  obtain ⟨ws, hread, fits, sorted⟩ := h
  have member (w : List Char) :
      w ∈ ws ∨ w = [] ↔ (Choices.texts ν (IsRun set) longest).Fits cs w := by
    rw [fits w]
    constructor
    · rintro (⟨⟨-, hrun⟩, hstart⟩ | rfl)
      · exact ⟨hrun, hstart⟩
      · exact ⟨fun c hc => absurd hc List.not_mem_nil, List.nil_prefix⟩
    · rintro ⟨hrun, hstart⟩
      by_cases hw : w = []
      · exact .inr hw
      · exact .inl ⟨⟨hw, hrun⟩, hstart⟩
  have pos (w : List Char) (hw : w ∈ ws) : 0 < w.length :=
    List.length_pos_iff.2 ((fits w).1 hw).1.1
  cases longest with
  | true =>
    refine ⟨ws ++ [[]], ?_, fun w => ?_, ?_⟩
    · rw [Reader.orIdle, if_pos rfl, hread, List.map_append]
      rfl
    · rw [List.mem_append, List.mem_singleton]
      exact member w
    · rw [List.pairwise_append]
      refine ⟨sorted, List.pairwise_singleton _ _, fun v hv w hw => ?_⟩
      obtain rfl := List.mem_singleton.1 hw
      exact pos v hv
  | false =>
    refine ⟨[] :: ws, ?_, fun w => ?_, ?_⟩
    · rw [Reader.orIdle, if_neg (by decide), hread, List.map_cons]
      rfl
    · rw [List.mem_cons, or_comm]
      exact member w
    · exact List.pairwise_cons.2 ⟨fun w hw => pos w hw, sorted⟩

/-- A character of the set, and then a run. -/
theorem offersAt_pass
    (h : ∀ c rest, cs = c :: rest → read.OffersAt (.texts ν (IsRun set) longest) rest) :
    ((Regex.oneOf set).readings.consuming.andThen read).OffersAt
      (.texts ν (fun w => w ≠ [] ∧ IsRun set w) longest) cs := by
  cases cs with
  | nil =>
    refine ⟨[], rfl, fun w => iff_of_false List.not_mem_nil ?_, .nil⟩
    rintro ⟨⟨hw, -⟩, hstart⟩
    exact hw (List.prefix_nil.1 hstart)
  | cons c rest =>
    obtain ⟨ws, hread, fits, sorted⟩ := h c rest rfl
    by_cases hc : set.contains c = true
    · refine ⟨ws.map (c :: ·), ?_, fun w => ?_, ?_⟩
      · simp [Reader.andThen, Reader.consuming, readings, hc, hread, Choices.reading, Choices.texts,
          Reading.andThen]
      · rw [List.mem_map]
        constructor
        · rintro ⟨v, hv, rfl⟩
          obtain ⟨hrun, hstart⟩ := (fits v).1 hv
          exact ⟨⟨List.cons_ne_nil c v, List.forall_mem_cons.2 ⟨hc, hrun⟩⟩,
            List.cons_prefix_cons.2 ⟨rfl, hstart⟩⟩
        · rintro ⟨⟨hw, hrun⟩, hstart⟩
          obtain ⟨d, v, rfl⟩ := List.exists_cons_of_ne_nil hw
          obtain ⟨rfl, hv⟩ := List.cons_prefix_cons.1 hstart
          exact ⟨v, (fits v).2 ⟨(List.forall_mem_cons.1 hrun).2, hv⟩, rfl⟩
      · rw [List.pairwise_map]
        refine sorted.imp fun {v w} h => ?_
        cases longest <;> exact Nat.succ_lt_succ h
    · refine ⟨[], ?_, fun w => iff_of_false List.not_mem_nil ?_, .nil⟩
      · simp [Reader.andThen, Reader.consuming, readings, hc]
      · rintro ⟨⟨hw, hrun⟩, hstart⟩
        obtain ⟨d, v, rfl⟩ := List.exists_cons_of_ne_nil hw
        obtain ⟨rfl, -⟩ := List.cons_prefix_cons.1 hstart
        exact hc (List.forall_mem_cons.1 hrun).1

/-- Passes over characters of a set read any number of them. -/
theorem offersAt_readPasses (fuel : Nat) (h : cs.length ≤ fuel) :
    (readPasses (Regex.oneOf set : Regex ν).readings longest fuel).OffersAt
      (.texts ν (IsRun set) longest) cs := by
  induction fuel generalizing cs with
  | zero =>
    obtain rfl := List.eq_nil_of_length_eq_zero (Nat.le_zero.1 h)
    refine ⟨[[]], rfl, fun w => ?_, List.pairwise_singleton _ _⟩
    rw [List.mem_singleton]
    constructor
    · rintro rfl
      exact ⟨fun c hc => absurd hc List.not_mem_nil, List.nil_prefix⟩
    · exact fun h => List.prefix_nil.1 h.2
  | succ fuel ih =>
    rw [readPasses]
    refine offersAt_orIdle (offersAt_pass fun c rest hcs => ih ?_)
    rw [hcs] at h
    exact Nat.le_of_succ_le_succ h

/-- One or more characters of a set. -/
theorem offers_oneOrMore : (Regex.times (.oneOf set) 1 none longest : Regex ν).readings.Offers
    (.texts ν (fun w => w ≠ [] ∧ IsRun set w) longest) := by
  intro cs
  have same : (Regex.times (.oneOf set) 1 none longest : Regex ν).readings cs =
      ((Regex.oneOf set).readings.consuming.andThen
        (readPasses (Regex.oneOf set : Regex ν).readings longest (cs.length - 1))) cs := by
    show readOneOrMore (Regex.oneOf set : Regex ν).readings longest cs = _
    cases cs with
    | nil => rfl
    | cons c rest =>
      by_cases hc : set.contains c = true
      · simp [readOneOrMore, Reader.andThen, Reader.consuming, readings, hc]
      · simp [readOneOrMore, Reader.andThen, Reader.consuming, readings, hc]
  unfold Reader.OffersAt
  rw [same]
  refine offersAt_pass fun c rest hcs => offersAt_readPasses _ ?_
  simp [hcs]

/-- Any number of characters of a set. -/
theorem offers_zeroOrMore : (Regex.oneOf set : Regex ν).zeroOrMore.readings.Offers
    (.texts ν (IsRun set) true) := by
  intro cs
  have first : (Regex.times (.oneOf set) 1 none true : Regex ν).readings.OffersAt _ cs :=
    offers_oneOrMore cs
  exact offersAt_orIdle first

end Runs

/-! ## Alternatives -/

/-- Each choice of the first alternative is preferred to those of the second. -/
theorem offers_alt {a b : Regex ν} {p q : ι → Prop} (ha : a.readings.Offers (C.ofKind p))
    (hb : b.readings.Offers (C.ofKind q))
    (order : ∀ cs i j, (C.ofKind p).Fits cs i → (C.ofKind q).Fits cs j → C.before i j) :
    (Regex.alt a b).readings.Offers (C.ofKind fun i => p i ∨ q i) := by
  intro cs
  obtain ⟨is, hread, fits, sorted⟩ := ha cs
  obtain ⟨js, hread', fits', sorted'⟩ := hb cs
  refine ⟨is ++ js, ?_, fun i => ?_, ?_⟩
  · simp only [readings, hread, hread', List.map_append]
    rfl
  · rw [List.mem_append, fits, fits']
    simp only [Choices.Fits, Choices.ofKind, or_and_right]
  · rw [List.pairwise_append]
    exact ⟨sorted, sorted', fun i hi j hj => order cs i j ((fits i).1 hi) ((fits' j).1 hj)⟩

/-- One of several expressions, each with the choices of a kind of its own. -/
theorem offers_alternatives {kind : ι → β} {ks : List β} (hne : ks ≠ []) {r : β → Regex ν}
    (h : ∀ k ∈ ks, (r k).readings.Offers (C.ofKind (kind · = k)))
    (order : ks.Pairwise fun k k' => ∀ cs i j, kind i = k → kind j = k' → C.Fits cs i →
      C.Fits cs j → C.before i j) :
    (Regex.alternatives (ks.map r)).readings.Offers (C.ofKind (kind · ∈ ks)) := by
  induction ks with
  | nil => exact absurd rfl hne
  | cons k ks ih =>
    cases ks with
    | nil =>
      simp only [List.mem_singleton]
      exact h k List.mem_cons_self
    | cons k' ks =>
      have either : (fun i => kind i ∈ k :: k' :: ks) = fun i => kind i = k ∨ kind i ∈ k' :: ks :=
        funext fun i => propext List.mem_cons
      rw [either]
      obtain ⟨earlier, order⟩ := List.pairwise_cons.1 order
      refine offers_alt (h k List.mem_cons_self) ?_ ?_
      · exact ih (List.cons_ne_nil k' ks) (fun k'' hk => h k'' (List.mem_cons_of_mem k hk)) order
      · rintro cs i j ⟨⟨hi, hvalid⟩, hstart⟩ ⟨⟨hj, hvalid'⟩, hstart'⟩
        exact earlier _ hj cs i j hi rfl ⟨hvalid, hstart⟩ ⟨hvalid', hstart'⟩

/-! ## Matching a whole text -/

/-- A choice that matches a whole text. -/
def Choices.Whole (C : Choices ν ι) (cs : List Char) (i : ι) : Prop := C.valid i ∧ C.text i = cs

/-- The readings of a whole text are the choices that match it, the preferred ones first. -/
theorem wholeReadings_eq {r : Regex ν} (h : r.readings.Offers C) (cs : List Char) :
    ∃ is : List ι, (r.wholeReadings cs).map (·.found) = is.map C.found ∧
      (∀ i, i ∈ is ↔ C.Whole cs i) ∧ is.Pairwise C.before := by
  obtain ⟨is, hread, fits, sorted⟩ := h cs
  refine ⟨is.filter fun i => (cs.drop (C.text i).length).isEmpty, ?_, fun i => ?_,
    sorted.filter _⟩
  · rw [wholeReadings, hread, List.filter_map, List.map_map]
    rfl
  · rw [List.mem_filter, fits, List.isEmpty_iff]
    constructor
    · rintro ⟨⟨hvalid, rest, rfl⟩, hdrop⟩
      rw [List.drop_left] at hdrop
      exact ⟨hvalid, by rw [hdrop, List.append_nil]⟩
    · rintro ⟨hvalid, rfl⟩
      exact ⟨⟨hvalid, List.prefix_rfl⟩, List.drop_length⟩

/-- The first reading of a whole text is the preferred choice. -/
theorem exists_first {r : Regex ν} (h : r.readings.Offers C) (cs : List Char) :
    ((∀ i, ¬ C.Whole cs i) ∧ (r.wholeReadings cs).head?.map (·.found) = none) ∨
    ∃ i, C.Whole cs i ∧ (∀ j, C.Whole cs j → j = i ∨ C.before i j) ∧
      (r.wholeReadings cs).head?.map (·.found) = some (C.found i) := by
  obtain ⟨is, found, whole, sorted⟩ := wholeReadings_eq h cs
  rw [← List.head?_map, found]
  cases is with
  | nil => exact .inl ⟨fun i hi => List.not_mem_nil ((whole i).2 hi), rfl⟩
  | cons i is =>
    refine .inr ⟨i, (whole i).1 List.mem_cons_self, fun j hj => ?_, rfl⟩
    exact (List.mem_cons.1 ((whole j).2 hj)).imp_right ((List.pairwise_cons.1 sorted).1 j)

end Regex

end PlainSteps
