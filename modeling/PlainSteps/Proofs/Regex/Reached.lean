import PlainSteps.Regex.Thread

/-!
# What the threads of a program reach

A thread starts at any place of a text and goes from instruction to instruction as the program says.
The instructions that threads reach do not depend on how threads are preferred and dropped, so that
what no thread could accept is not found.

* `Program.Reaches`: an instruction is reached at a place of a text.
* `Program.accepts_of_search?`: a match has been found by a thread that has reached its end.
* `Program.search?_eq_none_of_head`, `Program.search?_eq_none_of_last`: nothing is found in a text
  that does not start, or end, as every match does.

Proof-only: no module that runs imports this one.
-/

namespace PlainSteps

variable {ν : Type}

theorem Thread.target_closeGroup (t : Thread ν) (name : ν) (position next : Nat) :
    (t.closeGroup name position next).target = next := by
  unfold Thread.closeGroup
  split <;> rfl

namespace Program

variable {p : Program ν} {text : List Char}

/-- Whether a thread can be at an instruction, at the place of a text that has certain characters
before it, the nearest first, and the rest of the text after it. -/
inductive Reaches (p : Program ν) (text : List Char) : (before rest : List Char) → Nat → Prop
  | entry {before rest : List Char} (split : before.reverse ++ rest = text) :
    Reaches p text before rest p.entry
  | consume {before rest : List Char} {c : Char} {k next : Nat} {set : CharSet}
    (h : Reaches p text before (c :: rest) k) (at_ : p.code[k]? = some (.consume set next))
    (has : set.contains c = true) : Reaches p text (c :: before) rest next
  | meet {before rest : List Char} {k next : Nat} {condition : Place}
    (h : Reaches p text before rest k) (at_ : p.code[k]? = some (.meet condition next))
    (holds : condition.holds before.head? rest.head? = true) : Reaches p text before rest next
  | opening {before rest : List Char} {k next : Nat} (h : Reaches p text before rest k)
    (at_ : p.code[k]? = some (.opening next)) : Reaches p text before rest next
  | closing {before rest : List Char} {k next : Nat} {name : ν} (h : Reaches p text before rest k)
    (at_ : p.code[k]? = some (.closing name next)) : Reaches p text before rest next
  | first {before rest : List Char} {k first second : Nat} (h : Reaches p text before rest k)
    (at_ : p.code[k]? = some (.fork first second)) : Reaches p text before rest first
  | second {before rest : List Char} {k first second : Nat} (h : Reaches p text before rest k)
    (at_ : p.code[k]? = some (.fork first second)) : Reaches p text before rest second

theorem Reaches.split {before rest : List Char} {k : Nat} (h : Reaches p text before rest k) :
    before.reverse ++ rest = text := by
  induction h with
  | entry split => exact split
  | consume h at_ has ih => rwa [List.reverse_cons, List.append_assoc]
  | _ => assumption

/-! ## Soundness of the search -/

/-- Whether threads are at instructions that are reached. -/
def AllReach (p : Program ν) (text before rest : List Char) (threads : List (Thread ν)) : Prop :=
  ∀ t ∈ threads, Reaches p text before rest t.target

/-- One more thread may start at any place. -/
theorem AllReach.start {before rest : List Char} {threads : List (Thread ν)}
    (reach : AllReach p text before rest threads) (split : before.reverse ++ rest = text)
    (best : Option (List (ν × Nat × Nat))) : AllReach p text before rest
      (if best.isNone then threads ++ [⟨p.entry, [], []⟩] else threads) := by
  cases best with
  | none => exact List.forall_mem_append.2 ⟨reach, List.forall_mem_singleton.2 (.entry split)⟩
  | some found => exact reach

/-- Whether a thread can come to the end of a match. -/
def Accepts (p : Program ν) (text : List Char) : Prop :=
  ∃ before rest k, Reaches p text before rest k ∧ p.code[k]? = some .accept

/-- What threads come to at a place: those that go on are after the next character, and one has
reached the end of a match if one is found. -/
structure ReachedWell (p : Program ν) (text before rest : List Char) (r : Reached ν) : Prop where
  onward : ∀ c more, rest = c :: more → AllReach p text (c :: before) more r.onward
  idle : rest = [] → r.onward = []
  found : r.found.isSome = true → ∃ k, Reaches p text before rest k ∧ p.code[k]? = some .accept

theorem followWithin_reachedWell {before rest : List Char} {spot : Spot}
    (hbefore : spot.before = before.head?) (hafter : spot.after = rest.head?) (fuel : Nat)
    {threads onward : List (Thread ν)} (v : Visited)
    (reach : AllReach p text before rest threads)
    (further : ∀ c more, rest = c :: more → AllReach p text (c :: before) more onward)
    (idle : rest = [] → onward = []) :
    ReachedWell p text before rest (p.followWithin spot fuel threads onward v) := by
  induction fuel generalizing threads onward v with
  | zero => exact ⟨further, idle, fun h => nomatch h⟩
  | succ fuel ih =>
    cases threads with
    | nil => exact ⟨further, idle, fun h => nomatch h⟩
    | cons t ts =>
      obtain ⟨here, others⟩ := List.forall_mem_cons.1 reach
      rw [followWithin]
      split
      · exact ih v others further idle
      · split
        · exact ih _ others further idle
        · next accept => exact ⟨further, idle, fun _ => ⟨t.target, here, accept⟩⟩
        · next set next instr =>
          refine ih _ others (fun c more split => ?_) fun stop => ?_
          · subst split
            rw [hafter]
            by_cases has : set.contains c = true
            · rw [List.head?_cons, Option.any_some, if_pos has]
              exact List.forall_mem_cons.2 ⟨.consume here instr has, further c more rfl⟩
            · rw [List.head?_cons, Option.any_some, if_neg has]
              exact further c more rfl
          · subst stop
            rw [hafter]
            exact idle rfl
        · next condition next instr =>
          by_cases holds : condition.holds spot.before spot.after = true
          · rw [if_pos holds]
            rw [hbefore, hafter] at holds
            exact ih _ (List.forall_mem_cons.2 ⟨.meet here instr holds, others⟩) further idle
          · rw [if_neg holds]
            exact ih _ others further idle
        · next next instr =>
          exact ih _ (List.forall_mem_cons.2 ⟨.opening here instr, others⟩) further idle
        · next name next instr =>
          refine ih _ (List.forall_mem_cons.2 ⟨?_, others⟩) further idle
          rw [Thread.target_closeGroup]
          exact .closing here instr
        · next first second instr =>
          exact ih _ (List.forall_mem_cons.2
            ⟨.first here instr, List.forall_mem_cons.2 ⟨.second here instr, others⟩⟩) further idle

theorem follow_reachedWell {before rest : List Char} (position : Nat) {threads : List (Thread ν)}
    (v : Visited) (reach : AllReach p text before rest threads) :
    ReachedWell p text before rest (p.follow ⟨position, before.head?, rest.head?⟩ threads v) :=
  followWithin_reachedWell rfl rfl _ v reach (fun _ _ _ => List.forall_mem_nil _) fun _ => rfl

theorem ReachedWell.accepts {before rest : List Char} {r : Reached ν}
    {best : Option (List (ν × Nat × Nat))} (well : ReachedWell p text before rest r)
    (sound : best.isSome = true → p.Accepts text)
    (found : (r.found <|> best).isSome = true) : p.Accepts text := by
  cases one : r.found with
  | none =>
    rw [one] at found
    exact sound found
  | some _ =>
    obtain ⟨k, reached, accept⟩ := well.found (by rw [one]; rfl)
    exact ⟨before, rest, k, reached, accept⟩

/-- A search that goes on with threads at instructions that are reached finds only what a thread
can accept. -/
theorem accepts_of_scan? (before : List Char) {rest : List Char} {position : Nat}
    {threads : List (Thread ν)} {best : Option (List (ν × Nat × Nat))} {v : Visited}
    (split : before.reverse ++ rest = text)
    (reach : AllReach p text before rest threads) (sound : best.isSome = true → p.Accepts text)
    (h : (p.scan? before.head? position rest threads best v).isSome = true) : p.Accepts text := by
  induction rest generalizing before position threads best v with
  | nil =>
    rw [scan?] at h
    exact (follow_reachedWell position v (reach.start split best)).accepts sound h
  | cons c more ih =>
    have well := follow_reachedWell position v (reach.start split best)
    rw [scan?] at h
    generalize p.follow _ _ v = r at h well
    simp only at h
    split at h
    · exact well.accepts sound h
    · refine ih (c :: before) (by simpa using split) ?_ (well.accepts sound) h
      exact fun t ht => well.onward c more rfl t (List.mem_reverse.1 ht)

/-- A match has been found by a thread that has come to its end. -/
theorem accepts_of_search? (h : (p.search? text).isSome = true) : p.Accepts text := by
  refine accepts_of_scan? [] rfl (List.forall_mem_nil _) (fun some => ?_) h
  cases some

/-! ## Where a match starts and ends -/

/-- Whether every match starts with a character at the start of the text. -/
def opensWith (c : Char) (p : Program ν) : Bool :=
  match p.code[p.entry]? with
  | some (.meet .start first) =>
    match p.code[first]? with
    | some (.consume (.char d) _) => d == c
    | _ => false
  | _ => false

theorem opensWith_iff {c : Char} : p.opensWith c = true ↔ ∃ first next,
    p.code[p.entry]? = some (.meet .start first) ∧
      p.code[first]? = some (.consume (.char c) next) := by
  constructor
  · intro h
    unfold opensWith at h
    split at h
    · next first start =>
      split at h
      · next d next literal =>
        obtain rfl := eq_of_beq h
        exact ⟨first, next, start, literal⟩
      · cases h
    · cases h
  · rintro ⟨first, next, start, literal⟩
    simp [opensWith, start, literal]

/-- Nothing is found in a text that starts with another character. -/
theorem search?_eq_none_of_head {c : Char} (opens : p.opensWith c = true)
    (other : text.head? ≠ some c) : p.search? text = none := by
  obtain ⟨first, next, start, literal⟩ := opensWith_iff.1 opens
  have early {before rest : List Char} {k : Nat} (h : Reaches p text before rest k) :
      k = p.entry ∨ k = first ∧ before = [] := by
    induction h with
    | entry split => exact .inl rfl
    | @consume before rest d k target set h at_ has ih =>
      rcases ih with rfl | ⟨rfl, rfl⟩
      · cases start.symm.trans at_
      · cases literal.symm.trans at_
        refine absurd ?_ other
        rw [← h.split, eq_of_beq has]
        rfl
    | meet h at_ holds ih =>
      rcases ih with rfl | ⟨rfl, rfl⟩
      · cases start.symm.trans at_
        exact .inr ⟨rfl, List.head?_eq_none_iff.1 (Option.isNone_iff_eq_none.1 holds)⟩
      · cases literal.symm.trans at_
    | _ =>
      next at_ ih =>
      rcases ih with rfl | ⟨rfl, rfl⟩
      · cases start.symm.trans at_
      · cases literal.symm.trans at_
  cases found : p.search? text with
  | none => rfl
  | some groups =>
    obtain ⟨before, rest, k, reached, accept⟩ := accepts_of_search? (by rw [found]; rfl)
    rcases early reached with rfl | ⟨rfl, -⟩
    · cases start.symm.trans accept
    · cases literal.symm.trans accept

/-- Whether an instruction goes on, with instructions from a given one on. -/
def goesOnFrom (least : Nat) : Instruction ν → Bool
  | .accept => false
  | .consume _ next | .meet _ next | .opening next | .closing _ next => least ≤ next
  | .fork first second => least ≤ first && least ≤ second

/-- Whether every match ends with the text, after a character other than `c`: the program comes to
its end only by a set without `c` and the end of the text. -/
def closesWithout (c : Char) (p : Program ν) : Bool :=
  match p.code.toList with
  | .accept :: .meet .stop 0 :: .consume set 1 :: others =>
    !set.contains c && others.all (goesOnFrom 2) && 2 ≤ p.entry
  | _ => false

/-- Nothing is found in a text that ends with such a character. -/
theorem search?_eq_none_of_last {c : Char} (closes : p.closesWithout c = true)
    (last : text.getLast? = some c) : p.search? text = none := by
  unfold closesWithout at closes
  split at closes
  case h_2 => cases closes
  next set others program =>
  simp only [Bool.and_eq_true, Bool.not_eq_true', decide_eq_true_eq] at closes
  obtain ⟨⟨without, inner⟩, entry⟩ := closes
  have instruction (k : Nat) : p.code[k]? =
      (.accept :: .meet .stop 0 :: .consume set 1 :: others : List (Instruction ν))[k]? := by
    rw [← program, Array.getElem?_toList]
  have further {k : Nat} {i : Instruction ν} (far : 2 ≤ k) (at_ : p.code[k]? = some i) :
      i = .consume set 1 ∨ goesOnFrom 2 i = true := by
    rw [instruction] at at_
    match k, far with
    | 2, _ => exact .inl (Option.some.inj at_).symm
    | k + 3, _ => exact .inr (List.all_eq_true.1 inner i (List.mem_of_getElem? at_))
  -- the last instructions are entered after a character of the set only
  have late {before rest : List Char} {k : Nat} (h : Reaches p text before rest k) :
      2 ≤ k ∨ (∃ d more, before = d :: more ∧ set.contains d = true) ∧
        (k = 1 ∨ k = 0 ∧ rest = []) := by
    induction h with
    | entry split => exact .inl entry
    | @consume before rest d k next target h at_ has ih =>
      rcases ih with far | ⟨-, rfl | ⟨rfl, -⟩⟩
      · rcases further far at_ with same | on
        · cases same
          exact .inr ⟨⟨d, before, rfl, has⟩, .inl rfl⟩
        · exact .inl (of_decide_eq_true on)
      · cases (instruction 1).symm.trans at_
      · cases (instruction 0).symm.trans at_
    | meet h at_ holds ih =>
      rcases ih with far | ⟨set, rfl | ⟨rfl, -⟩⟩
      · rcases further far at_ with same | on
        · cases same
        · exact .inl (of_decide_eq_true on)
      · cases (instruction 1).symm.trans at_
        exact .inr ⟨set, .inr ⟨rfl, List.head?_eq_none_iff.1 (Option.isNone_iff_eq_none.1 holds)⟩⟩
      · cases (instruction 0).symm.trans at_
    | _ =>
      next at_ ih =>
      rcases ih with far | ⟨-, rfl | ⟨rfl, -⟩⟩
      · rcases further far at_ with same | on
        · cases same
        · simp only [goesOnFrom, Bool.and_eq_true, decide_eq_true_eq] at on
          exact .inl (by omega)
      · cases (instruction 1).symm.trans at_
      · cases (instruction 0).symm.trans at_
  cases found : p.search? text with
  | none => rfl
  | some groups =>
    obtain ⟨before, rest, k, reached, accept⟩ := accepts_of_search? (by rw [found]; rfl)
    rcases late reached with far | ⟨⟨d, more, rfl, has⟩, rfl | ⟨rfl, rfl⟩⟩
    · rcases further far accept with same | on
      · cases same
      · cases on
    · cases (instruction 1).symm.trans accept
    · rw [← reached.split, List.append_nil, List.getLast?_reverse, List.head?_cons] at last
      obtain rfl := Option.some.inj last
      exact absurd has (Bool.eq_false_iff.1 without)

end Program

end PlainSteps
