import Mathlib.Data.List.DropRight
import Mathlib.Data.List.Induction
import PlainSteps.Proofs.Run.Calls

/-!
# The work that is left, call by call

Work is registered and done by calls in any order. What waits at any time is what has been
registered since all of it was last done, by workspace. So each piece is done once, by the first
call that does any after it was registered.

* `Finalizers.waiting`: the work that has been registered since the last call that does it.
* `Finalizers.byWorkspace`: work in the order in which it is done.
* `Finalizers.scopes_after`: what is kept after any calls.
* `Finalizers.callEach_makes`: what calls in turn do and answer.

Proof-only: no module that runs imports this one.
-/

namespace PlainSteps

variable {σ : Type}

/-- The work that a call registers, with its workspace. -/
def BuilderCall.registered? : BuilderCall σ → Option (String × Finalizer σ)
  | .register workspace work => some (workspace, work)
  | .finalize => none

namespace Finalizers

/-! ## Work by workspace -/

/-- Work by workspace: the workspaces in the order in which they first occur, and the work for each
in the order in which it was registered. -/
def byWorkspace (ts : List (String × Finalizer σ)) : List (String × Finalizer σ) :=
  (ts.map (·.1)).eraseDups.flatMap fun workspace => ts.filter (·.1 == workspace)

/-- The workspaces in the order in which they first occur, with the work for each. -/
def groups (ts : List (String × Finalizer σ)) : List (String × List (Finalizer σ)) :=
  (ts.map (·.1)).eraseDups.map fun workspace =>
    (workspace, (ts.filter (·.1 == workspace)).map (·.2))

theorem tasks_groups (ts : List (String × Finalizer σ)) : tasks ⟨groups ts⟩ = byWorkspace ts := by
  simp only [tasks, groups, byWorkspace, List.flatMap_map, List.map_map]
  refine List.flatMap_congr fun workspace _ => ?_
  -- work for a workspace is that workspace and the work
  have same : ∀ t ∈ ts.filter (·.1 == workspace), (workspace, t.2) = t := by
    intro t ht
    rw [← beq_iff_eq.1 (List.mem_filter.1 ht).2]
  exact (List.map_congr_left same).trans (List.map_id _)

/-- The first workspace comes first, with all of its work, and then the groups of the others. -/
theorem groups_cons (t : String × Finalizer σ) (ts : List (String × Finalizer σ)) :
    groups (t :: ts) = (t.1, t.2 :: (ts.filter (·.1 == t.1)).map (·.2)) ::
      groups (ts.filter (!·.1 == t.1)) := by
  have names : (ts.map (·.1)).filter (!· == t.1) = (ts.filter (!·.1 == t.1)).map (·.1) :=
    List.filter_map
  have first : (t :: ts).filter (·.1 == t.1) = t :: ts.filter (·.1 == t.1) :=
    List.filter_cons_of_pos (beq_self_eq_true t.1)
  simp only [groups, List.map_cons, List.eraseDups_cons, names, first]
  refine congrArg _ (List.map_congr_left fun other mem => ?_)
  obtain ⟨u, hu, rfl⟩ := List.mem_map.1 (List.mem_eraseDups.1 mem)
  have differs : u.1 ≠ t.1 := by simpa using (List.mem_filter.1 hu).2
  have rest : (t :: ts).filter (·.1 == u.1) = ts.filter (·.1 == u.1) :=
    List.filter_cons_of_neg (by simpa using differs.symm)
  have same : (ts.filter (!·.1 == t.1)).filter (·.1 == u.1) = ts.filter (·.1 == u.1) := by
    rw [List.filter_filter]
    refine List.filter_congr fun v _ => ?_
    by_cases own : v.1 = u.1
    · simp [own, differs]
    · simp [own]
  rw [rest, same]

/-- Adding work to the group of its workspace is adding it to all work. -/
theorem addTo_groups (workspace : String) (work : Finalizer σ) (ts : List (String × Finalizer σ)) :
    addTo workspace work (groups ts) = groups (ts ++ [(workspace, work)]) := by
  -- each group is followed by those of what is left without its work
  match ts with
  | [] => exact (groups_cons (workspace, work) []).symm
  | t :: ts =>
    rw [groups_cons, List.cons_append, groups_cons, addTo]
    split
    · next same => simp [List.filter_append, same]
    · next differs =>
      rw [addTo_groups workspace work (ts.filter (!·.1 == t.1))]
      have other : (workspace == t.1) = false := beq_false_of_ne (Ne.symm differs)
      simp [List.filter_append, other]
termination_by ts.length
decreasing_by exact Nat.lt_succ_of_le (List.length_filter_le _ _)

/-- The order of workspaces loses no work and repeats none. -/
theorem byWorkspace_perm (ts : List (String × Finalizer σ)) : (byWorkspace ts).Perm ts := by
  induction ts using List.reverseRecOn with
  | nil => exact .refl _
  | append_singleton ts t ih =>
    have registered := tasks_register ⟨groups ts⟩ t.1 t.2
    rw [register, addTo_groups, tasks_groups, tasks_groups] at registered
    exact registered.trans (ih.append_right _)

/-! ## The work that waits -/

/-- The work that has been registered since the last call that does it. -/
def waiting (calls : List (BuilderCall σ)) : List (String × Finalizer σ) :=
  (calls.rtakeWhile (·.registered?.isSome)).filterMap (·.registered?)

theorem waiting_concat_register (calls : List (BuilderCall σ)) (workspace : String)
    (work : Finalizer σ) :
    waiting (calls ++ [.register workspace work]) = waiting calls ++ [(workspace, work)] := by
  rw [waiting, List.rtakeWhile_concat_pos _ _ _ rfl, List.filterMap_append]
  rfl

theorem waiting_concat_finalize (calls : List (BuilderCall σ)) :
    waiting (calls ++ [.finalize]) = [] := by
  rw [waiting, List.rtakeWhile_concat_neg _ _ _ Bool.false_ne_true]
  rfl

/-- The work that is left after calls, where there was none before them. -/
def after (calls : List (BuilderCall σ)) : Finalizers σ :=
  calls.foldl (fun q c => (q.call c).2) Finalizers.none

theorem after_concat (calls : List (BuilderCall σ)) (c : BuilderCall σ) :
    after (calls ++ [c]) = ((after calls).call c).2 := List.foldl_concat ..

/-- What is kept after any calls is the work that waits, in its groups. -/
theorem scopes_after (calls : List (BuilderCall σ)) :
    (after calls).scopes = groups (waiting calls) := by
  induction calls using List.reverseRecOn with
  | nil => rfl
  | append_singleton calls c ih =>
    rw [after_concat]
    cases c with
    | register workspace work =>
      show addTo workspace work (after calls).scopes = _
      rw [ih, addTo_groups, waiting_concat_register]
    | finalize =>
      rw [waiting_concat_finalize]
      rfl

theorem tasks_after (calls : List (BuilderCall σ)) :
    (after calls).tasks = byWorkspace (waiting calls) := by
  rw [← tasks_groups, ← scopes_after]

theorem pending_after (calls : List (BuilderCall σ)) :
    (after calls).pending = (waiting calls).length := by
  rw [pending, tasks_after, (byWorkspace_perm _).length_eq]

theorem waiting_suffix (calls : List (BuilderCall σ)) :
    waiting calls <:+ calls.filterMap (·.registered?) :=
  (List.rtakeWhile_suffix _ calls).filterMap _

/-! ## Calls in turn -/

/-- The answers to calls in turn. -/
def callEach : Finalizers σ → List (BuilderCall σ) → Effect (Session σ) (List (Option BuildError))
  | _, [] => return []
  | q, c :: rest => do
    let answer ← (q.call c).1
    return answer :: (← callEach (q.call c).2 rest)

/-- What one call does and answers after others. Registering work does none. Doing it does all that
waits, each piece once and for its workspace, and answers with the first failure of these. -/
inductive IsAnswered (before : List (BuilderCall σ)) :
    BuilderCall σ → Option BuildError → List (Call σ) → Prop where
  | register (workspace : String) (work : Finalizer σ) :
    IsAnswered before (.register workspace work) Option.none []
  | finalize {made : List (Call σ)} (kinds : ∀ c ∈ made, c.kind = .finalizer)
    (order : made.filterMap Call.done? = byWorkspace (waiting before))
    (once : (made.filterMap Call.done?).Perm (waiting before)) :
    IsAnswered before .finalize (made.findSome? Call.buildError?) made

/-- What calls do and answer in turn, after others. -/
inductive AreAnswered : List (BuilderCall σ) → List (BuilderCall σ) → List (Option BuildError) →
    List (Call σ) → Prop where
  | nil (before : List (BuilderCall σ)) : AreAnswered before [] [] []
  | cons {before rest : List (BuilderCall σ)} {c : BuilderCall σ} {answer : Option BuildError}
    {answers : List (Option BuildError)} {made more : List (Call σ)}
    (first : IsAnswered before c answer made)
    (others : AreAnswered (before ++ [c]) rest answers more) :
    AreAnswered before (c :: rest) (answer :: answers) (made ++ more)

/-- What a call does is done, and what it leaves waits. -/
theorem IsAnswered.perm {before : List (BuilderCall σ)} {c : BuilderCall σ}
    {answer : Option BuildError} {made : List (Call σ)} (h : IsAnswered before c answer made) :
    (made.filterMap Call.done? ++ waiting (before ++ [c])).Perm
      (waiting before ++ [c].filterMap (·.registered?)) := by
  cases h with
  | register workspace work => exact .of_eq (waiting_concat_register before workspace work)
  | finalize _ _ once =>
    rw [waiting_concat_finalize]
    exact once.append_right []

/-- No work is lost and none is repeated: all that is registered is done once or waits. -/
theorem AreAnswered.perm {before calls : List (BuilderCall σ)}
    {answers : List (Option BuildError)} {made : List (Call σ)}
    (h : AreAnswered before calls answers made) :
    (made.filterMap Call.done? ++ waiting (before ++ calls)).Perm
      (waiting before ++ calls.filterMap (·.registered?)) := by
  induction h with
  | nil before => exact .of_eq (by simp)
  | @cons before rest c answer answers made more first _ ih =>
    rw [List.append_assoc, List.singleton_append] at ih
    have all : (c :: rest).filterMap (·.registered?) =
        [c].filterMap (·.registered?) ++ rest.filterMap (·.registered?) :=
      List.filterMap_append (l := [c])
    rw [all, List.filterMap_append, List.append_assoc, ← List.append_assoc (waiting before)]
    refine (ih.append_left _).trans ?_
    rw [← List.append_assoc]
    exact first.perm.append_right _

/-- A call after others does what is left after these. -/
theorem call_makes {before : List (BuilderCall σ)}
    (returns : ∀ t ∈ waiting before, (t.2 t.1).Returns) (c : BuilderCall σ) :
    ((after before).call c).1.Makes (IsAnswered before c) := by
  cases c with
  | register workspace work => exact .pure (.register workspace work)
  | finalize =>
    have own : ∀ t ∈ (after before).tasks, (t.2 t.1).Returns := by
      rw [tasks_after]
      exact fun t ht => returns t ((byWorkspace_perm _).mem_iff.1 ht)
    refine (runTasks_makes own Option.none).imp fun answer made h => ?_
    obtain ⟨kinds, order, rfl⟩ := h
    rw [tasks_after] at order
    rw [Option.none_or]
    exact .finalize kinds order (order ▸ byWorkspace_perm _)

theorem callEach_after_makes {before calls : List (BuilderCall σ)}
    (returns : ∀ t ∈ (before ++ calls).filterMap (·.registered?), (t.2 t.1).Returns) :
    (callEach (after before) calls).Makes (AreAnswered before calls) := by
  induction calls generalizing before with
  | nil => exact .pure (.nil before)
  | cons c rest ih =>
    have own : ∀ t ∈ waiting before, (t.2 t.1).Returns := by
      intro t ht
      refine returns t ?_
      rw [List.filterMap_append]
      exact List.mem_append_left _ ((waiting_suffix before).mem ht)
    rw [callEach, ← after_concat]
    refine (call_makes own c).bind fun answer made first => ?_
    rw [List.append_cons] at returns
    refine (ih returns).bind fun answers more others => .pure ?_
    rw [List.append_nil]
    exact .cons first others

/-- Work that is registered and done by calls in any order, whatever fails: each call that does work
does what has been registered since the last such call, each piece once and for its workspace, by
workspace and in order, and answers with the first failure of these. So of all that is registered,
each piece has been done once or waits, and the amount that is left is that which waits. -/
theorem callEach_makes {calls : List (BuilderCall σ)}
    (returns : ∀ t ∈ calls.filterMap (·.registered?), (t.2 t.1).Returns) :
    ((callEach Finalizers.none calls).Makes fun answers made => AreAnswered [] calls answers made ∧
      (made.filterMap Call.done? ++ waiting calls).Perm (calls.filterMap (·.registered?))) ∧
    ∀ before, before <+: calls → (after before).pending = (waiting before).length := by
  refine ⟨?_, fun before _ => pending_after before⟩
  have makes : (callEach (after []) calls).Makes (AreAnswered [] calls) :=
    callEach_after_makes returns
  exact makes.imp fun answers made answered => ⟨answered, answered.perm⟩

end Finalizers

open Finalizers (after callEach AreAnswered)

/-- Work that is noted with its workspace, and that may fail. -/
def notedWork (label : String) (fault : Option Fault) : Finalizer (List String) :=
  fun workspace => do
    modify fun s => { s with store := s.store ++ [workspace ++ ":" ++ label] }
    return fault.elim (.ok ()) .error

theorem notedWork_returns (label : String) (fault : Option Fault) (workspace : String) :
    (notedWork label fault workspace).Returns :=
  fun _ => ⟨fault.elim (.ok ()) .error, _, rfl⟩

/-- Work for two workspaces, of which some fails, is registered and done; then more is, and it is
done although there is none any more. -/
def notedCalls : List (BuilderCall (List String)) :=
  [.register "a" (notedWork "first" none),
    .register "b" (notedWork "second" (some ⟨"disk full", []⟩)),
    .register "a" (notedWork "third" (some ⟨"late", []⟩)), .finalize,
    .register "b" (notedWork "fourth" none), .finalize, .finalize]

/-- The third piece of work is done before the second, for the workspace of the first, and so its
failure is the one that is reported. -/
theorem callEach_notedCalls : ∃ answers s' made,
    (callEach Finalizers.none notedCalls).start ⟨.new "t", []⟩ = (.ok answers, s') ∧
    answers = [none, none, none, some (.finalizer "a" ⟨"late", []⟩), none, none, none] ∧
    s'.store = ["a:first", "a:third", "b:second", "b:fourth"] ∧
    Calls made ⟨.new "t", []⟩ s' ∧ AreAnswered [] notedCalls answers made ∧
    (made.filterMap Call.done?).length = 4 ∧ (after (notedCalls.take 3)).pending = 3 := by
  have returns : ∀ t ∈ notedCalls.filterMap (·.registered?), (t.2 t.1).Returns := by
    intro t ht
    simp only [notedCalls, List.filterMap_cons, BuilderCall.registered?, List.filterMap_nil,
      List.mem_cons, List.not_mem_nil, or_false] at ht
    rcases ht with rfl | rfl | rfl | rfl <;> exact notedWork_returns _ _ _
  obtain ⟨makes, pending⟩ := Finalizers.callEach_makes returns
  obtain ⟨answers, s', made, ran, called, answered, all⟩ := makes ⟨.new "t", []⟩
  have computed : (callEach Finalizers.none notedCalls).start ⟨.new "t", []⟩ =
      (.ok [none, none, none, some (.finalizer "a" ⟨"late", []⟩), none, none, none],
        ⟨.new "t", ["a:first", "a:third", "b:second", "b:fourth"]⟩) := rfl
  rw [computed] at ran
  cases ran
  refine ⟨_, _, made, computed, rfl, rfl, called, answered, ?_, ?_⟩
  · have count := all.length_eq
    rwa [List.length_append] at count
  · exact pending _ (List.take_prefix 3 _)

end PlainSteps
