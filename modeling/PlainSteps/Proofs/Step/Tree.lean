import Mathlib.Data.List.Nodup
import PlainSteps.Step.Tree

/-!
# Trees of steps and their addresses

A step stands before the steps below it. Where the steps directly below each step count from one,
an address names one step, and one address starts with another exactly where the step of the one is
the step of the other or below it.

* `FeatureStep.children`, `FeatureStep.all`: the steps directly below a step, and it with all of
  those below it.
* `FeatureStep.induction`: induction on trees of steps.
* `FeatureStep.atLevel`: the steps of a level, of which each step of the tree is one.
* `FeatureStep.Numbered`: the steps directly below each step count from one.
* `FeatureStep.nodup_paths`: no address occurs twice in a forest.
* `FeatureStep.startsWith_iff_mem_all`: an address starts with those of the steps above its step.

Proof-only: no module that runs imports this one.
-/

namespace PlainSteps.FeatureStep

variable {σ : Type}

/-- The address of a step. -/
def seqPath (s : FeatureStep σ) : SeqPath := s.head.seqPath

/-- The steps directly below a step, statement by statement. -/
def children (s : FeatureStep σ) : List (FeatureStep σ) := s.nested.flatMap (·.steps)

mutual

/-- A step and all steps below it. -/
def all : FeatureStep σ → List (FeatureStep σ)
  | .mk head nested => .mk head nested :: allOfStatements nested

/-- The steps of statements and all steps below them. -/
def allOfStatements : List (NestedStatement σ) → List (FeatureStep σ)
  | [] => []
  | .mk _ steps :: rest => allOfSteps steps ++ allOfStatements rest

/-- Steps and all steps below them. -/
def allOfSteps : List (FeatureStep σ) → List (FeatureStep σ)
  | [] => []
  | step :: rest => all step ++ allOfSteps rest

end

theorem allOfSteps_eq (steps : List (FeatureStep σ)) : allOfSteps steps = steps.flatMap all := by
  induction steps with
  | nil => rfl
  | cons step rest ih => rw [allOfSteps, ih, List.flatMap_cons]

theorem allOfStatements_eq (nested : List (NestedStatement σ)) :
    allOfStatements nested = (nested.flatMap (·.steps)).flatMap all := by
  induction nested with
  | nil => rfl
  | cons statement rest ih =>
    obtain ⟨label, steps⟩ := statement
    rw [allOfStatements, ih, allOfSteps_eq, List.flatMap_cons, List.flatMap_append]
    rfl

theorem all_eq (s : FeatureStep σ) : s.all = s :: s.children.flatMap all := by
  obtain ⟨head, nested⟩ := s
  rw [all, allOfStatements_eq]
  rfl

theorem mem_all_iff {s d : FeatureStep σ} : d ∈ s.all ↔ d = s ∨ ∃ c ∈ s.children, d ∈ c.all := by
  rw [all_eq, List.mem_cons, List.mem_flatMap]

theorem self_mem_all (s : FeatureStep σ) : s ∈ s.all := mem_all_iff.2 (.inl rfl)

mutual

private theorem ofStep {motive : FeatureStep σ → Prop}
    (step : ∀ s : FeatureStep σ, (∀ c ∈ s.children, motive c) → motive s) :
    ∀ s : FeatureStep σ, motive s
  | .mk head nested => step (.mk head nested) (ofStatements step nested)

private theorem ofStatements {motive : FeatureStep σ → Prop}
    (step : ∀ s : FeatureStep σ, (∀ c ∈ s.children, motive c) → motive s) :
    ∀ nested : List (NestedStatement σ), ∀ c ∈ nested.flatMap (·.steps), motive c
  | [], _, h => nomatch h
  | .mk label steps :: rest, c, h => by
    rw [List.flatMap_cons] at h
    rcases List.mem_append.1 h with h | h
    · exact ofSteps step steps c h
    · exact ofStatements step rest c h

private theorem ofSteps {motive : FeatureStep σ → Prop}
    (step : ∀ s : FeatureStep σ, (∀ c ∈ s.children, motive c) → motive s) :
    ∀ steps : List (FeatureStep σ), ∀ c ∈ steps, motive c
  | [], _, h => nomatch h
  | s :: rest, c, h => by
    rcases List.mem_cons.1 h with first | h
    · rw [first]
      exact ofStep step s
    · exact ofSteps step rest c h

end

/-- What a step has if all steps directly below it do is had by every step. -/
theorem induction {motive : FeatureStep σ → Prop}
    (step : ∀ s : FeatureStep σ, (∀ c ∈ s.children, motive c) → motive s) (s : FeatureStep σ) :
    motive s := ofStep step s

theorem all_trans {a b c : FeatureStep σ} (hb : b ∈ a.all) (hc : c ∈ b.all) : c ∈ a.all := by
  induction a using induction with
  | step a ih =>
    rcases mem_all_iff.1 hb with rfl | ⟨d, hd, hb⟩
    · exact hc
    · exact mem_all_iff.2 (.inr ⟨d, hd, ih d hd hb⟩)

/-! ## Levels -/

/-- The steps so many levels of statements below a step. -/
def atLevel : Nat → FeatureStep σ → List (FeatureStep σ)
  | 0, s => [s]
  | level + 1, s => s.children.flatMap (atLevel level)

theorem mem_atLevel_succ {level : Nat} {s d : FeatureStep σ} :
    d ∈ s.atLevel (level + 1) ↔ ∃ c ∈ s.children, d ∈ c.atLevel level := by
  rw [atLevel, List.mem_flatMap]

/-- Each step of a tree is on a level. -/
theorem mem_all_iff_atLevel {s d : FeatureStep σ} :
    d ∈ s.all ↔ ∃ level, d ∈ s.atLevel level := by
  induction s using induction with
  | step s ih =>
    rw [mem_all_iff]
    constructor
    · rintro (rfl | ⟨c, hc, hd⟩)
      · exact ⟨0, List.mem_singleton_self d⟩
      · obtain ⟨level, hd⟩ := (ih c hc).1 hd
        exact ⟨level + 1, mem_atLevel_succ.2 ⟨c, hc, hd⟩⟩
    · rintro ⟨level, hd⟩
      cases level with
      | zero => exact .inl (List.mem_singleton.1 hd)
      | succ level =>
        obtain ⟨c, hc, hd⟩ := mem_atLevel_succ.1 hd
        exact .inr ⟨c, hc, (ih c hc).2 ⟨level, hd⟩⟩

/-! ## Numbered trees -/

/-- Whether the steps directly below a step count from one. -/
def NumbersChildren (s : FeatureStep σ) : Prop :=
  s.children.map seqPath = (List.range' 1 s.children.length).map s.seqPath.child

/-- Whether the steps directly below each step of a tree count from one. -/
def Numbered (s : FeatureStep σ) : Prop := ∀ d ∈ s.all, d.NumbersChildren

theorem Numbered.of_mem_all {s d : FeatureStep σ} (h : s.Numbered) (hd : d ∈ s.all) :
    d.Numbered := fun e he => h e (all_trans hd he)

theorem Numbered.of_mem_children {s c : FeatureStep σ} (h : s.Numbered) (hc : c ∈ s.children) :
    c.Numbered := h.of_mem_all (mem_all_iff.2 (.inr ⟨c, hc, self_mem_all c⟩))

theorem Numbered.path_of_mem_children {s c : FeatureStep σ} (h : s.Numbered)
    (hc : c ∈ s.children) : ∃ i, c.seqPath.indices = s.seqPath.indices ++ [i] := by
  have mem := List.mem_map_of_mem (f := seqPath) hc
  rw [h s (self_mem_all s)] at mem
  obtain ⟨i, _, path⟩ := List.mem_map.1 mem
  exact ⟨i, by rw [← path]; rfl⟩

/-- The addresses below a step start with its own. -/
theorem Numbered.isPrefix_of_mem_all {s d : FeatureStep σ} (h : s.Numbered) (hd : d ∈ s.all) :
    s.seqPath.indices <+: d.seqPath.indices := by
  induction s using induction with
  | step s ih =>
    rcases mem_all_iff.1 hd with rfl | ⟨c, hc, hd⟩
    · exact List.prefix_rfl
    · obtain ⟨i, path⟩ := h.path_of_mem_children hc
      have deeper := ih c hc (h.of_mem_children hc) hd
      rw [path] at deeper
      exact (List.prefix_append _ _).trans deeper

theorem nodup_paths_of_siblings {roots : List (FeatureStep σ)} {length : Nat}
    (numbered : ∀ r ∈ roots, r.Numbered)
    (level : ∀ r ∈ roots, r.seqPath.indices.length = length) (nodup : (roots.map seqPath).Nodup)
    (within : ∀ r ∈ roots, (r.all.map seqPath).Nodup) :
    ((roots.flatMap all).map seqPath).Nodup := by
  rw [List.map_flatMap, List.nodup_flatMap]
  refine ⟨within, ?_⟩
  have apart : roots.Pairwise fun a b => a.seqPath ≠ b.seqPath := List.pairwise_map.1 nodup
  refine apart.imp_of_mem fun {a b} ha hb ne path hpa hpb => ne ?_
  obtain ⟨d, hd, rfl⟩ := List.mem_map.1 hpa
  obtain ⟨e, he, same⟩ := List.mem_map.1 hpb
  have fromA := (numbered a ha).isPrefix_of_mem_all hd
  have fromB := (numbered b hb).isPrefix_of_mem_all he
  rw [same] at fromB
  -- Two beginnings of one address that are equally long are equal.
  have eq : a.seqPath.indices = b.seqPath.indices := by
    rw [List.prefix_iff_eq_take.1 fromA, List.prefix_iff_eq_take.1 fromB, level a ha, level b hb]
  cases hA : a.seqPath
  cases hB : b.seqPath
  rw [hA, hB] at eq
  exact congrArg SeqPath.mk eq

theorem Numbered.nodup_children {s : FeatureStep σ} (h : s.Numbered) :
    (s.children.map seqPath).Nodup := by
  rw [h s (self_mem_all s)]
  refine List.Nodup.map (fun i j eq => ?_) List.nodup_range'
  have last := List.append_cancel_left (SeqPath.mk.inj eq)
  exact List.cons.inj last |>.1

/-- No address occurs twice in a tree. -/
theorem Numbered.nodup_all {s : FeatureStep σ} (h : s.Numbered) : (s.all.map seqPath).Nodup := by
  induction s using induction with
  | step s ih =>
    have longer (c : FeatureStep σ) (hc : c ∈ s.children) :
        c.seqPath.indices.length = s.seqPath.indices.length + 1 := by
      obtain ⟨i, path⟩ := h.path_of_mem_children hc
      rw [path, List.length_append, List.length_singleton]
    rw [all_eq, List.map_cons, List.nodup_cons]
    refine ⟨fun mem => ?_, ?_⟩
    · obtain ⟨d, hd, same⟩ := List.mem_map.1 mem
      obtain ⟨c, hc, hd⟩ := List.mem_flatMap.1 hd
      have le := ((h.of_mem_children hc).isPrefix_of_mem_all hd).length_le
      rw [same, longer c hc] at le
      omega
    · exact nodup_paths_of_siblings (fun c hc => h.of_mem_children hc) longer h.nodup_children
        fun c hc => ih c hc (h.of_mem_children hc)

/-- No address occurs twice in a forest. -/
theorem nodup_paths {roots : List (FeatureStep σ)} {length : Nat}
    (numbered : ∀ r ∈ roots, r.Numbered)
    (level : ∀ r ∈ roots, r.seqPath.indices.length = length) (nodup : (roots.map seqPath).Nodup) :
    ((roots.flatMap all).map seqPath).Nodup :=
  nodup_paths_of_siblings numbered level nodup fun r hr => (numbered r hr).nodup_all

/-- On the way from a step down to another there is a step on every level between. -/
theorem Numbered.exists_above {s d : FeatureStep σ} (h : s.Numbered) (hd : d ∈ s.all)
    {length : Nat} (top : s.seqPath.indices.length ≤ length)
    (bottom : length ≤ d.seqPath.indices.length) :
    ∃ c ∈ s.all, d ∈ c.all ∧ c.seqPath.indices.length = length := by
  induction s using induction with
  | step s ih =>
    by_cases here : s.seqPath.indices.length = length
    · exact ⟨s, self_mem_all s, hd, here⟩
    · rcases mem_all_iff.1 hd with rfl | ⟨c, hc, hd⟩
      · omega
      · obtain ⟨i, path⟩ := h.path_of_mem_children hc
        have top' : c.seqPath.indices.length ≤ length := by
          rw [path, List.length_append, List.length_singleton]
          omega
        obtain ⟨e, he, hde, level⟩ := ih c hc (h.of_mem_children hc) hd top'
        exact ⟨e, mem_all_iff.2 (.inr ⟨c, hc, he⟩), hde, level⟩

/-- In a forest, an address starts with another exactly where its step is the other step or below
it. -/
theorem startsWith_iff_mem_all {roots : List (FeatureStep σ)} {length : Nat}
    (numbered : ∀ r ∈ roots, r.Numbered)
    (level : ∀ r ∈ roots, r.seqPath.indices.length = length) (nodup : (roots.map seqPath).Nodup)
    {a b : FeatureStep σ} (ha : a ∈ roots.flatMap all) (hb : b ∈ roots.flatMap all) :
    a.seqPath.startsWith b.seqPath = true ↔ a ∈ b.all := by
  obtain ⟨r, hr, har⟩ := List.mem_flatMap.1 ha
  obtain ⟨q, hq, hbq⟩ := List.mem_flatMap.1 hb
  rw [SeqPath.startsWith, List.isPrefixOf_iff_prefix]
  constructor
  · intro begins
    have high := ((numbered q hq).isPrefix_of_mem_all hbq).length_le
    rw [level q hq, ← level r hr] at high
    obtain ⟨c, hc, hac, same⟩ := (numbered r hr).exists_above har high begins.length_le
    -- The step above `a` on the level of `b` has the address of `b`.
    have eq : c.seqPath.indices = b.seqPath.indices := by
      have above := ((numbered r hr).of_mem_all hc).isPrefix_of_mem_all hac
      rw [List.prefix_iff_eq_take.1 above, List.prefix_iff_eq_take.1 begins, same]
    have path : c.seqPath = b.seqPath := by
      cases hC : c.seqPath
      cases hB : b.seqPath
      rw [hC, hB] at eq
      exact congrArg SeqPath.mk eq
    have once := nodup_paths numbered level nodup
    have found : c ∈ roots.flatMap all := List.mem_flatMap.2 ⟨r, hr, hc⟩
    rwa [← List.inj_on_of_nodup_map once found hb path]
  · exact ((numbered q hq).of_mem_all hbq).isPrefix_of_mem_all

end PlainSteps.FeatureStep
