import Mathlib.Data.List.Forall2
import PlainSteps.Effect

/-!
# Computations that can fail, and runs of effects

* `ok_of_bind`, `error_of_bind`: the two computations of which one that can fail consists.
* `mapM_eq_ok_iff`, `mapM_eq_error_iff`: the same for one computation on each of a list.
* `Effect.start_bind`: one computation after another.
* `Effect.ok_of_start_bind`: the two runs of which a run of both consists.
* `Effect.Returns`: a computation ends without a crash.

Proof-only: no module that runs imports this one.
-/

namespace PlainSteps

/-! ## Computations that can fail -/

section Except

variable {ε α β : Type} {x : Except ε α} {f : α → Except ε β}

/-- Two computations that do not fail. -/
theorem ok_of_bind {b : β} (h : x >>= f = .ok b) : ∃ a, x = .ok a ∧ f a = .ok b := by
  cases x with
  | error e => cases h
  | ok a => exact ⟨a, rfl, h⟩

/-- Two computations of which one fails. -/
theorem error_of_bind {e : ε} (h : x >>= f = .error e) :
    x = .error e ∨ ∃ a, x = .ok a ∧ f a = .error e := by
  cases x with
  | error e' =>
    cases h
    exact .inl rfl
  | ok a => exact .inr ⟨a, rfl, h⟩

theorem ok_of_map {g : α → β} {b : β} (h : x.map g = .ok b) : ∃ a, x = .ok a ∧ g a = b := by
  cases x with
  | error e => cases h
  | ok a => exact ⟨a, rfl, Except.ok.inj h⟩

theorem map_eq_error_iff {g : α → β} {e : ε} : x.map g = .error e ↔ x = .error e := by
  cases x with
  | error e' => exact ⟨fun h => congrArg _ (Except.error.inj h), congrArg _⟩
  | ok a => exact iff_of_false (fun h => nomatch h) (fun h => nomatch h)

theorem ok_of_mapError {ε' : Type} {g : ε → ε'} {a : α} (h : x.mapError g = .ok a) : x = .ok a := by
  cases x with
  | error e => cases h
  | ok a => exact congrArg Except.ok (Except.ok.inj h)

theorem forall₂_of_mapM {xs : List α} {ys : List β} (h : xs.mapM f = .ok ys) :
    List.Forall₂ (fun x y => f x = .ok y) xs ys := by
  induction xs generalizing ys with
  | nil =>
    cases h
    exact .nil
  | cons x xs ih =>
    rw [List.mapM_cons] at h
    obtain ⟨y, first, h⟩ := ok_of_bind h
    obtain ⟨more, others, h⟩ := ok_of_bind h
    cases h
    exact .cons first (ih others)

theorem forall_mem_of_mapM {q : β → Prop} {xs : List α} {ys : List β}
    (each : ∀ x ∈ xs, ∀ y, f x = .ok y → q y) (h : xs.mapM f = .ok ys) : ∀ y ∈ ys, q y := by
  have both := forall₂_of_mapM h
  clear h
  induction both with
  | nil => exact List.forall_mem_nil _
  | cons first _ ih =>
    obtain ⟨own, others⟩ := List.forall_mem_cons.1 each
    exact List.forall_mem_cons.2 ⟨own _ first, ih others⟩

theorem mapM_eq_ok_iff {xs : List α} {ys : List β} :
    xs.mapM f = .ok ys ↔ List.Forall₂ (fun x y => f x = .ok y) xs ys := by
  refine ⟨forall₂_of_mapM, fun both => ?_⟩
  induction both with
  | nil => rfl
  | cons first _ ih =>
    rw [List.mapM_cons, first, ih]
    rfl

theorem exists_mapM_iff {xs : List α} :
    (∃ ys, xs.mapM f = .ok ys) ↔ ∀ x ∈ xs, ∃ y, f x = .ok y := by
  simp only [mapM_eq_ok_iff]
  induction xs with
  | nil => exact iff_of_true ⟨[], .nil⟩ (List.forall_mem_nil _)
  | cons x xs ih =>
    rw [List.forall_mem_cons, ← ih]
    constructor
    · rintro ⟨_, _ | ⟨first, rest⟩⟩
      exact ⟨⟨_, first⟩, _, rest⟩
    · rintro ⟨⟨y, first⟩, ys, rest⟩
      exact ⟨y :: ys, .cons first rest⟩

theorem mem_iff_of_mapM {xs : List α} {ys : List β} (h : xs.mapM f = .ok ys) {y : β} :
    y ∈ ys ↔ ∃ x ∈ xs, f x = .ok y := by
  induction forall₂_of_mapM h with
  | nil => simp
  | cons first rest ih =>
    rw [List.mem_cons, ih (mapM_eq_ok_iff.2 rest), List.exists_mem_cons_iff, first, Except.ok.injEq,
      eq_comm]

/-- The fault of computations in turn is that of the first that fails. -/
theorem mapM_eq_error_iff {xs : List α} {e : ε} :
    xs.mapM f = .error e ↔ ∃ before x after, xs = before ++ x :: after ∧
      (∀ b ∈ before, ∃ y, f b = .ok y) ∧ f x = .error e := by
  constructor
  · intro h
    induction xs with
    | nil => cases h
    | cons x xs ih =>
      rw [List.mapM_cons] at h
      rcases error_of_bind h with first | ⟨y, first, h⟩
      · exact ⟨[], x, xs, rfl, List.forall_mem_nil _, first⟩
      · rcases error_of_bind h with rest | ⟨more, -, none⟩
        · obtain ⟨before, x', after, rfl, passed, failed⟩ := ih rest
          exact ⟨x :: before, x', after, rfl, List.forall_mem_cons.2 ⟨⟨y, first⟩, passed⟩, failed⟩
        · cases none
  · rintro ⟨before, x, after, rfl, passed, failed⟩
    induction before with
    | nil =>
      rw [List.nil_append, List.mapM_cons, failed]
      rfl
    | cons b before ih =>
      obtain ⟨⟨y, first⟩, passed⟩ := List.forall_mem_cons.1 passed
      rw [List.cons_append, List.mapM_cons, first, ih passed]
      rfl

theorem exists_of_mapM_eq_error {xs : List α} {e : ε} (h : xs.mapM f = .error e) :
    ∃ x ∈ xs, f x = .error e := by
  obtain ⟨before, x, after, rfl, -, failed⟩ := mapM_eq_error_iff.1 h
  exact ⟨x, List.mem_append_right _ List.mem_cons_self, failed⟩

/-- Results that are changed one by one are changed together. -/
theorem mapM_map_results {γ : Type} (g : β → γ) (xs : List α) :
    xs.mapM (fun x => (f x).map g) = (xs.mapM f).map (·.map g) := by
  induction xs with
  | nil => rfl
  | cons x xs ih =>
    rw [List.mapM_cons, List.mapM_cons, ih]
    cases f x with
    | error e => rfl
    | ok y => cases xs.mapM f <;> rfl

end Except

/-! ## Effects -/

namespace Effect

variable {τ α β : Type}

theorem start_pure (a : α) (s : τ) : (pure a : Effect τ α).start s = (.ok a, s) := rfl

theorem start_bind (x : Effect τ α) (f : α → Effect τ β) (s : τ) :
    (x >>= f).start s = match x.start s with
      | (.ok a, s') => (f a).start s'
      | (.error c, s') => (.error c, s') := by
  unfold start
  rw [ExceptT.run_bind, StateT.run_bind]
  cases x.run.run s with
  | mk answer s' => cases answer <;> rfl

/-- A run that does not crash is a run of the first computation and then one of the second. -/
theorem ok_of_start_bind {x : Effect τ α} {f : α → Effect τ β} {s s' : τ} {b : β}
    (h : (x >>= f).start s = (.ok b, s')) :
    ∃ a mid, x.start s = (.ok a, mid) ∧ (f a).start mid = (.ok b, s') := by
  rw [start_bind] at h
  split at h
  · next a mid hx => exact ⟨a, mid, hx, h⟩
  · exact nomatch h

theorem eq_of_start_pure {a b : α} {s s' : τ}
    (h : (pure a : Effect τ α).start s = (.ok b, s')) : b = a ∧ s' = s := by
  rw [start_pure] at h
  cases h
  exact ⟨rfl, rfl⟩

theorem start_attempt (x : Effect τ α) (s : τ) :
    x.attempt.start s = (.ok (x.start s).1, (x.start s).2) := rfl

theorem start_readWorld {σ : Type} (s : Session σ) :
    Session.readWorld.start s = (.ok s.world, s) := rfl

/-- A computation ends without a crash. -/
def Returns (x : Effect τ α) : Prop := ∀ s, ∃ a s', x.start s = (.ok a, s')

theorem Returns.pure (a : α) : (Pure.pure a : Effect τ α).Returns := fun s => ⟨a, s, rfl⟩

theorem Returns.bind {x : Effect τ α} {f : α → Effect τ β} (hx : x.Returns)
    (hf : ∀ a, (f a).Returns) : (x >>= f).Returns := by
  intro s
  obtain ⟨a, mid, ran⟩ := hx s
  obtain ⟨b, s', then_⟩ := hf a mid
  exact ⟨b, s', by rw [start_bind, ran]; exact then_⟩

theorem Returns.attempt (x : Effect τ α) : x.attempt.Returns := fun s =>
  ⟨(x.start s).1, (x.start s).2, rfl⟩

end Effect

end PlainSteps
