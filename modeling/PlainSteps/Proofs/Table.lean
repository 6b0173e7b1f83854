import Mathlib.Data.List.Induction
import Mathlib.Data.String.Basic
import PlainSteps.Table

/-!
# Sorted tables

A table that is made by insertions has its names in order, each once, so that it is known by what
is found under the names.

* `Table.mem_names_iff`: the names under which there is a value.
* `Table.Sorted`: the names are in order, each once; `Table.Sorted.insert`.
* `Table.Sorted.get?_eq_some_iff`: what is found under a name of a sorted table is its only entry.
* `Table.get?_ofList_eq_some_iff`: what is found in a table that is made of entries.
* `Table.map`: the table with other values under the same names.

Proof-only: no module that runs imports this one.
-/

namespace PlainSteps.Table

variable {α : Type}

theorem mem_names_iff {t : Table α} {name : String} :
    name ∈ t.names ↔ (t.get? name).isSome = true := by
  show name ∈ t.entries.map (·.1) ↔ (t.entries.lookup name).isSome = true
  generalize t.entries = entries
  induction entries with
  | nil => simp
  | cons first rest ih =>
    obtain ⟨n, v⟩ := first
    rw [List.map_cons, List.mem_cons, lookup_cons_eq, ih]
    by_cases same : name = n <;> simp [same]

/-- The names of a table are in order, each once. -/
def Sorted (t : Table α) : Prop := t.entries.Pairwise fun a b => a.1 < b.1

theorem sorted_empty : (empty : Table α).Sorted := .nil

theorem mem_insertEntry {name : String} {value : α} {entries : List (String × α)}
    {entry : String × α} (h : entry ∈ insertEntry name value entries) :
    entry = (name, value) ∨ entry ∈ entries := by
  induction entries with
  | nil => exact .inl (List.mem_singleton.1 h)
  | cons first rest ih =>
    obtain ⟨n, v⟩ := first
    rw [insertEntry] at h
    split at h
    · exact List.mem_cons.1 h
    · split at h
      · exact (List.mem_cons.1 h).imp_right (List.mem_cons_of_mem _)
      · rcases List.mem_cons.1 h with h | h
        · exact .inr (List.mem_cons.2 (.inl h))
        · exact (ih h).imp_right (List.mem_cons_of_mem _)

theorem pairwise_insertEntry {entries : List (String × α)}
    (sorted : entries.Pairwise fun a b => a.1 < b.1) (name : String) (value : α) :
    (insertEntry name value entries).Pairwise fun a b => a.1 < b.1 := by
  induction entries with
  | nil => exact List.pairwise_singleton _ _
  | cons first rest ih =>
    obtain ⟨n, v⟩ := first
    obtain ⟨least, others⟩ := List.pairwise_cons.1 sorted
    rw [insertEntry]
    split
    · next lt =>
      refine List.pairwise_cons.2 ⟨List.forall_mem_cons.2 ⟨lt, fun e he => ?_⟩, sorted⟩
      exact lt_trans lt (least e he)
    · next notLt =>
      split
      · next same =>
        subst same
        exact List.pairwise_cons.2 ⟨least, others⟩
      · next other =>
        refine List.pairwise_cons.2 ⟨fun e he => ?_, ih others⟩
        rcases mem_insertEntry he with rfl | he
        · exact lt_of_le_of_ne (not_lt.1 notLt) (Ne.symm other)
        · exact least e he

/-- An insertion keeps the names in order. -/
theorem Sorted.insert {t : Table α} (h : t.Sorted) (name : String) (value : α) :
    (t.insert name value).Sorted := pairwise_insertEntry h name value

theorem lookup_eq_some_iff {entries : List (String × α)}
    (sorted : entries.Pairwise fun a b => a.1 < b.1) {name : String} {value : α} :
    entries.lookup name = some value ↔ (name, value) ∈ entries := by
  induction entries with
  | nil => simp
  | cons first rest ih =>
    obtain ⟨n, v⟩ := first
    obtain ⟨least, others⟩ := List.pairwise_cons.1 sorted
    rw [lookup_cons_eq, List.mem_cons, ← ih others]
    split
    · next same =>
      subst same
      have once : rest.lookup name ≠ some value := fun found =>
        lt_irrefl name (least (name, value) ((ih others).1 found))
      simp [once, eq_comm]
    · next other => simp [other]

/-- What is found under a name of a sorted table is its only entry. -/
theorem Sorted.get?_eq_some_iff {t : Table α} (h : t.Sorted) {name : String} {value : α} :
    t.get? name = some value ↔ (name, value) ∈ t.entries := lookup_eq_some_iff h

/-- Sorted tables are equal when the same is found in both. -/
theorem Sorted.ext {t u : Table α} (ht : t.Sorted) (hu : u.Sorted)
    (same : ∀ name, t.get? name = u.get? name) : t = u := by
  have member (entry : String × α) : entry ∈ t.entries ↔ entry ∈ u.entries := by
    rw [← ht.get?_eq_some_iff, ← hu.get?_eq_some_iff, same]
  have distinct {a b : String × α} (lt : a.1 < b.1) : a ≠ b := fun eq => lt_irrefl b.1 (eq ▸ lt)
  have perm : t.entries.Perm u.entries :=
    (List.perm_ext_iff_of_nodup (ht.imp distinct) (hu.imp distinct)).2 member
  exact congrArg mk (perm.eq_of_pairwise (fun a b _ _ lt gt => (lt_asymm lt gt).elim) ht hu)

/-- Insertions under different names can be made in any order. -/
theorem Sorted.insert_comm {t : Table α} (h : t.Sorted) {name other : String} (ne : name ≠ other)
    (value value' : α) :
    (t.insert name value).insert other value' = (t.insert other value').insert name value := by
  refine Sorted.ext ((h.insert _ _).insert _ _) ((h.insert _ _).insert _ _) fun n => ?_
  simp only [get?_insert]
  by_cases first : n = name
  · simp [first, ne]
  · simp [first]

/-! ## Tables of entries -/

theorem ofList_concat (entries : List (String × α)) (name : String) (value : α) :
    ofList (entries ++ [(name, value)]) = (ofList entries).insert name value := by
  unfold ofList
  rw [List.foldl_append]
  rfl

/-- Of entries that all have other names each is found under its name. -/
theorem get?_ofList_eq_some_iff {entries : List (String × α)}
    (distinct : (entries.map (·.1)).Nodup) {name : String} {value : α} :
    (ofList entries).get? name = some value ↔ (name, value) ∈ entries := by
  induction entries using List.reverseRecOn with
  | nil => simp [ofList]
  | append_singleton entries last ih =>
    obtain ⟨n, v⟩ := last
    rw [List.map_append] at distinct
    obtain ⟨others, -, apart⟩ := List.nodup_append.1 distinct
    rw [ofList_concat, get?_insert, List.mem_append, List.mem_singleton, Prod.mk.injEq]
    split
    · next same =>
      subst same
      have fresh : (name, value) ∉ entries := fun mem =>
        apart name (List.mem_map_of_mem mem) name (List.mem_singleton.2 rfl) rfl
      simp [fresh, eq_comm]
    · next other => simp [other, ih others]

/-- The table with other values under the same names. -/
def map {β : Type} (f : α → β) (t : Table α) : Table β := ⟨t.entries.map fun e => (e.1, f e.2)⟩

theorem map_insert {β : Type} (f : α → β) (t : Table α) (name : String) (value : α) :
    (t.insert name value).map f = (t.map f).insert name (f value) := by
  obtain ⟨entries⟩ := t
  refine congrArg mk ?_
  show (insertEntry name value entries).map (fun e => (e.1, f e.2)) =
    insertEntry name (f value) (entries.map fun e => (e.1, f e.2))
  induction entries with
  | nil => rfl
  | cons first rest ih =>
    obtain ⟨n, v⟩ := first
    rw [List.map_cons, insertEntry, insertEntry]
    split
    · rfl
    · split
      · rfl
      · rw [List.map_cons, ih]

theorem map_ofList {β : Type} (f : α → β) (entries : List (String × α)) :
    (ofList entries).map f = ofList (entries.map fun e => (e.1, f e.2)) := by
  induction entries using List.reverseRecOn with
  | nil => rfl
  | append_singleton entries last ih =>
    obtain ⟨n, v⟩ := last
    rw [ofList_concat, map_insert, ih, List.map_append, List.map_singleton, ofList_concat]

end PlainSteps.Table
