/-!
# Tables

Finite maps from names to values, kept as a list of entries in the order of the names.

* `Table.get?`, `Table.insert`, `Table.erase`: the operations.
* `Table.get?_insert`, `Table.get?_erase`: what can be read after them.
-/

namespace PlainSteps

/-- A finite map from names to values. -/
structure Table (α : Type) where
  /-- The entries, in the order of their names. -/
  entries : List (String × α)
  deriving DecidableEq, Repr

namespace Table

variable {α : Type}

/-- The table without entries. -/
def empty : Table α := ⟨[]⟩

instance : EmptyCollection (Table α) := ⟨empty⟩

instance : Inhabited (Table α) := ⟨empty⟩

/-- The value under a name. -/
def get? (t : Table α) (name : String) : Option α := t.entries.lookup name

/-- Whether there is a value under a name. -/
def contains (t : Table α) (name : String) : Bool := (t.get? name).isSome

/-- Puts an entry at its place in a sorted list, instead of one of the same name. -/
def insertEntry (name : String) (value : α) : List (String × α) → List (String × α)
  | [] => [(name, value)]
  | (n, v) :: rest =>
    if name < n then (name, value) :: (n, v) :: rest
    else if name = n then (name, value) :: rest
    else (n, v) :: insertEntry name value rest

/-- The table with a value under a name, instead of any other there. -/
def insert (t : Table α) (name : String) (value : α) : Table α :=
  ⟨insertEntry name value t.entries⟩

/-- The table without a name. -/
def erase (t : Table α) (name : String) : Table α := ⟨t.entries.filter (·.1 != name)⟩

/-- The names, in order. -/
def names (t : Table α) : List String := t.entries.map (·.1)

/-- The number of entries. -/
def size (t : Table α) : Nat := t.entries.length

/-- The table of a list of entries; of two under one name the later stays. -/
def ofList (entries : List (String × α)) : Table α :=
  entries.foldl (fun t (n, v) => t.insert n v) empty

/-- The table with a value computed from the one under a name, or from none. -/
def alter (t : Table α) (name : String) (f : Option α → α) : Table α :=
  t.insert name (f (t.get? name))

@[simp] theorem get?_empty (name : String) : (empty : Table α).get? name = none := rfl

/-- The first entry of a name is the one that is found. -/
theorem lookup_cons_eq (name other : String) (value : α) (rest : List (String × α)) :
    ((name, value) :: rest).lookup other =
      if other = name then some value else rest.lookup other := by
  by_cases h : other = name
  · subst h; simp
  · have : (other == name) = false := by simpa using h
    simp [List.lookup_cons, this, h]

private theorem lookup_insertEntry (name other : String) (value : α)
    (entries : List (String × α)) :
    (insertEntry name value entries).lookup other =
      if other = name then some value else entries.lookup other := by
  induction entries with
  | nil => simp [insertEntry, lookup_cons_eq]
  | cons entry rest ih =>
    obtain ⟨n, v⟩ := entry
    simp only [insertEntry]
    split
    · simp [lookup_cons_eq]
    · split
      · next hn => subst hn; by_cases h : other = name <;> simp [lookup_cons_eq, h]
      · next hn =>
        simp only [lookup_cons_eq, ih]
        by_cases h : other = n
        · subst h; simp [Ne.symm hn]
        · simp [h]

/-- After an insertion the new value is under its name, and all else is as before. -/
theorem get?_insert (t : Table α) (name other : String) (value : α) :
    (t.insert name value).get? other = if other = name then some value else t.get? other :=
  lookup_insertEntry name other value t.entries

private theorem lookup_filter_ne (name other : String) (entries : List (String × α)) :
    (entries.filter (·.1 != name)).lookup other =
      if other = name then none else entries.lookup other := by
  induction entries with
  | nil => simp
  | cons entry rest ih =>
    obtain ⟨n, v⟩ := entry
    by_cases hn : n = name
    · subst hn
      have : List.filter (·.1 != n) ((n, v) :: rest) = rest.filter (·.1 != n) := by simp
      rw [this, ih, lookup_cons_eq]
      by_cases h : other = n <;> simp [h]
    · have : List.filter (·.1 != name) ((n, v) :: rest) =
          (n, v) :: rest.filter (·.1 != name) := by simp [hn]
      rw [this, lookup_cons_eq, lookup_cons_eq, ih]
      by_cases h : other = n
      · subst h; simp [hn]
      · simp [h]

/-- After an erasure nothing is under the name, and all else is as before. -/
theorem get?_erase (t : Table α) (name other : String) :
    (t.erase name).get? other = if other = name then none else t.get? other :=
  lookup_filter_ne name other t.entries

end Table

end PlainSteps
