import PlainSteps.Proofs.Domain.Registered

/-!
# Registries that calls make

A registry is made by calls that each register a domain. A call is refused where a domain with the
same members is registered already, and changes nothing then. So under each key the first definition
stays, and no call takes the place of a domain that every run starts with.

* `DomainRegistry.ofCalls`: the registry after calls.
* `DomainRegistry.lookup_foldl_call`, `DomainRegistry.exists_of_lookup_ofCalls`: what is found in
  it.
* `DomainRegistry.coerce_ofCalls`: what a text is read as.

Proof-only: no module that runs imports this one.
-/

namespace PlainSteps

/-- A definition under the name under which it is kept. -/
def DomainDefinition.kept (d : DomainDefinition) : DomainDefinition :=
  { d with name := Domain.key d.name }

namespace DomainRegistry

/-! ## Calls -/

/-- A registry after a call to register a domain; a call that is refused leaves it as it is. -/
def call (r : DomainRegistry) (d : DomainDefinition) : DomainRegistry :=
  (r.register d).toOption.getD r

/-- The registry after calls to register domains. -/
def ofCalls (calls : List DomainDefinition) : DomainRegistry := calls.foldl call initial

/-- A call adds its definition unless there is one under its key. -/
theorem lookup_call (r : DomainRegistry) (d : DomainDefinition) (name : String) :
    (r.call d).lookup name =
      (r.lookup name).or (if Domain.key d.name = name then some d.kept else none) := by
  unfold call register
  simp only
  split
  · next taken =>
    show r.lookup name = _
    split
    · next same =>
      subst same
      exact (Option.or_of_isSome taken).symm
    · exact Option.or_none.symm
  · next fresh =>
    show (r.domains.insert (Domain.key d.name) d.kept).get? name = _
    rw [Table.get?_insert]
    split
    · next same =>
      subst same
      have free : r.lookup (Domain.key d.name) = none := Option.not_isSome_iff_eq_none.1 fresh
      rw [if_pos rfl, free, Option.none_or]
    · next other =>
      rw [if_neg (Ne.symm other), Option.or_none]
      rfl

/-- After calls the first definition under each key is found. -/
theorem lookup_foldl_call (r : DomainRegistry) (calls : List DomainDefinition) (name : String) :
    (calls.foldl call r).lookup name =
      (r.lookup name).or ((calls.find? (Domain.key ·.name = name)).map (·.kept)) := by
  induction calls generalizing r with
  | nil => exact Option.or_none.symm
  | cons d calls ih =>
    rw [List.foldl_cons, ih, lookup_call, Option.or_assoc, List.find?_cons]
    congr 1
    by_cases same : Domain.key d.name = name
    · simp [same]
    · simp [same]

/-- Every run starts with the domains of the library under their own names. -/
theorem lookup_initial_eq_some_iff {name : String} {d : DomainDefinition} :
    initial.lookup name = some d ↔ d ∈ DomainDefinition.builtin ∧ d.name = name := by
  have entries : initial.domains.entries =
      [(Domain.number, DomainDefinition.finiteNumber),
        (Domain.statement, .plainText Domain.statement),
        (Domain.string, .plainText Domain.string)] := rfl
  have sorted : initial.domains.Sorted := by
    rw [Table.Sorted, entries]
    decide
  rw [lookup, sorted.get?_eq_some_iff, entries, DomainDefinition.builtin]
  simp only [List.mem_cons, List.not_mem_nil, or_false, Prod.mk.injEq]
  constructor
  · rintro (⟨rfl, rfl⟩ | ⟨rfl, rfl⟩ | ⟨rfl, rfl⟩) <;> exact ⟨by simp, rfl⟩
  · rintro ⟨rfl | rfl | rfl, rfl⟩
    · exact .inr (.inr ⟨rfl, rfl⟩)
    · exact .inl ⟨rfl, rfl⟩
    · exact .inr (.inl ⟨rfl, rfl⟩)

theorem kept_of_mem_builtin {d : DomainDefinition} (h : d ∈ DomainDefinition.builtin) :
    d.kept = d := by
  have single : Domain.isUnion d.name = false := by
    simp only [DomainDefinition.builtin, List.mem_cons, List.not_mem_nil, or_false] at h
    rcases h with rfl | rfl | rfl <;> decide
  rw [DomainDefinition.kept, Domain.key_of_single single]

/-- What is found is the definition of a domain that the run starts with or of a call. -/
theorem exists_of_lookup_ofCalls {calls : List DomainDefinition} {name : String}
    {d : DomainDefinition} (h : (ofCalls calls).lookup name = some d) :
    ∃ given ∈ DomainDefinition.builtin ++ calls, Domain.key given.name = name ∧ d = given.kept := by
  rw [ofCalls, lookup_foldl_call] at h
  rcases Option.or_eq_some_iff.1 h with h | ⟨-, h⟩
  · obtain ⟨mem, named⟩ := lookup_initial_eq_some_iff.1 h
    have own := kept_of_mem_builtin mem
    exact ⟨d, List.mem_append_left _ mem, (congrArg (·.name) own).trans named, own.symm⟩
  · obtain ⟨given, found, rfl⟩ := Option.map_eq_some_iff.1 h
    exact ⟨given, List.mem_append_right _ (List.mem_of_find?_eq_some found),
      by simpa using List.find?_some found, rfl⟩

/-- A domain that every run starts with stays as it is. -/
theorem lookup_ofCalls_builtin {d : DomainDefinition} (h : d ∈ DomainDefinition.builtin)
    (calls : List DomainDefinition) : (ofCalls calls).lookup d.name = some d := by
  rw [ofCalls, lookup_foldl_call, lookup_initial_eq_some_iff.2 ⟨h, rfl⟩, Option.some_or]

theorem name_of_lookup_ofCalls {calls : List DomainDefinition} {name : String}
    {d : DomainDefinition} (h : (ofCalls calls).lookup name = some d) : d.name = name := by
  obtain ⟨given, -, named, rfl⟩ := exists_of_lookup_ofCalls h
  exact named

/-! ## Reading texts -/

theorem value_of_finiteNumber {raw : String} {v : Value}
    (h : DomainDefinition.finiteNumber.read raw = .ok v) :
    ∃ x, Number.readFinite? raw = some x ∧ x.isFinite = true ∧ v = .number x := by
  simp only [DomainDefinition.finiteNumber] at h
  split at h
  · next x read =>
    cases h
    exact ⟨x, read, (Option.filter_eq_some_iff.1 read).2, rfl⟩
  · cases h

/-- Whatever calls have been made, a text is read by the definition that is registered under the
domain that is reported: numbers are finite and texts are as they are written. A single domain that
is declared is the one that is reported, and that of a stored value. -/
theorem coerce_ofCalls {calls : List DomainDefinition} {request : CoerceRequest} {c : Coerced}
    (h : (ofCalls calls).coerce request = .ok c) :
    (∃ given ∈ DomainDefinition.builtin ++ calls, Domain.key given.name = c.domain ∧
      (ofCalls calls).lookup c.domain = some given.kept ∧ given.read request.raw = .ok c.value) ∧
    (c.domain = Domain.number → ∃ x, Number.readFinite? request.raw = some x ∧
      x.isFinite = true ∧ c.value = .number x) ∧
    (c.domain = Domain.string ∨ c.domain = Domain.statement → c.value = .text request.raw) ∧
    (Domain.isUnion request.declared = false → c.domain = request.declared ∧
      ∀ stored, request.stored = some stored → stored = request.declared) := by
  obtain ⟨d, selected, ran⟩ := ok_of_bind h
  obtain ⟨⟨name, found⟩, single⟩ := select_eq_ok selected
  obtain ⟨reported, read⟩ := run_eq_ok ran
  have named : name = c.domain := (name_of_lookup_ofCalls found).symm.trans reported.symm
  subst named
  have builtin {b : DomainDefinition} (mem : b ∈ DomainDefinition.builtin)
      (same : c.domain = b.name) : b.read request.raw = .ok c.value := by
    rw [same, lookup_ofCalls_builtin mem] at found
    obtain rfl := Option.some.inj found
    exact read
  refine ⟨?given, ?number, ?text, ?single⟩
  case given =>
    obtain ⟨given, mem, own, rfl⟩ := exists_of_lookup_ofCalls found
    exact ⟨given, mem, own, found, read⟩
  case number =>
    intro same
    exact value_of_finiteNumber (builtin (by simp [DomainDefinition.builtin]) same)
  case text =>
    rintro (same | same)
    · have text := builtin (b := .plainText Domain.string) (by simp [DomainDefinition.builtin]) same
      exact (Except.ok.inj text).symm
    · have text := builtin (b := .plainText Domain.statement) (by simp [DomainDefinition.builtin])
        same
      exact (Except.ok.inj text).symm
  case single =>
    intro one
    obtain ⟨declared, stored⟩ := single one
    exact ⟨reported.trans (name_of_lookup_ofCalls declared), stored⟩

/-- Calls that would take the place of domains that every run starts with; all are refused but the
last. -/
def shadowingCalls : List DomainDefinition :=
  [⟨Domain.string, fun _ => .ok (.flag true), true⟩,
    ⟨"number|number", fun _ => .ok (.flag true), true⟩, ⟨"page", fun raw => .ok (.text raw), false⟩]

/-- A number that is read as a member of a union. -/
def memberRequest : CoerceRequest := ⟨"size", .var, " 2.5 ", "page|number", some Domain.number⟩

/-- They do not change how a number is read. -/
theorem coerce_shadowingCalls :
    (ofCalls shadowingCalls).coerce memberRequest =
      .ok ⟨Domain.number, .number (.finite false 5629499534213120 (-51))⟩ ∧
    ∃ x : Number, Number.readFinite? " 2.5 " = some x ∧ x.isFinite = true := by
  have selected : (ofCalls shadowingCalls).select memberRequest = .ok .finiteNumber := by
    have union : Domain.isUnion "page|number" = true := by decide
    have member : (some Domain.number).filter (Domain.members "page|number").contains =
        some Domain.number := by decide
    have found : (ofCalls shadowingCalls).lookup Domain.number = some .finiteNumber :=
      lookup_ofCalls_builtin (d := .finiteNumber) (by simp [DomainDefinition.builtin]) _
    simp [select, memberRequest, union, member, found]
  have ran : DomainDefinition.finiteNumber.run "size" " 2.5 " =
      .ok ⟨Domain.number, .number (.finite false 5629499534213120 (-51))⟩ := by
    have read : Number.readFinite? " 2.5 " =
        some (.finite false 5629499534213120 (-51)) := by decide +kernel
    simp [DomainDefinition.run, DomainDefinition.finiteNumber, read]
  have read : (ofCalls shadowingCalls).coerce memberRequest =
      .ok ⟨Domain.number, .number (.finite false 5629499534213120 (-51))⟩ := by
    rw [coerce, selected]
    exact ran
  obtain ⟨x, number, finite, -⟩ := (coerce_ofCalls read).2.1 rfl
  exact ⟨read, x, number, finite⟩

end DomainRegistry

end PlainSteps
