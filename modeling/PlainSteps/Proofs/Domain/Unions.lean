import PlainSteps.Proofs.Domain.Required

/-!
# Unions of the same members

A union that a placeholder declares is looked through member by member in the order in which it is
written, and only then by its key. All the same it is its members that count: two spellings of one
union read every text alike, or fail alike.

* `Domain.unionKey_eq_iff`: unions have one key exactly when they have the same members.
* `DomainRegistry.select_union_congr`: spellings of one union choose the same domain.
* `DomainRegistry.register_eq_duplicate`: a name with the key of an earlier call is refused.
* `DomainRegistry.union_spellings`: what is the same for all spellings of a union.

Proof-only: no module that runs imports this one.
-/

namespace PlainSteps

/-! ## Members and keys -/

namespace Domain

variable {a b : String}

theorem key_of_union {domain : String} (h : isUnion domain = true) : key domain = unionKey domain :=
  if_pos h

/-- Two unions have one key exactly when they have the same members. -/
theorem unionKey_eq_iff (ha : isUnion a = true) (hb : isUnion b = true) :
    unionKey a = unionKey b ↔ ∀ m, m ∈ members a ↔ m ∈ members b := by
  rw [← key_of_union ha, ← key_of_union hb, key_eq_iff]

theorem contains_members (same : ∀ m, m ∈ members a ↔ m ∈ members b) :
    (members a).contains = (members b).contains := by
  funext m
  rw [Bool.eq_iff_iff, List.contains_iff_mem, List.contains_iff_mem]
  exact same m

end Domain

namespace DomainRegistry

/-! ## Reading texts -/

section Spellings

variable {a b : String} (ha : Domain.isUnion a = true) (hb : Domain.isUnion b = true)
  (same : ∀ m, m ∈ Domain.members a ↔ m ∈ Domain.members b)

include ha hb same

/-- The domain that is chosen for a union, or that none is, depends on its members only. -/
theorem select_union_congr (r : DomainRegistry) (request : CoerceRequest) :
    r.select { request with declared := a } = r.select { request with declared := b } := by
  unfold select
  simp only [ha, hb, if_true]
  rw [Domain.contains_members same, (Domain.unionKey_eq_iff ha hb).2 same]

theorem coerce_union_congr (r : DomainRegistry) (request : CoerceRequest) :
    r.coerce { request with declared := a } = r.coerce { request with declared := b } := by
  unfold coerce
  rw [select_union_congr ha hb same]

theorem coerceUnion_congr (r : DomainRegistry) (label raw : String) :
    r.coerceUnion a label raw = r.coerceUnion b label raw := by
  unfold coerceUnion
  rw [(Domain.unionKey_eq_iff ha hb).2 same]

end Spellings

theorem rejectsUndefined_congr {a b : String}
    (same : ∀ m, m ∈ Domain.members a ↔ m ∈ Domain.members b) (r : DomainRegistry) :
    r.rejectsUndefined a = r.rejectsUndefined b := by
  unfold rejectsUndefined
  rw [Domain.key_eq_iff.2 same]

/-! ## Registering domains -/

/-- A call is refused, and changes nothing, where something is found under its key. -/
theorem register_of_taken {r : DomainRegistry} {d : DomainDefinition}
    (taken : (r.lookup (Domain.key d.name)).isSome = true) :
    r.register d = .error (.duplicate (Domain.key d.name)) ∧ r.call d = r := by
  have refused : r.register d = .error (.duplicate (Domain.key d.name)) := if_pos taken
  refine ⟨refused, ?_⟩
  unfold call
  rw [refused]
  rfl

/-- After a call for a name, another for a name with the same members is refused and changes
nothing. -/
theorem register_eq_duplicate {calls : List DomainDefinition} {d e : DomainDefinition}
    (made : d ∈ calls) (same : ∀ m, m ∈ Domain.members d.name ↔ m ∈ Domain.members e.name) :
    (ofCalls calls).register e = .error (.duplicate (Domain.key e.name)) ∧
      (ofCalls calls).call e = ofCalls calls := by
  apply register_of_taken
  rw [← Domain.key_eq_iff.2 same]
  exact hasDomain_ofCalls_iff.1 (hasDomain_of_mem made)

/-! ## Spellings of a union -/

/-- Two unions have one key exactly when they have the same members, in whatever order and however
often each is written. Then every registry reads the same for both, or fails in the same way, and
treats terms without a value alike; and once there has been a call to register the one, a call for
the other is refused and changes nothing. -/
theorem union_spellings {a b : String} (ha : Domain.isUnion a = true)
    (hb : Domain.isUnion b = true) :
    (Domain.unionKey a = Domain.unionKey b ↔ ∀ m, m ∈ Domain.members a ↔ m ∈ Domain.members b) ∧
    ((∀ m, m ∈ Domain.members a ↔ m ∈ Domain.members b) →
      (∀ (r : DomainRegistry) (label : String) (origin : Origin) (raw : String)
        (stored : Option String),
        r.coerce ⟨label, origin, raw, a, stored⟩ = r.coerce ⟨label, origin, raw, b, stored⟩) ∧
      (∀ (r : DomainRegistry) (label raw : String),
        r.coerceUnion a label raw = r.coerceUnion b label raw) ∧
      (∀ r : DomainRegistry, r.rejectsUndefined a = r.rejectsUndefined b) ∧
      ∀ (calls : List DomainDefinition) (d e : DomainDefinition), d ∈ calls → d.name = a →
        e.name = b →
        (ofCalls calls).register e = .error (.duplicate (Domain.unionKey b)) ∧
          (ofCalls calls).call e = ofCalls calls) := by
  refine ⟨Domain.unionKey_eq_iff ha hb, fun same => ⟨?_, coerceUnion_congr ha hb same,
    rejectsUndefined_congr same, ?_⟩⟩
  · intro r label origin raw stored
    exact coerce_union_congr ha hb same r ⟨label, origin, raw, a, stored⟩
  · rintro calls d e made rfl rfl
    rw [← Domain.key_of_union hb]
    exact register_eq_duplicate made same

/-- A union that was registered in one spelling is not registered in another, which repeats a
member. -/
theorem union_spellings_pages :
    Domain.unionKey "page|url" = Domain.unionKey "url|page|url" ∧
    (ofCalls [.plainText "page|url"]).register (.plainText "url|page|url") =
      .error (.duplicate (Domain.unionKey "url|page|url")) ∧
    Domain.unionKey "page|url" ≠ Domain.unionKey "page|url|selector" := by
  have same : ∀ m, m ∈ Domain.members "page|url" ↔ m ∈ Domain.members "url|page|url" := by
    rw [show Domain.members "page|url" = ["page", "url"] by decide,
      show Domain.members "url|page|url" = ["url", "page", "url"] by decide]
    intro m
    simp only [List.mem_cons, List.not_mem_nil, or_false]
    grind
  obtain ⟨keys, alike⟩ :=
    union_spellings (a := "page|url") (b := "url|page|url") (by decide) (by decide)
  refine ⟨keys.2 same, ((alike same).2.2.2 _ (.plainText "page|url") (.plainText "url|page|url")
    List.mem_cons_self rfl rfl).1, fun shared => ?_⟩
  have other := union_spellings (a := "page|url") (b := "page|url|selector") (by decide) (by decide)
  exact absurd ((other.1.1 shared "selector").2 (by decide)) (by decide)

end DomainRegistry

end PlainSteps
