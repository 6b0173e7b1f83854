import PlainSteps.Proofs.Domain.Spelling
import PlainSteps.Proofs.Effect
import PlainSteps.Proofs.Table
import PlainSteps.Variables

/-!
# Registered domains

A domain stays as it has been registered. Where all members of the domains that placeholders declare
are registered, no term fails for want of a domain, unless its domain is a union that is not
registered itself.

* `DomainRegistry.lookup_of_registerAll`: what is registered stays.
* `DomainRegistry.Knows`: all members of a declared domain are registered.
* `Knows.coerce_ne_noCoercer`: such a domain is not missing when a text is read.
* `DomainRegistry.coerce_plainText`: a domain of texts takes them as they are.
* `populate_eq_domain`: the faults of domains that a step meets are those of its terms.

Proof-only: no module that runs imports this one.
-/

namespace PlainSteps

namespace DomainRegistry

theorem mem_names_iff {r : DomainRegistry} {name : String} :
    name ∈ r.names ↔ (r.lookup name).isSome = true := Table.mem_names_iff

/-! ## Registration -/

theorem lookup_of_register {r r' : DomainRegistry} {added : DomainDefinition}
    (h : r.register added = .ok r') {name : String} {d : DomainDefinition}
    (known : r.lookup name = some d) : r'.lookup name = some d := by
  simp only [register] at h
  split at h
  · cases h
  · next fresh =>
    have other : name ≠ Domain.key added.name := by
      rintro rfl
      exact fresh (Option.isSome_iff_exists.2 ⟨d, known⟩)
    cases h
    exact (Table.get?_insert ..).trans ((if_neg other).trans known)

/-- A domain stays as it has been registered. -/
theorem lookup_of_registerAll {r r' : DomainRegistry} {ds : List DomainDefinition}
    (h : r.registerAll ds = .ok r') {name : String} {d : DomainDefinition}
    (known : r.lookup name = some d) : r'.lookup name = some d := by
  induction ds generalizing r with
  | nil =>
    cases h
    exact known
  | cons next ds ih =>
    rw [registerAll, List.foldlM_cons] at h
    obtain ⟨more, added, h⟩ := ok_of_bind h
    exact ih h (lookup_of_register added known)

/-! ## Reading texts -/

/-- All members of a declared domain are registered. -/
def Knows (r : DomainRegistry) (declared : String) : Prop :=
  ∀ member ∈ Domain.members declared, (r.lookup member).isSome = true

/-- The domain of texts is registered, whatever has been added. -/
theorem knows_string {ds : List DomainDefinition} {r : DomainRegistry}
    (h : initial.registerAll ds = .ok r) : r.Knows Domain.string := by
  have known : r.lookup Domain.string = some (.plainText Domain.string) :=
    lookup_of_registerAll h rfl
  have single : Domain.members Domain.string = [Domain.string] :=
    Domain.members_eq_singleton (by decide)
  intro member hm
  rw [single, List.mem_singleton] at hm
  rw [hm, known]
  rfl

/-- A value is what the domain has read. -/
theorem run_eq_ok {d : DomainDefinition} {label raw : String} {c : Coerced}
    (h : d.run label raw = .ok c) : c.domain = d.name ∧ d.read raw = .ok c.value := by
  unfold DomainDefinition.run at h
  split at h
  · cases h
  · split at h
    · next read =>
      cases h
      exact ⟨rfl, read⟩
    · cases h

/-- The domain that is selected is registered. For a single domain it is the declared one, and so is
that of a stored value. -/
theorem select_eq_ok {r : DomainRegistry} {request : CoerceRequest} {d : DomainDefinition}
    (h : r.select request = .ok d) :
    (∃ name, r.lookup name = some d) ∧
      (Domain.isUnion request.declared = false → r.lookup request.declared = some d ∧
        ∀ stored, request.stored = some stored → stored = request.declared) := by
  unfold select at h
  simp only at h
  split at h
  · next union =>
    refine ⟨?_, fun single => absurd union (by simp [single])⟩
    split at h
    · next found =>
      cases h
      rcases Option.or_eq_some_iff.1 found with found | ⟨-, found⟩
      · rcases Option.or_eq_some_iff.1 found with found | ⟨-, found⟩
        · split at found
          · exact ⟨_, found⟩
          · cases found
        · obtain ⟨stored, -, found⟩ := Option.bind_eq_some_iff.1 found
          exact ⟨stored, found⟩
      · exact ⟨_, found⟩
    · cases h
  · split at h
    · cases h
    · next agreed =>
      split at h
      · next found =>
        cases h
        refine ⟨⟨_, found⟩, fun _ => ⟨found, fun stored some_ => ?_⟩⟩
        simpa [some_] using agreed
      · cases h

/-- A domain that is found does not say that one is missing. -/
theorem run_eq_error {d : DomainDefinition} {label raw : String} {e : DomainError}
    (h : d.run label raw = .error e) :
    e = .notANumber label raw ∨ ∃ reason, e = .coercionFailed label d.name raw reason := by
  unfold DomainDefinition.run at h
  split at h
  · cases h
    exact .inl rfl
  · split at h
    · cases h
    · cases h
      exact .inr ⟨_, rfl⟩

/-- Why no domain is selected: a union or a single domain is not registered, or a stored value has
another domain. -/
theorem select_eq_error {r : DomainRegistry} {request : CoerceRequest} {e : DomainError}
    (h : r.select request = .error e) :
    (Domain.isUnion request.declared = true ∧ r.lookup (Domain.unionKey request.declared) = none ∧
        e = .noUnionCoercer request.label (Domain.unionKey request.declared)) ∨
      (Domain.isUnion request.declared = false ∧ r.lookup request.declared = none ∧
        e = .noCoercer request.label request.declared) ∨
      ∃ stored, e = .mismatch request.label request.declared stored := by
  unfold select at h
  simp only at h
  split at h
  · next union =>
    split at h
    · cases h
    · next missing =>
      cases h
      exact .inl ⟨union, (Option.or_eq_none_iff.1 missing).2, rfl⟩
  · next single =>
    split at h
    · cases h
      exact .inr (.inr ⟨_, rfl⟩)
    · split at h
      · cases h
      · next missing =>
        cases h
        exact .inr (.inl ⟨Bool.eq_false_iff.2 single, missing, rfl⟩)

theorem coerce_eq_error {r : DomainRegistry} {request : CoerceRequest} {e : DomainError}
    (h : r.coerce request = .error e) :
    r.select request = .error e ∨
      ∃ d : DomainDefinition, d.run request.label request.raw = .error e := by
  rcases error_of_bind h with failed | ⟨d, -, failed⟩
  · exact .inl failed
  · exact .inr ⟨d, failed⟩

/-- A declared domain is not missing where its members are registered. -/
theorem Knows.coerce_ne_noCoercer {r : DomainRegistry} {request : CoerceRequest}
    (h : r.Knows request.declared) (label domain : String) :
    r.coerce request ≠ .error (.noCoercer label domain) := by
  intro failed
  rcases coerce_eq_error failed with failed | ⟨d, failed⟩
  · rcases select_eq_error failed with ⟨-, -, none⟩ | ⟨single, missing, -⟩ | ⟨stored, none⟩
    · cases none
    · have known := h request.declared (Domain.members_eq_singleton single ▸ List.mem_cons_self)
      rw [missing] at known
      cases known
    · cases none
  · rcases run_eq_error failed with none | ⟨_, none⟩ <;> cases none

/-- A single domain of texts takes a text as it is, where that comes from no stored value or from
one of the same domain. -/
theorem coerce_plainText {r : DomainRegistry} {name : String} (single : Domain.isUnion name = false)
    (texts : name ≠ Domain.number) (known : r.lookup name = some (.plainText name))
    {stored : Option String} (own : ∀ d, stored = some d → d = name) (label raw : String)
    (origin : Origin) : r.coerce ⟨label, origin, raw, name, stored⟩ = .ok ⟨name, .text raw⟩ := by
  have agreed : stored.filter (· != name) = none := by
    rw [Option.filter_eq_none_iff]
    intro d some_
    simp [own d some_]
  simp only [coerce, select, single, agreed, known, Except.bind, DomainDefinition.run]
  simp [DomainDefinition.plainText, texts]

/-- What is missing for a union is a domain under the one spelling of the union. -/
theorem coerce_eq_noUnionCoercer {r : DomainRegistry} {request : CoerceRequest}
    {label key : String} (h : r.coerce request = .error (.noUnionCoercer label key)) :
    Domain.isUnion request.declared = true ∧ key = Domain.unionKey request.declared ∧
      r.lookup key = none := by
  rcases coerce_eq_error h with failed | ⟨d, failed⟩
  · rcases select_eq_error failed with ⟨union, missing, same⟩ | ⟨-, -, none⟩ | ⟨stored, none⟩
    · cases same
      exact ⟨union, rfl, missing⟩
    · cases none
    · cases none
  · rcases run_eq_error failed with none | ⟨_, none⟩ <;> cases none

end DomainRegistry

/-! ## Terms -/

theorem lookUp_ne_domain (world : World) (env : Table String) (c : Capture) (e : DomainError) :
    lookUp world env c ≠ .error (.domain e) := by
  unfold lookUp
  repeat' split
  all_goals exact fun h => nomatch h

theorem populateCapture_eq_domain {world : World} {domains : DomainRegistry} {env : Table String}
    {c : Capture} {e : DomainError}
    (h : populateCapture world domains env c = .error (.domain e)) :
    ∃ raw stored, domains.coerce ⟨c.label, c.origin, raw, c.domain, stored⟩ = .error e := by
  unfold populateCapture at h
  rcases error_of_bind h with failed | ⟨text, -, h⟩
  · exact absurd failed (lookUp_ne_domain world env c e)
  · split at h
    · split at h <;> cases h
    · next raw _ =>
      split at h
      · cases h
      · next fault failed =>
        cases h
        exact ⟨raw, text.stored, failed⟩

/-- The faults of domains that a step meets are those of its terms. -/
theorem populate_eq_domain {world : World} {domains : DomainRegistry} {env : Table String}
    {captures : List Capture} {e : DomainError}
    (h : populate world domains env captures = .error (.domain e)) :
    ∃ c ∈ captures, ∃ raw stored,
      domains.coerce ⟨c.label, c.origin, raw, c.domain, stored⟩ = .error e := by
  unfold populate at h
  rcases error_of_bind h with failed | ⟨values, -, none⟩
  · obtain ⟨c, hc, failed⟩ := exists_of_mapM_eq_error failed
    exact ⟨c, hc, populateCapture_eq_domain failed⟩
  · cases none

end PlainSteps
