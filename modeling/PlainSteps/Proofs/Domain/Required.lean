import PlainSteps.Proofs.Domain.Calls

/-!
# Required domains

A stepper names the domains that it requires. A union is registered whatever the order in which its
members are written, but is found only in its one spelling.

* `DomainRegistry.HasDomain`: a domain of a name is registered, in whatever spelling.
* `DomainRegistry.isSome_lookup_ofCalls_iff`: which names are found.
* `DomainRegistry.require_eq_error_iff`: the first name that is not found is reported.
* `DomainRegistry.require_ofCalls`: both, for the registry that calls make.
* `DomainRegistry.not_all_accepted_found`: a union that is registered and not found.

Proof-only: no module that runs imports this one.
-/

namespace PlainSteps.DomainRegistry

/-- A domain of a name is registered: under the name itself or, for a union, under any spelling of
it. -/
def HasDomain (r : DomainRegistry) (name : String) : Prop :=
  ∃ key d, r.lookup key = some d ∧ (d.name = name ∨
    Domain.isUnion name = true ∧ ∀ m, m ∈ Domain.members d.name ↔ m ∈ Domain.members name)

section Calls

variable {calls : List DomainDefinition} {name : String}

theorem hasDomain_ofCalls_iff :
    (ofCalls calls).HasDomain name ↔
      ((ofCalls calls).lookup (Domain.key name)).isSome = true := by
  rw [Option.isSome_iff_exists]
  constructor
  · rintro ⟨key, d, found, same⟩
    have members : Domain.key d.name = Domain.key name := by
      rcases same with rfl | ⟨-, same⟩
      · rfl
      · exact Domain.key_eq_iff.2 same
    obtain ⟨given, -, own, rfl⟩ := exists_of_lookup_ofCalls found
    have kept : Domain.key given.kept.name = key := (Domain.key_key _).trans own
    exact ⟨given.kept, by rw [← members, kept, found]⟩
  · rintro ⟨d, found⟩
    have named := name_of_lookup_ofCalls found
    refine ⟨_, d, found, ?_⟩
    rw [named]
    cases union : Domain.isUnion name with
    | false => exact .inl (Domain.key_of_single union)
    | true => exact .inr ⟨rfl, fun m => Domain.mem_members_key⟩

/-- A name is found exactly when a domain of it is registered and its members are written in order,
each once. -/
theorem isSome_lookup_ofCalls_iff :
    ((ofCalls calls).lookup name).isSome = true ↔
      (ofCalls calls).HasDomain name ∧ (Domain.members name).Pairwise (· < ·) := by
  rw [hasDomain_ofCalls_iff, ← Domain.key_eq_self_iff]
  constructor
  · intro found
    obtain ⟨d, some_⟩ := Option.isSome_iff_exists.1 found
    obtain ⟨given, -, own, -⟩ := exists_of_lookup_ofCalls some_
    have spelled : Domain.key name = name := by rw [← own, Domain.key_key]
    exact ⟨by rwa [spelled], spelled⟩
  · rintro ⟨found, spelled⟩
    rwa [spelled] at found

/-- After a call, whether it was refused or not, there is a domain of the name that it gives. -/
theorem hasDomain_of_mem {d : DomainDefinition} (h : d ∈ calls) :
    (ofCalls calls).HasDomain d.name := by
  rw [hasDomain_ofCalls_iff, ofCalls, lookup_foldl_call, Option.isSome_or, Option.isSome_map,
    Bool.or_eq_true, List.find?_isSome]
  exact .inr ⟨d, h, by simp⟩

end Calls

section Require

variable {r : DomainRegistry} {stepper : String} {required : List String}

/-- The first name that is not found is reported. -/
theorem require_eq_error_iff {e : DomainError} :
    r.require stepper required = .error e ↔ ∃ before name after,
      required = before ++ name :: after ∧ e = .missingRequired stepper name ∧
      (∀ other ∈ before, (r.lookup other).isSome = true) ∧ ¬ (r.lookup name).isSome = true := by
  have first (name : String) :
      required.find? (fun name => (r.lookup name).isNone) = some name ↔
        ∃ before after, required = before ++ name :: after ∧
          (∀ other ∈ before, (r.lookup other).isSome = true) ∧
          ¬ (r.lookup name).isSome = true := by
    rw [List.find?_eq_some_iff_append]
    constructor
    · rintro ⟨missing, before, after, whole, found⟩
      exact ⟨before, after, whole, fun other mem => by simpa using found other mem,
        by simpa using missing⟩
    · rintro ⟨before, after, whole, found, missing⟩
      exact ⟨by simpa using missing, before, after, whole, fun other mem => by
        simpa using found other mem⟩
  unfold require
  constructor
  · intro h
    split at h
    · next name missing =>
      cases h
      obtain ⟨before, after, rest⟩ := (first name).1 missing
      exact ⟨before, name, after, rest.1, rfl, rest.2⟩
    · cases h
  · rintro ⟨before, name, after, whole, rfl, rest⟩
    rw [(first name).2 ⟨before, after, whole, rest⟩]

theorem require_eq_ok_iff :
    r.require stepper required = .ok () ↔ ∀ name ∈ required, (r.lookup name).isSome = true := by
  unfold require
  cases missing : required.find? fun name => (r.lookup name).isNone with
  | none =>
    refine iff_of_true rfl fun name mem => ?_
    exact Option.isSome_iff_ne_none.2 (by simpa using List.find?_eq_none.1 missing name mem)
  | some name =>
    refine iff_of_false (fun h => nomatch h) fun found => ?_
    have here := found name (List.mem_of_find?_eq_some missing)
    have absent := List.find?_some missing
    simp [Option.isNone_iff_eq_none.1 absent] at here

end Require

/-- Whatever calls have been made, the name of a call is found if it writes its members in order and
each once, and not otherwise, although a domain of it is registered. The name that is reported as
missing is the first of which no domain is registered or which is not written so. -/
theorem require_ofCalls (calls : List DomainDefinition) (stepper : String) :
    (∀ d ∈ calls, (ofCalls calls).HasDomain d.name ∧
      ((ofCalls calls).require stepper [d.name] = .ok () ↔
        (Domain.members d.name).Pairwise (· < ·))) ∧
    ∀ required e, (ofCalls calls).require stepper required = .error e ↔ ∃ before name after,
      required = before ++ name :: after ∧ e = .missingRequired stepper name ∧
      (∀ other ∈ before,
        (ofCalls calls).HasDomain other ∧ (Domain.members other).Pairwise (· < ·)) ∧
      ¬ ((ofCalls calls).HasDomain name ∧ (Domain.members name).Pairwise (· < ·)) := by
  constructor
  · intro d mem
    have has := hasDomain_of_mem mem
    refine ⟨has, ?_⟩
    rw [require_eq_ok_iff, List.forall_mem_singleton, isSome_lookup_ofCalls_iff]
    exact and_iff_right has
  · intro required e
    rw [require_eq_error_iff]
    simp only [isSome_lookup_ofCalls_iff]

/-- Calls for a union in two spellings, of which the second is refused. -/
def unionCalls : List DomainDefinition := [.plainText "page|url", .plainText "url|page"]

/-- The one spelling is found and the other is reported, although both name the same domain. -/
theorem require_unionCalls :
    (ofCalls unionCalls).require "web" ["page|url"] = .ok () ∧
    (ofCalls unionCalls).HasDomain "url|page" ∧
    (ofCalls unionCalls).require "web" ["page|url", "url|page", "selector"] =
      .error (.missingRequired "web" "url|page") := by
  obtain ⟨named, reported⟩ := require_ofCalls unionCalls "web"
  obtain ⟨has, sorted⟩ := named (.plainText "page|url") (by simp [unionCalls])
  obtain ⟨other, -⟩ := named (.plainText "url|page") (by simp [unionCalls])
  have members : (Domain.members "page|url").Pairwise (· < ·) := by decide
  refine ⟨sorted.2 members, other, (reported _ _).2 ?_⟩
  refine ⟨["page|url"], "url|page", ["selector"], rfl, rfl, ?_, fun found => ?_⟩
  · exact List.forall_mem_singleton.2 ⟨has, members⟩
  · exact absurd found.2 (by decide)

/-- A domain can be registered under a name that is not found then. -/
theorem not_all_accepted_found : ¬ ∀ before d after r stepper,
    (ofCalls before).register d = .ok r →
      (ofCalls (before ++ d :: after)).require stepper [d.name] = .ok () := by
  intro all
  have key : Domain.key "url|page" = "page|url" := by
    have members : Domain.members "url|page" = ["url", "page"] := by decide
    have sorted : Domain.members "page|url" = ["page", "url"] := by decide
    have spelled : Domain.key "page|url" = "page|url" := Domain.key_eq_self_iff.2 (by decide)
    rw [← spelled, Domain.key_eq_iff, members, sorted]
    exact fun m => by simp [or_comm]
  have fresh : initial.domains.contains (Domain.key "url|page") = false := by
    rw [key]
    rfl
  have accepted : ∃ r, (ofCalls []).register (.plainText "url|page") = .ok r :=
    ⟨_, if_neg (Bool.eq_false_iff.1 fresh)⟩
  obtain ⟨r, accepted⟩ := accepted
  have found := require_eq_ok_iff.1 (all [] _ [] r "web" accepted) "url|page" List.mem_cons_self
  exact absurd (isSome_lookup_ofCalls_iff.1 found).2 (by decide)

end PlainSteps.DomainRegistry
