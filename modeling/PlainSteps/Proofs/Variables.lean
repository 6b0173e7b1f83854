import PlainSteps.Proofs.Effect
import PlainSteps.Proofs.Table
import PlainSteps.Variables

/-!
# Where the values of terms come from

Bare text stands for an entry of the environment, else for a shared variable, else for itself. It
gives what a term gives that is written in the form for that place, since domains treat all forms
alike but the quoted one. The terms of a line do not see each other: the values of a line are those
of its terms together, and its fault is that of the first term that has one.

* `Origin.located`: the origin that says where the value of a term is found.
* `populate_located`: terms in the form for their place give the same values.
* `exists_populate_iff`, `get?_of_populate`: the values of a line, from its terms.
* `populate_eq_error_iff`: the fault of a line, from its terms.
* `populate_each`: all of these, with the terms by themselves.

Proof-only: no module that runs imports this one.
-/

namespace PlainSteps

/-! ## Places -/

/-- The origin that says where the value of a term is found: for bare text the environment, else the
shared variables, else the text itself. -/
def Origin.located (world : World) (env : Table String) (term : String) : Origin → Origin
  | .fallthrough =>
    if (env.get? term).isSome then .env
    else if (world.get? term).isSome then .var
    else .special
  | origin => origin

/-- The term in the form for the place where its value is found. -/
def Capture.located (world : World) (env : Table String) (c : Capture) : Capture :=
  { c with origin := c.origin.located world env c.term }

/-- The value with the origin that says where it was found. -/
def PopulatedValue.located (world : World) (env : Table String) (v : PopulatedValue) :
    PopulatedValue :=
  { v with origin := v.origin.located world env v.term }

section Populate

variable {world : World} {domains : DomainRegistry} {env : Table String}

theorem Origin.located_eq_quoted_iff {term : String} {origin : Origin} :
    origin.located world env term = .quoted ↔ origin = .quoted := by
  cases origin with
  | fallthrough =>
    unfold located
    refine iff_of_false ?_ Origin.noConfusion
    repeat' split
    all_goals exact Origin.noConfusion
  | _ => exact Iff.rfl

theorem lookUp_located (c : Capture) :
    lookUp world env (c.located world env) = lookUp world env c := by
  obtain ⟨label, term, origin, domain⟩ := c
  cases origin with
  | fallthrough =>
    cases inEnv : env.get? term with
    | some s => simp [lookUp, Capture.located, Origin.located, inEnv]
    | none =>
      cases inWorld : world.get? term with
      | some v => simp [lookUp, Capture.located, Origin.located, inEnv, inWorld]
      | none => simp [lookUp, Capture.located, Origin.located, inEnv, inWorld]
  | _ => rfl

/-- Domains tell quoted text from other text, and no other forms apart. -/
theorem DomainRegistry.coerce_congr_origin {r : DomainRegistry} {origin origin' : Origin}
    (same : origin = .quoted ↔ origin' = .quoted) (label raw declared : String)
    (stored : Option String) :
    r.coerce ⟨label, origin, raw, declared, stored⟩ =
      r.coerce ⟨label, origin', raw, declared, stored⟩ := by
  simp only [coerce, select, same]

/-- A term that stands for no text has no value, or has none as a fault. -/
theorem populateCapture_of_none {c : Capture} {stored : Option String}
    (found : lookUp world env c = .ok ⟨none, stored⟩) :
    populateCapture world domains env c =
      if domains.rejectsUndefined c.domain then .error (.missingCredential c.label c.term)
      else .ok none := by
  unfold populateCapture
  rw [found]
  rfl

/-- A term that stands for a text has the value that its domain reads. -/
theorem populateCapture_of_some {c : Capture} {raw : String} {stored : Option String}
    (found : lookUp world env c = .ok ⟨some raw, stored⟩) :
    populateCapture world domains env c =
      ((domains.coerce ⟨c.label, c.origin, raw, c.domain, stored⟩).map fun read =>
        some ⟨c.label, c.term, c.origin, read.domain, read.value⟩).mapError .domain := by
  unfold populateCapture
  rw [found]
  simp only [bind, Except.bind]
  cases domains.coerce ⟨c.label, c.origin, raw, c.domain, stored⟩ <;> rfl

theorem populateCapture_located (c : Capture) :
    populateCapture world domains env (c.located world env) =
      (populateCapture world domains env c).map (·.map (·.located world env)) := by
  have same : lookUp world env (c.located world env) = lookUp world env c := lookUp_located c
  cases found : lookUp world env c with
  | error e =>
    unfold populateCapture
    rw [same, found]
    rfl
  | ok text =>
    rw [found] at same
    obtain ⟨raw, stored⟩ := text
    cases raw with
    | none =>
      rw [populateCapture_of_none same, populateCapture_of_none found]
      show (if domains.rejectsUndefined c.domain then _ else _) = _
      split <;> rfl
    | some raw =>
      have form : c.origin.located world env c.term = .quoted ↔ c.origin = .quoted :=
        Origin.located_eq_quoted_iff
      have read := domains.coerce_congr_origin form c.label raw c.domain stored
      rw [populateCapture_of_some same, populateCapture_of_some found]
      simp only [Capture.located, read]
      cases domains.coerce ⟨c.label, c.origin, raw, c.domain, stored⟩ <;> rfl

/-! ## Terms of a line -/

/-- The entry of the values of a line that a term gives. -/
def PopulatedValue.entry (v : PopulatedValue) : String × PopulatedValue := (v.label, v)

theorem populate_eq (captures : List Capture) :
    populate world domains env captures =
      (captures.mapM (populateCapture world domains env)).map fun values =>
        .ofList (values.filterMap (·.map PopulatedValue.entry)) := by
  unfold populate
  cases captures.mapM (populateCapture world domains env) <;> rfl

/-- Terms in the form for their place give the same values, or the same fault. -/
theorem populate_located (captures : List Capture) :
    populate world domains env (captures.map (·.located world env)) =
      (populate world domains env captures).map (·.map (·.located world env)) := by
  have entry (v : Option PopulatedValue) :
      (v.map (·.located world env)).map PopulatedValue.entry =
        (v.map PopulatedValue.entry).map fun e => (e.1, e.2.located world env) := by
    cases v <;> rfl
  have each : populateCapture world domains env ∘ (·.located world env) = fun c =>
      (populateCapture world domains env c).map (·.map (·.located world env)) :=
    funext populateCapture_located
  rw [populate_eq, populate_eq, List.mapM_map, each, mapM_map_results]
  cases captures.mapM (populateCapture world domains env) with
  | error e => rfl
  | ok values =>
    refine congrArg Except.ok ?_
    simp only [Table.map_ofList, List.filterMap_map, List.map_filterMap, Function.comp_def, entry]

theorem label_of_populateCapture {c : Capture} {v : PopulatedValue}
    (h : populateCapture world domains env c = .ok (some v)) : v.label = c.label := by
  unfold populateCapture at h
  obtain ⟨text, -, h⟩ := ok_of_bind h
  split at h
  · split at h <;> cases h
  · split at h
    · cases h
      rfl
    · cases h

/-- Each term gives at most the entry of its label. -/
theorem labels_sublist {captures : List Capture} {values : List (Option PopulatedValue)}
    (each : List.Forall₂ (fun c v => populateCapture world domains env c = .ok v) captures values) :
    ((values.filterMap (·.map PopulatedValue.entry)).map (·.1)).Sublist
      (captures.map (·.label)) := by
  induction each with
  | nil => exact .slnil
  | @cons c v _ _ first _ ih =>
    cases v with
    | none => exact ih.cons c.label
    | some v =>
      rw [List.filterMap_cons, List.map_cons, ← label_of_populateCapture first]
      exact ih.cons_cons v.label

/-- A line has values if and only if each of its terms has one or needs none. -/
theorem exists_populate_iff {captures : List Capture} :
    (∃ vars, populate world domains env captures = .ok vars) ↔
      ∀ c ∈ captures, ∃ v, populateCapture world domains env c = .ok v := by
  rw [← exists_mapM_iff, populate_eq]
  cases captures.mapM (populateCapture world domains env) with
  | error e => exact iff_of_false (fun ⟨_, h⟩ => nomatch h) (fun ⟨_, h⟩ => nomatch h)
  | ok values => exact iff_of_true ⟨_, rfl⟩ ⟨_, rfl⟩

/-- The fault of a line is that of the first term that has one. -/
theorem populate_eq_error_iff {captures : List Capture} {e : PopulateError} :
    populate world domains env captures = .error e ↔
      ∃ before c after, captures = before ++ c :: after ∧
        (∀ b ∈ before, ∃ v, populateCapture world domains env b = .ok v) ∧
        populateCapture world domains env c = .error e := by
  rw [← mapM_eq_error_iff, populate_eq, map_eq_error_iff]

/-- Where the labels are different, the values of a line are those of its terms. -/
theorem get?_of_populate {captures : List Capture} (distinct : (captures.map (·.label)).Nodup)
    {vars : Variables} (h : populate world domains env captures = .ok vars) {label : String}
    {value : PopulatedValue} : vars.get? label = some value ↔ value.label = label ∧
      ∃ c ∈ captures, populateCapture world domains env c = .ok (some value) := by
  rw [populate_eq] at h
  obtain ⟨values, read, rfl⟩ := ok_of_map h
  have labels := distinct.sublist (labels_sublist (forall₂_of_mapM read))
  rw [Table.get?_ofList_eq_some_iff labels, List.mem_filterMap, ← mem_iff_of_mapM read]
  constructor
  · rintro ⟨v, mem, entry⟩
    obtain ⟨v, rfl, entry⟩ := Option.map_eq_some_iff.1 entry
    cases entry
    exact ⟨rfl, mem⟩
  · rintro ⟨rfl, mem⟩
    exact ⟨some value, mem, rfl⟩

/-! ### Terms by themselves -/

theorem populate_single_eq_error_iff {c : Capture} {e : PopulateError} :
    populate world domains env [c] = .error e ↔ populateCapture world domains env c = .error e := by
  have alone : [c].mapM (populateCapture world domains env) =
      (populateCapture world domains env c).map fun v => [v] := by
    rw [List.mapM_cons]
    cases populateCapture world domains env c <;> rfl
  rw [populate_eq, map_eq_error_iff, alone, map_eq_error_iff]

theorem exists_populate_single_iff {c : Capture} :
    (∃ single, populate world domains env [c] = .ok single) ↔
      ∃ v, populateCapture world domains env c = .ok v := by
  rw [exists_populate_iff, List.forall_mem_singleton]

theorem get?_of_populate_single {c : Capture} {single : Variables}
    (h : populate world domains env [c] = .ok single) {label : String} {value : PopulatedValue} :
    single.get? label = some value ↔
      value.label = label ∧ populateCapture world domains env c = .ok (some value) := by
  have distinct : ([c].map (·.label)).Nodup := List.pairwise_singleton _ _
  rw [get?_of_populate distinct h, List.exists_mem_cons_iff]
  simp

/-- Bare text gives what the form for its place gives, with another origin and nothing else. A line
whose placeholders have different labels has values if and only if each term has by itself, and then
its values are theirs; otherwise its fault is that of the first term that has one by itself. -/
theorem populate_each {captures : List Capture} (distinct : (captures.map (·.label)).Nodup)
    (world : World) (domains : DomainRegistry) (env : Table String) :
    populate world domains env (captures.map (·.located world env)) =
      (populate world domains env captures).map (·.map (·.located world env)) ∧
    ((∃ vars, populate world domains env captures = .ok vars) ↔
      ∀ c ∈ captures, ∃ single, populate world domains env [c] = .ok single) ∧
    (∀ vars, populate world domains env captures = .ok vars → ∀ label value,
      vars.get? label = some value ↔ ∃ c ∈ captures, ∃ single,
        populate world domains env [c] = .ok single ∧ single.get? label = some value) ∧
    ∀ e, populate world domains env captures = .error e ↔
      ∃ before c after, captures = before ++ c :: after ∧
        (∀ b ∈ before, ∃ single, populate world domains env [b] = .ok single) ∧
        populate world domains env [c] = .error e := by
  refine ⟨populate_located captures, ?each, ?together, ?fault⟩
  case each =>
    simp only [exists_populate_single_iff]
    exact exists_populate_iff
  case together =>
    intro vars h label value
    rw [get?_of_populate distinct h]
    constructor
    · rintro ⟨own, c, mem, read⟩
      obtain ⟨single, alone⟩ := exists_populate_single_iff.2 ⟨_, read⟩
      exact ⟨c, mem, single, alone, (get?_of_populate_single alone).2 ⟨own, read⟩⟩
    · rintro ⟨c, mem, single, alone, found⟩
      obtain ⟨own, read⟩ := (get?_of_populate_single alone).1 found
      exact ⟨own, c, mem, read⟩
  case fault =>
    intro e
    simp only [exists_populate_single_iff, populate_single_eq_error_iff]
    exact populate_eq_error_iff

end Populate

/-! ## A line -/

/-- A world with a variable of the domain of texts. -/
def visitorWorld : World :=
  (World.new "t").set "who" ⟨.text "ada", some Domain.string, .quoted⟩

/-- An environment with one entry. -/
def siteEnv : Table String := .ofList [("site", "example.org")]

/-- Bare text for a variable, for an entry of the environment and for itself, and a credential that
is not set. -/
def visitorCaptures : List Capture :=
  [⟨"name", "who", .fallthrough, Domain.string⟩, ⟨"place", "site", .fallthrough, Domain.string⟩,
    ⟨"word", "hello", .fallthrough, Domain.string⟩,
    ⟨"pin", "secret", .credential, Domain.string⟩]

/-- A variable and an entry of the environment that are not set. -/
def missingCaptures : List Capture :=
  [⟨"friend", "nobody", .var, Domain.string⟩, ⟨"home", "nowhere", .env, Domain.string⟩]

/-- The values of the line, with the places where they were found; no credential is among them. With
a variable that is not set after it, and another term that has a fault after that, the line has the
fault of the variable. -/
theorem populate_visitor :
    populate visitorWorld .initial siteEnv (visitorCaptures.map (·.located visitorWorld siteEnv)) =
      .ok ⟨[("name", ⟨"name", "who", .var, Domain.string, .text "ada"⟩),
        ("place", ⟨"place", "site", .env, Domain.string, .text "example.org"⟩),
        ("word", ⟨"word", "hello", .special, Domain.string, .text "hello"⟩)]⟩ ∧
    populate visitorWorld .initial siteEnv (visitorCaptures ++ missingCaptures) =
      .error (.missingVariable "friend" "nobody") := by
  have distinct : (visitorCaptures.map (·.label)).Nodup := by decide
  have allDistinct : ((visitorCaptures ++ missingCaptures).map (·.label)).Nodup := by decide
  obtain ⟨values, alone, -, -⟩ := populate_each distinct visitorWorld .initial siteEnv
  obtain ⟨-, -, -, fault⟩ := populate_each allDistinct visitorWorld .initial siteEnv
  refine ⟨values.trans rfl, (fault _).2 ⟨visitorCaptures, _, _, rfl, ?_, rfl⟩⟩
  exact alone.1 ⟨_, rfl⟩

end PlainSteps
