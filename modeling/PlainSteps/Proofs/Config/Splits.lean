import Mathlib.Data.List.Forall2
import Mathlib.Data.List.Lex
import Mathlib.Data.List.Nodup
import PlainSteps.Proofs.Config.Pairs
import PlainSteps.Proofs.Table

/-!
# Splits of a configuration

The variants of a configuration are the pairs that its variables give. A split chooses one value for
each name, every choice occurs once, and the tag of a split makes its environment again.

* `givenVariants`: the pairs that the variables give, in order.
* `Collects`: a table of variants has the values of each name in the order in which they are given
  first.
* `choices_pairwise`, `mem_choices_iff`: the choices among values, and their order.
* `RunConfig.IsSplit`: what the split of a choice is.
* `RunConfig.splits_ofVariables`: the splits of a configuration that variables make.

Proof-only: no module that runs imports this one.
-/

namespace PlainSteps

open RunConfig

/-! ## Choices -/

/-- Where entries have the values that are given, the choices are the lists of given pairs that have
the names of the entries in order. -/
theorem mem_choices_iff {given : List (String × String)} {entries : List (String × List String)}
    (values : ∀ entry ∈ entries, ∀ value, value ∈ entry.2 ↔ (entry.1, value) ∈ given)
    {choice : List (String × String)} :
    choice ∈ choices entries ↔
      choice.map (·.1) = entries.map (·.1) ∧ ∀ p ∈ choice, p ∈ given := by
  induction entries generalizing choice with
  | nil =>
    rw [choices, List.mem_singleton, List.map_nil, List.map_eq_nil_iff]
    constructor
    · rintro rfl
      exact ⟨rfl, List.forall_mem_nil _⟩
    · exact fun h => h.1
  | cons entry rest ih =>
    obtain ⟨name, own⟩ := entry
    obtain ⟨first, others⟩ := List.forall_mem_cons.1 values
    rw [choices, List.mem_flatMap]
    constructor
    · rintro ⟨value, hv, mem⟩
      obtain ⟨more, hmore, rfl⟩ := List.mem_map.1 mem
      obtain ⟨names, pairs⟩ := (ih others).1 hmore
      exact ⟨congrArg (name :: ·) names, List.forall_mem_cons.2 ⟨(first value).1 hv, pairs⟩⟩
    · rintro ⟨names, pairs⟩
      cases choice with
      | nil => cases names
      | cons p more =>
        obtain ⟨n, value⟩ := p
        obtain ⟨same, namesBelow⟩ := List.cons.inj names
        change n = name at same
        subst same
        obtain ⟨hp, below⟩ := List.forall_mem_cons.1 pairs
        refine ⟨value, (first value).2 hp, List.mem_map.2 ⟨more, ?_, rfl⟩⟩
        exact (ih others).2 ⟨namesBelow, below⟩

/-- Choices are in the lexicographic order of their values. -/
theorem choices_pairwise (before : String × String → String × String → Prop)
    {entries : List (String × List String)}
    (order : ∀ entry ∈ entries, entry.2.Pairwise fun v w => before (entry.1, v) (entry.1, w)) :
    (choices entries).Pairwise (List.Lex before) := by
  induction entries with
  | nil => exact List.pairwise_singleton _ _
  | cons entry rest ih =>
    obtain ⟨name, values⟩ := entry
    obtain ⟨own, others⟩ := List.forall_mem_cons.1 order
    rw [choices, List.pairwise_flatMap]
    refine ⟨fun value _ => ?_, own.imp fun {v w} earlier => ?_⟩
    · exact List.pairwise_map.2 ((ih others).imp fun later => .cons later)
    · intro x hx y hy
      obtain ⟨xs, -, rfl⟩ := List.mem_map.1 hx
      obtain ⟨ys, -, rfl⟩ := List.mem_map.1 hy
      exact .rel earlier

/-! ## Variants -/

/-- The variants that one variable gives. -/
def variantsIn (variable_ : String × String) : List (String × String) :=
  if variable_.1 = "HAIBUN_ENVC" then
    (readPairs variable_.1 variable_.2).toOption.getD []
  else []

/-- The variants that variables give, in order. -/
def givenVariants (vars : List (String × String)) : List (String × String) :=
  vars.flatMap variantsIn

/-- The values of a name in a table of variants. -/
def valuesOf (variants : Table (List String)) (name : String) : List String :=
  (variants.get? name).getD []

/-- A table of variants has the values that are given for each name, in the order in which they are
given first. -/
structure Collects (given : List (String × String)) (variants : Table (List String)) : Prop where
  sorted : variants.Sorted
  nonempty : ∀ name, variants.get? name ≠ some []
  values : ∀ name value, value ∈ valuesOf variants name ↔ (name, value) ∈ given
  order : ∀ name, (valuesOf variants name).Pairwise fun v w =>
    given.idxOf (name, v) < given.idxOf (name, w)

theorem collects_empty : Collects [] ∅ where
  sorted := Table.sorted_empty
  nonempty _ h := nomatch h
  values name _ := by
    rw [valuesOf, show (∅ : Table (List String)).get? name = none from rfl]
    simp
  order _ := .nil

/-- The order in which values are given first does not change when more are given. -/
theorem Collects.order_append {given : List (String × String)} {variants : Table (List String)}
    (h : Collects given variants) (more : List (String × String)) (name : String) :
    (valuesOf variants name).Pairwise fun v w =>
      (given ++ more).idxOf (name, v) < (given ++ more).idxOf (name, w) := by
  refine (h.order name).imp_of_mem fun {v w} hv hw earlier => ?_
  rwa [List.idxOf_append_of_mem ((h.values name v).1 hv),
    List.idxOf_append_of_mem ((h.values name w).1 hw)]

/-- The values of a name after one more is given for it. -/
def withValue (values : List String) (value : String) : List String :=
  if values.contains value then values else values ++ [value]

theorem mem_withValue {values : List String} {value other : String} :
    other ∈ withValue values value ↔ other ∈ values ∨ other = value := by
  unfold withValue
  split
  · next there =>
    refine ⟨.inl, fun h => h.elim id ?_⟩
    rintro rfl
    simpa using there
  · rw [List.mem_append, List.mem_singleton]

theorem valuesOf_addVariant (c : RunConfig) (name value other : String) :
    valuesOf (c.addVariant name value).variants other =
      if other = name then withValue (valuesOf c.variants name) value
      else valuesOf c.variants other := by
  show ((c.variants.insert name (withValue (valuesOf c.variants name) value)).get? other).getD [] =
    _
  rw [Table.get?_insert]
  split <;> rfl

/-- A value that is given is added to those of its name, after all that are given before it. -/
theorem Collects.addVariant {given : List (String × String)} {c : RunConfig}
    (h : Collects given c.variants) (name value : String) :
    Collects (given ++ [(name, value)]) (c.addVariant name value).variants where
  sorted := h.sorted.insert _ _
  nonempty other := by
    show (c.variants.insert name (withValue (valuesOf c.variants name) value)).get? other ≠ some []
    rw [Table.get?_insert]
    split
    · have mem : value ∈ withValue (valuesOf c.variants name) value := mem_withValue.2 (.inr rfl)
      intro empty
      rw [Option.some.inj empty] at mem
      exact List.not_mem_nil mem
    · exact h.nonempty other
  values other v := by
    rw [valuesOf_addVariant, List.mem_append, List.mem_singleton, ← h.values]
    split
    · next same =>
      subst same
      simp [mem_withValue]
    · next different => simp [different]
  order other := by
    rw [valuesOf_addVariant]
    split
    · next same =>
      subst same
      unfold withValue
      split
      · exact h.order_append _ _
      · next new =>
        have absent : (other, value) ∉ given := by
          rw [← h.values]
          simpa using new
        refine List.pairwise_append.2 ⟨h.order_append _ _, List.pairwise_singleton _ _, ?_⟩
        intro v hv w hw
        obtain rfl := List.mem_singleton.1 hw
        have mem := (h.values other v).1 hv
        rw [List.idxOf_append_of_mem mem, List.idxOf_append_of_notMem absent]
        exact Nat.lt_add_right _ (List.idxOf_lt_length_of_mem mem)
    · exact h.order_append _ _

theorem Collects.addVariants {given : List (String × String)} {c : RunConfig}
    (h : Collects given c.variants) (pairs : List (String × String)) :
    Collects (given ++ pairs) (c.addVariants pairs).variants := by
  induction pairs generalizing given c with
  | nil =>
    rw [List.append_nil]
    exact h
  | cons p rest ih =>
    have more := ih (h.addVariant p.1 p.2)
    rwa [List.append_assoc] at more

/-! ## Variables -/

/-- A variable adds the variants that it gives and changes no others. -/
theorem Collects.applyVariable {given : List (String × String)} {c c' : RunConfig}
    (h : Collects given c.variants) {key value : String}
    (applied : c.applyVariable key value = .ok c') :
    Collects (given ++ variantsIn (key, value)) c'.variants := by
  have kept (other : key ≠ "HAIBUN_ENVC") (same : c'.variants = c.variants) :
      Collects (given ++ variantsIn (key, value)) c'.variants := by
    rw [variantsIn, if_neg other, List.append_nil, same]
    exact h
  unfold RunConfig.applyVariable at applied
  split at applied
  · obtain ⟨pairs, -, made⟩ := ok_of_bind applied
    cases made
    exact kept (by decide) rfl
  · obtain ⟨pairs, read, made⟩ := ok_of_bind applied
    cases made
    have given_ : variantsIn ("HAIBUN_ENVC", value) = pairs := by
      rw [variantsIn, if_pos rfl]
      simp only [read]
      rfl
    rw [given_]
    exact h.addVariants pairs
  · obtain ⟨flag, -, made⟩ := ok_of_bind applied
    cases made
    exact kept (by decide) rfl
  · obtain ⟨flag, -, made⟩ := ok_of_bind applied
    cases made
    exact kept (by decide) rfl
  · obtain ⟨flag, -, made⟩ := ok_of_bind applied
    cases made
    exact kept (by decide) rfl
  · obtain ⟨delay, -, made⟩ := ok_of_bind applied
    cases made
    exact kept (by decide) rfl
  · next other _ _ _ _ =>
    split at applied
    · cases applied
      exact kept other rfl
    · cases applied
      exact kept other rfl

theorem Collects.foldlM {given vars : List (String × String)} {c c' : RunConfig}
    (h : Collects given c.variants)
    (applied : vars.foldlM (fun c v => c.applyVariable v.1 v.2) c = .ok c') :
    Collects (given ++ givenVariants vars) c'.variants := by
  induction vars generalizing given c with
  | nil =>
    cases applied
    rw [givenVariants, List.flatMap_nil, List.append_nil]
    exact h
  | cons v rest ih =>
    rw [List.foldlM_cons] at applied
    obtain ⟨mid, first, others⟩ := ok_of_bind applied
    have more := ih (h.applyVariable first) others
    rwa [List.append_assoc] at more

/-- Variables make a table of the variants that they give. -/
theorem collects_ofVariables {vars : List (String × String)} {c : RunConfig}
    (h : ofVariables vars = .ok c) : Collects (givenVariants vars) c.variants :=
  collects_empty.foldlM h

theorem isPair_of_mem_givenVariants (vars : List (String × String)) :
    ∀ p ∈ givenVariants vars, IsPair p := by
  intro p hp
  obtain ⟨v, -, hp⟩ := List.mem_flatMap.1 hp
  unfold variantsIn at hp
  split at hp
  · cases read : readPairs v.1 v.2 with
    | error e =>
      rw [read] at hp
      exact nomatch hp
    | ok pairs =>
      rw [read] at hp
      exact isPair_of_mem_readPairs read p hp
  · exact nomatch hp

/-! ## Splits -/

/-- Pairs are put over the environment, of each name the last one. -/
theorem get?_addEnv (c : RunConfig) (pairs : List (String × String)) (name : String) :
    (c.addEnv pairs).env.get? name = (pairs.reverse.lookup name).or (c.env.get? name) := by
  induction pairs generalizing c with
  | nil => rfl
  | cons p rest ih =>
    obtain ⟨n, v⟩ := p
    have first : (c.addEnv ((n, v) :: rest)).env =
        (RunConfig.addEnv { c with env := c.env.insert n v } rest).env := rfl
    rw [first, ih, Table.get?_insert, List.reverse_cons, List.lookup_append, Option.or_assoc,
      Table.lookup_cons_eq]
    split <;> rfl

/-- The last of pairs with different names is the first. -/
theorem lookup_reverse {pairs : List (String × String)}
    (names : pairs.Pairwise fun p q => p.1 ≠ q.1) (name : String) :
    pairs.reverse.lookup name = pairs.lookup name := by
  induction pairs with
  | nil => rfl
  | cons p rest ih =>
    obtain ⟨n, v⟩ := p
    obtain ⟨apart, others⟩ := List.pairwise_cons.1 names
    rw [List.reverse_cons, List.lookup_append, ih others, Table.lookup_cons_eq,
      Table.lookup_cons_eq]
    split
    · next same =>
      subst same
      have absent : rest.lookup name = none := by
        rw [List.lookup_eq_none_iff]
        exact fun q hq => by simpa using apart q hq
      rw [absent]
      rfl
    · exact Option.or_none

/-- The split of a choice: its tag is read as the choice, its environment is that of the
configuration with the choice put over it, it has no variants and is otherwise the configuration,
and its tag makes the same environment when it is read after the variables of the configuration. -/
structure RunConfig.IsSplit (vars : List (String × String)) (c : RunConfig)
    (choice : List (String × String)) (split : String × RunConfig) : Prop where
  tag : ∀ key, readPairs key split.1 = .ok choice
  env : ∀ name, split.2.env.get? name = (choice.lookup name).or (c.env.get? name)
  others : split.2 = { c with env := split.2.env, variants := ∅ }
  again : ofVariables (vars ++ [("HAIBUN_ENV", split.1)]) = .ok { c with env := split.2.env }

/-- One more variable is applied after all others. -/
theorem ofVariables_concat (vars : List (String × String)) (key value : String) :
    ofVariables (vars ++ [(key, value)]) = ofVariables vars >>= (·.applyVariable key value) := by
  rw [ofVariables, List.foldlM_append]
  refine bind_congr fun c => ?_
  rw [List.foldlM_cons]
  exact bind_pure _

theorem isSplit_choose {vars : List (String × String)} {c : RunConfig}
    (h : ofVariables vars = .ok c) {choice : List (String × String)}
    (pairs : ∀ p ∈ choice, IsPair p) (names : choice.Pairwise fun p q => p.1 ≠ q.1) :
    IsSplit vars c choice (tagOf choice, c.choose choice) where
  tag key := readPairs_tagOf key pairs
  env name := (get?_addEnv c choice name).trans (by rw [lookup_reverse names])
  others := rfl
  again := by
    have last : c.applyVariable "HAIBUN_ENV" (tagOf choice) = .ok (c.addEnv choice) := by
      show (readPairs "HAIBUN_ENV" (tagOf choice) >>= fun pairs => pure (c.addEnv pairs)) = _
      rw [readPairs_tagOf _ pairs]
      rfl
    rw [ofVariables_concat, h]
    exact last

section Entries

variable {given : List (String × String)} {variants : Table (List String)}
  (h : Collects given variants)

include h

theorem Collects.valuesOf_eq {entry : String × List String} (mem : entry ∈ variants.entries) :
    valuesOf variants entry.1 = entry.2 := by
  rw [valuesOf, h.sorted.get?_eq_some_iff.2 mem]
  rfl

theorem Collects.mem_names_iff {name : String} :
    name ∈ variants.names ↔ ∃ value, (name, value) ∈ given := by
  rw [Table.mem_names_iff]
  constructor
  · intro some_
    obtain ⟨values, found⟩ := Option.isSome_iff_exists.1 some_
    obtain ⟨value, hv⟩ := List.exists_mem_of_ne_nil values fun empty =>
      h.nonempty name (empty ▸ found)
    refine ⟨value, (h.values name value).1 ?_⟩
    rw [valuesOf, found]
    exact hv
  · rintro ⟨value, mem⟩
    have hv := (h.values name value).2 mem
    unfold valuesOf at hv
    cases found : variants.get? name with
    | none =>
      rw [found] at hv
      exact nomatch hv
    | some values => rfl

/-- The choices are the lists of given pairs that have all names in order. -/
theorem Collects.mem_choices_iff {choice : List (String × String)} :
    choice ∈ choices variants.entries ↔
      choice.map (·.1) = variants.names ∧ ∀ p ∈ choice, p ∈ given :=
  PlainSteps.mem_choices_iff fun entry mem value => by rw [← h.valuesOf_eq mem, h.values]

theorem Collects.lookup_choice_iff {choice : List (String × String)}
    (chosen : choice ∈ choices variants.entries) {name value : String} :
    choice.lookup name = some value ↔ (name, value) ∈ choice := by
  refine Table.lookup_eq_some_iff (List.pairwise_map.1 ?_)
  rw [(h.mem_choices_iff.1 chosen).1]
  exact List.pairwise_map.2 h.sorted

/-- A choice has a value for each name for which one is given. -/
theorem Collects.exists_lookup {choice : List (String × String)}
    (chosen : choice ∈ choices variants.entries) {name : String}
    (some_ : ∃ value, (name, value) ∈ given) :
    ∃ value, (name, value) ∈ given ∧ choice.lookup name = some value := by
  obtain ⟨names, pairs⟩ := h.mem_choices_iff.1 chosen
  have mem : name ∈ choice.map (·.1) := names ▸ h.mem_names_iff.2 some_
  obtain ⟨p, hp, rfl⟩ := List.mem_map.1 mem
  exact ⟨p.2, pairs p hp, (h.lookup_choice_iff chosen).2 hp⟩

theorem Collects.lookup_eq_none {choice : List (String × String)}
    (chosen : choice ∈ choices variants.entries) {name : String}
    (none_ : ∀ value, (name, value) ∉ given) : choice.lookup name = none := by
  refine Option.eq_none_iff_forall_ne_some.2 fun value found => none_ value ?_
  exact (h.mem_choices_iff.1 chosen).2 _ ((h.lookup_choice_iff chosen).1 found)

/-- Every value that is given is chosen. -/
theorem Collects.exists_choice {name value : String} (mem : (name, value) ∈ given) :
    ∃ choice ∈ choices variants.entries, choice.lookup name = some value := by
  have each : ∀ n ∈ variants.names, ∃ v, (n, v) ∈ given ∧ (n = name → v = value) := by
    intro n hn
    by_cases same : n = name
    · subst same
      exact ⟨value, mem, fun _ => rfl⟩
    · obtain ⟨v, hv⟩ := h.mem_names_iff.1 hn
      exact ⟨v, hv, fun eq => absurd eq same⟩
  choose! pick own same using each
  have here : name ∈ variants.names := h.mem_names_iff.2 ⟨value, mem⟩
  let choice := variants.names.map fun n => (n, pick n)
  have chosen : choice ∈ choices variants.entries := by
    refine h.mem_choices_iff.2 ⟨by simp [choice, Function.comp_def], fun p hp => ?_⟩
    obtain ⟨n, hn, rfl⟩ := List.mem_map.1 hp
    exact own n hn
  refine ⟨choice, chosen, (h.lookup_choice_iff chosen).2 ?_⟩
  rw [← same name here rfl]
  exact List.mem_map_of_mem here

end Entries

/-- The environments of the splits are that of the configuration with each choice over it. -/
theorem RunConfig.map_env_splits (c : RunConfig) :
    c.splits.map (·.2.env) =
      (choices c.variants.entries).map fun choice => (c.addEnv choice).env := by
  unfold splits
  cases c.variants.entries with
  | nil => rfl
  | cons entry rest => exact List.map_map

theorem RunConfig.exists_choice_of_mem_splits {c : RunConfig} {split : String × RunConfig}
    (mem : split ∈ c.splits) :
    ∃ choice ∈ choices c.variants.entries, split.2.env = (c.addEnv choice).env := by
  have env := List.mem_map_of_mem (f := (·.2.env)) mem
  rw [c.map_env_splits] at env
  obtain ⟨choice, chosen, same⟩ := List.mem_map.1 env
  exact ⟨choice, chosen, same.symm⟩

theorem RunConfig.exists_mem_splits_of_choice {c : RunConfig} {choice : List (String × String)}
    (chosen : choice ∈ choices c.variants.entries) :
    ∃ split ∈ c.splits, split.2.env = (c.addEnv choice).env := by
  refine List.mem_map.1 ?_
  rw [c.map_env_splits]
  exact List.mem_map_of_mem chosen

/-- Under a choice, a name has the value that is chosen for it, or else that of the environment. -/
theorem Collects.get?_addEnv_choice {given : List (String × String)} {c : RunConfig}
    (h : Collects given c.variants) {choice : List (String × String)}
    (chosen : choice ∈ choices c.variants.entries) (name : String) :
    (c.addEnv choice).env.get? name = (choice.lookup name).or (c.env.get? name) := by
  have names : choice.Pairwise fun p q => p.1 ≠ q.1 := by
    refine List.pairwise_map.1 ?_
    rw [(h.mem_choices_iff.1 chosen).1]
    exact (List.pairwise_map.2 h.sorted).imp ne_of_lt
  rw [get?_addEnv, lookup_reverse names]

/-- Without variants, variables make one split, which is the configuration. With variants there is
one split for each list of given pairs that has all their names in order, once each; the splits are
in the lexicographic order in which the pairs are given first, and no two have the same tag. -/
theorem RunConfig.splits_ofVariables {vars : List (String × String)} {c : RunConfig}
    (h : ofVariables vars = .ok c) :
    (givenVariants vars = [] → c.splits = [(defaultTag, c)]) ∧
    (givenVariants vars ≠ [] → ∃ (names : List String) (chosen : List (List (String × String))),
      names.Pairwise (· < ·) ∧
      (∀ name, name ∈ names ↔ ∃ value, (name, value) ∈ givenVariants vars) ∧
      (∀ choice, choice ∈ chosen ↔
        choice.map (·.1) = names ∧ ∀ p ∈ choice, p ∈ givenVariants vars) ∧
      chosen.Pairwise (List.Lex fun p q =>
        (givenVariants vars).idxOf p < (givenVariants vars).idxOf q) ∧
      List.Forall₂ (IsSplit vars c) chosen c.splits ∧ (c.splits.map (·.1)).Nodup) := by
  have collects := collects_ofVariables h
  have pairs := isPair_of_mem_givenVariants vars
  generalize givenVariants vars = given at collects pairs ⊢
  constructor
  · rintro rfl
    have empty : c.variants.entries = [] := by
      refine List.eq_nil_iff_forall_not_mem.2 fun entry mem => ?_
      obtain ⟨value, hv⟩ := collects.mem_names_iff.1 (List.mem_map_of_mem (f := (·.1)) mem)
      exact List.not_mem_nil hv
    rw [splits, empty]
    rfl
  · intro some_
    have filled : c.variants.entries.isEmpty = false := by
      obtain ⟨p, hp⟩ := List.exists_mem_of_ne_nil given some_
      have mem := collects.mem_names_iff.2 ⟨p.2, hp⟩
      cases entries : c.variants.entries with
      | nil =>
        rw [Table.names, entries] at mem
        exact nomatch mem
      | cons entry rest => rfl
    have values : ∀ entry ∈ c.variants.entries, ∀ value,
        value ∈ entry.2 ↔ (entry.1, value) ∈ given := fun entry mem value => by
      rw [← collects.valuesOf_eq mem, collects.values]
    have order : ∀ entry ∈ c.variants.entries, entry.2.Pairwise fun v w =>
        given.idxOf (entry.1, v) < given.idxOf (entry.1, w) := fun entry mem => by
      have own := collects.order entry.1
      rwa [collects.valuesOf_eq mem] at own
    have sorted : (c.variants.entries.map (·.1)).Pairwise (· < ·) :=
      List.pairwise_map.2 collects.sorted
    have each : ∀ choice ∈ choices c.variants.entries,
        IsSplit vars c choice (tagOf choice, c.choose choice) := fun choice mem => by
      obtain ⟨names, hpairs⟩ := (mem_choices_iff values).1 mem
      refine isSplit_choose h (fun p hp => pairs p (hpairs p hp)) ?_
      rw [← names] at sorted
      exact (List.pairwise_map.1 sorted).imp fun lt => ne_of_lt lt
    have lex := choices_pairwise (fun p q => given.idxOf p < given.idxOf q) order
    have made : c.splits = (choices c.variants.entries).map fun choice =>
        (tagOf choice, c.choose choice) := by
      rw [splits, filled]
      rfl
    refine ⟨_, _, sorted, fun name => collects.mem_names_iff, fun choice => mem_choices_iff values,
      lex, ?_, ?_⟩
    · rw [made]
      exact List.forall₂_map_right_iff.2 (List.forall₂_same.2 each)
    · rw [made, List.map_map]
      have once : (choices c.variants.entries).Nodup := lex.imp fun {x y} before =>
        (before.imp (fun p q lt same => by simp [same] at lt) x y).to_ne
      refine once.map_on fun x hx y hy same => ?_
      have tags : tagOf x = tagOf y := same
      have read := (each x hx).tag "HAIBUN_ENV"
      rw [show (tagOf x, c.choose x).1 = tagOf y from tags, (each y hy).tag] at read
      exact (Except.ok.inj read).symm

/-- Variables that give two values to each of two names, one of them twice. -/
def pairedVariables : List (String × String) :=
  [("HAIBUN_ENV", "site=here, a = 0"), ("HAIBUN_ENVC", "b=x,a=1,a=2, b = y=z ,,a=1,a=")]

/-- The configuration that they make. -/
def pairedConfig : RunConfig :=
  { RunConfig.initial with
    env := ⟨[("a", "0"), ("site", "here")]⟩
    variants := ⟨[("a", ["1", "2", ""]), ("b", ["x", "y=z"])]⟩ }

/-- Its splits have different tags, each of which makes the environment of its split. -/
theorem splits_pairedConfig : ofVariables pairedVariables = .ok pairedConfig ∧
    pairedConfig.splits.map (·.1) =
      ["a=1,b=x", "a=1,b=y=z", "a=2,b=x", "a=2,b=y=z", "a=,b=x", "a=,b=y=z"] ∧
    (pairedConfig.splits.map (·.1)).Nodup ∧
    ∀ split ∈ pairedConfig.splits,
      ofVariables (pairedVariables ++ [("HAIBUN_ENV", split.1)]) =
        .ok { pairedConfig with env := split.2.env } := by
  have made : ofVariables pairedVariables = .ok pairedConfig := by decide +kernel
  obtain ⟨names, chosen, -, -, -, -, each, once⟩ :=
    (RunConfig.splits_ofVariables made).2 (by decide +kernel)
  refine ⟨made, by decide +kernel, once, fun split mem => ?_⟩
  obtain ⟨i, hi, rfl⟩ := List.getElem_of_mem mem
  exact (List.forall₂_iff_get.1 each).2 i (by rw [each.length_eq]; exact hi) hi |>.again

end PlainSteps
