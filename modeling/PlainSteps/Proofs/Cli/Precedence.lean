import PlainSteps.Cli.Settings
import PlainSteps.Proofs.Config.Splits

/-!
# Arguments over variables

The values that arguments give for the environment are put over those that variables give for it,
the last for each name over the others. The variants that variables give are put over both when the
configuration is split: an argument has effect in all splits only for names that have no other
variant.

* `IsLastValue`: the last value that pairs have for a name.
* `Settings.addEnvLists_eq`, `Settings.override_eq_ok`: arguments add all their pairs to the
  environment, and leave the variants as they are.
* `Settings.override_splits`: what the splits have for a name that an argument gives.

Proof-only: no module that runs imports this one.
-/

namespace PlainSteps.Cli

/-- The last value that pairs have for a name. -/
def IsLastValue (pairs : List (String × String)) (name value : String) : Prop :=
  ∃ before after, pairs = before ++ (name, value) :: after ∧ ∀ p ∈ after, p.1 ≠ name

theorem isLastValue_iff {pairs : List (String × String)} {name value : String} :
    IsLastValue pairs name value ↔ pairs.reverse.lookup name = some value := by
  rw [List.lookup_eq_some_iff]
  constructor
  · rintro ⟨before, after, rfl, last⟩
    refine ⟨after.reverse, before.reverse, by simp, fun p hp => bne_iff_ne.2 ?_⟩
    exact (last p (List.mem_reverse.1 hp)).symm
  · rintro ⟨after, before, same, last⟩
    refine ⟨before.reverse, after.reverse, ?_, fun p hp => ?_⟩
    · rw [← List.reverse_reverse pairs, same]
      simp
    · exact (bne_iff_ne.1 (last p (List.mem_reverse.1 hp))).symm

namespace Settings

theorem addEnvLists_eq (c : RunConfig) (lists : List String) :
    addEnvLists c lists =
      (lists.mapM (readPairs "--env")).map fun pairs => c.addEnv pairs.flatten := by
  induction lists generalizing c with
  | nil => rfl
  | cons list rest ih =>
    rw [addEnvLists, List.foldlM_cons, List.mapM_cons]
    cases readPairs "--env" list with
    | error e => rfl
    | ok own =>
      show addEnvLists (c.addEnv own) rest = _
      rw [ih]
      cases rest.mapM (readPairs "--env") with
      | error e => rfl
      | ok more =>
        show Except.ok ((c.addEnv own).addEnv more.flatten) =
          Except.ok (c.addEnv (own :: more).flatten)
        simp [RunConfig.addEnv, List.foldl_append]

theorem ofVariables_run {vars : List (String × String)} {s : Settings}
    (h : Settings.ofVariables vars = .ok s) : RunConfig.ofVariables vars = .ok s.run := by
  obtain ⟨level, -, h⟩ := ok_of_bind h
  obtain ⟨run, made, h⟩ := ok_of_bind h
  cases h
  exact ok_of_mapError made

/-- Arguments add all their pairs to the environment, and leave the variants as they are. -/
theorem override_eq_ok {s s' : Settings} {a : Arguments} (h : s.override a = .ok s') :
    ∃ lists, a.env.mapM (readPairs "--env") = .ok lists ∧
      s'.run.env = (s.run.addEnv lists.flatten).env ∧ s'.run.variants = s.run.variants := by
  obtain ⟨run, added, h⟩ := ok_of_bind h
  have added := ok_of_mapError added
  rw [addEnvLists_eq] at added
  obtain ⟨lists, read, rfl⟩ := ok_of_map added
  cases h
  exact ⟨lists, read, rfl, rfl⟩

/-- All splits have the last value that the arguments give for a name if variables give no variant
of it but this value. Otherwise each split has one of its variants, and each variant is in one. -/
theorem override_splits {vars : List (String × String)} {s s' : Settings} {a : Arguments}
    (made : Settings.ofVariables vars = .ok s) (applied : s.override a = .ok s') :
    ∃ lists, a.env.mapM (readPairs "--env") = .ok lists ∧
      ∀ name value, IsLastValue lists.flatten name value →
        ((∀ other, (name, other) ∉ givenVariants vars) →
          ∀ split ∈ s'.run.splits, split.2.env.get? name = some value) ∧
        ((∃ other, (name, other) ∈ givenVariants vars) →
          ∀ split ∈ s'.run.splits, ∃ other,
            (name, other) ∈ givenVariants vars ∧ split.2.env.get? name = some other) ∧
        (∀ other, (name, other) ∈ givenVariants vars →
          ∃ split ∈ s'.run.splits, split.2.env.get? name = some other) ∧
        ((∀ split ∈ s'.run.splits, split.2.env.get? name = some value) ↔
          ∀ other, (name, other) ∈ givenVariants vars → other = value) := by
  obtain ⟨lists, read, env, variants⟩ := override_eq_ok applied
  have collects : Collects (givenVariants vars) s'.run.variants := by
    rw [variants]
    exact collects_ofVariables (ofVariables_run made)
  refine ⟨lists, read, fun name value last => ?_⟩
  have own : s'.run.env.get? name = some value := by
    rw [env, get?_addEnv, isLastValue_iff.1 last, Option.some_or]
  have without : (∀ other, (name, other) ∉ givenVariants vars) →
      ∀ split ∈ s'.run.splits, split.2.env.get? name = some value := by
    intro none_ split hs
    obtain ⟨choice, chosen, envs⟩ := RunConfig.exists_choice_of_mem_splits hs
    rw [envs, collects.get?_addEnv_choice chosen, collects.lookup_eq_none chosen none_, own,
      Option.none_or]
  have within : (∃ other, (name, other) ∈ givenVariants vars) →
      ∀ split ∈ s'.run.splits, ∃ other,
        (name, other) ∈ givenVariants vars ∧ split.2.env.get? name = some other := by
    intro some_ split hs
    obtain ⟨choice, chosen, envs⟩ := RunConfig.exists_choice_of_mem_splits hs
    obtain ⟨other, mem, found⟩ := collects.exists_lookup chosen some_
    exact ⟨other, mem, by rw [envs, collects.get?_addEnv_choice chosen, found, Option.some_or]⟩
  have every : ∀ other, (name, other) ∈ givenVariants vars →
      ∃ split ∈ s'.run.splits, split.2.env.get? name = some other := by
    intro other mem
    obtain ⟨choice, chosen, found⟩ := collects.exists_choice mem
    obtain ⟨split, hs, envs⟩ := RunConfig.exists_mem_splits_of_choice chosen
    exact ⟨split, hs, by rw [envs, collects.get?_addEnv_choice chosen, found, Option.some_or]⟩
  refine ⟨without, within, every, fun all other mem => ?_, fun only => ?_⟩
  · obtain ⟨split, hs, found⟩ := every other mem
    exact Option.some.inj (found.symm.trans (all split hs))
  · by_cases some_ : ∃ other, (name, other) ∈ givenVariants vars
    · intro split hs
      obtain ⟨other, mem, found⟩ := within some_ split hs
      rw [found, only other mem]
    · exact without (not_exists.1 some_)

/-- Variables that give a value for one name and two variants for another. -/
def languageVariables : List (String × String) :=
  [("HAIBUN_ENV", "site=here"), ("HAIBUN_ENVC", "lang=en,lang=fr")]

/-- The settings that they make. -/
def languageSettings : Settings where
  logLevel := .info
  run := { RunConfig.initial with
    env := ⟨[("site", "here")]⟩
    variants := ⟨[("lang", ["en", "fr"])]⟩ }

/-- Arguments with two lists of values. -/
def languageArguments : Arguments where
  features := "features"
  env := ["site=there, user=a", "user=b,lang=de"]

/-- The settings with the arguments over them. -/
def languageOverridden : Settings where
  logLevel := .info
  run := { RunConfig.initial with
    env := ⟨[("lang", "de"), ("site", "there"), ("user", "b")]⟩
    variants := ⟨[("lang", ["en", "fr"])]⟩ }

theorem languageOverridden_eq :
    Settings.ofVariables languageVariables = .ok languageSettings ∧
      languageSettings.override languageArguments = .ok languageOverridden ∧
      languageArguments.env.mapM (readPairs "--env") =
        .ok [[("site", "there"), ("user", "a")], [("user", "b"), ("lang", "de")]] ∧
      givenVariants languageVariables = [("lang", "en"), ("lang", "fr")] := by
  refine ⟨?_, ?_, ?_, ?_⟩ <;> decide +kernel

/-- Each split has the last values for the user and for the site, and its own language. -/
theorem override_splits_language :
    languageSettings.override languageArguments = .ok languageOverridden ∧
      (∀ split ∈ languageOverridden.run.splits, split.2.env.get? "user" = some "b") ∧
      (∃ split ∈ languageOverridden.run.splits, split.2.env.get? "lang" = some "fr") ∧
      ¬ ∀ split ∈ languageOverridden.run.splits, split.2.env.get? "lang" = some "de" := by
  obtain ⟨made, applied, read, given⟩ := languageOverridden_eq
  obtain ⟨lists, read', each⟩ := override_splits made applied
  obtain rfl := Except.ok.inj (read.symm.trans read')
  rw [given] at each
  have user : IsLastValue [("site", "there"), ("user", "a"), ("user", "b"), ("lang", "de")]
      "user" "b" := isLastValue_iff.2 (by decide)
  have lang : IsLastValue [("site", "there"), ("user", "a"), ("user", "b"), ("lang", "de")]
      "lang" "de" := isLastValue_iff.2 (by decide)
  obtain ⟨without, -, -, -⟩ := each "user" "b" user
  obtain ⟨-, -, every, only⟩ := each "lang" "de" lang
  refine ⟨applied, without (by simp), every "fr" (by simp), fun all => ?_⟩
  exact absurd (only.1 all "en" (by simp)) (by decide)

/-- A variable that gives a variant for a name. -/
def siteVariables : List (String × String) := [("HAIBUN_ENVC", "site=variant")]

/-- The settings that it makes. -/
def siteSettings : Settings where
  logLevel := .info
  run := { RunConfig.initial with variants := ⟨[("site", ["variant"])]⟩ }

/-- Arguments that give a value for it. -/
def siteArguments : Arguments where
  features := "features"
  env := ["site=flag"]

/-- The settings with the arguments over them. -/
def siteOverridden : Settings where
  logLevel := .info
  run := { siteSettings.run with env := ⟨[("site", "flag")]⟩ }

/-- Not every argument has effect in all splits. -/
theorem not_all_arguments_precede :
    ¬ ∀ (vars : List (String × String)) (s s' : Settings) (a : Arguments)
      (lists : List (List (String × String))),
      Settings.ofVariables vars = .ok s → s.override a = .ok s' →
        a.env.mapM (readPairs "--env") = .ok lists →
          ∀ name value, IsLastValue lists.flatten name value →
            ∀ split ∈ s'.run.splits, split.2.env.get? name = some value := by
  intro precede
  have made : Settings.ofVariables siteVariables = .ok siteSettings := by decide +kernel
  have applied : siteSettings.override siteArguments = .ok siteOverridden := by decide +kernel
  have read : siteArguments.env.mapM (readPairs "--env") = .ok [[("site", "flag")]] := by
    decide +kernel
  have all := precede _ _ _ _ _ made applied read "site" "flag" (isLastValue_iff.2 (by decide))
  have only : siteOverridden.run.splits.map (·.2.env.get? "site") = [some "variant"] := by
    decide +kernel
  obtain ⟨split, hs, other⟩ := List.mem_map.1 (only ▸ List.mem_singleton_self _)
  exact absurd ((all split hs).symm.trans other) (by decide)

end Settings

end PlainSteps.Cli
