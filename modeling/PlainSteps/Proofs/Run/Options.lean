import Mathlib.Data.List.Induction
import Mathlib.Data.List.Nodup
import PlainSteps.Run.Basic

/-!
# Options of steppers

The options of all steppers are kept in one table, under keys that are made of the name of a stepper
and the name of an option with an underscore between them. Names may have underscores of their own,
so that options of two steppers can have one key. The default of the one is then a value for the
other.

* `DeclaredOption`: an option and the name of its stepper; `DeclaredOption.key`.
* `DeclaredOption.key_eq_iff`: which options have one key.
* `firstDefault`: the default that a key has after the defaults of all options are filled in.
* `IsFilled`: a configuration with the defaults of options; `IsFilled.concat_idle` and
  `IsFilled.concat_default` for one more option.
* `Run.withDeclared_cases`, `Run.fills_or_fails`: the defaults of options are filled in in turn, up
  to the first option that is missing.
* `NamesApart`: steppers have different names, and so do the options of each.
* `Run.effectiveConfig_options`: what becomes of the options of such steppers, and where each option
  has a value of its own.
* `Run.not_all_options_own`: a stepper that has the value of an option from another stepper.

Proof-only: no module that runs imports this one.
-/

namespace PlainSteps

variable {σ : Type}

/-! ## Keys -/

/-- A name as options compare it: in upper case, with underscores for hyphens. -/
def RunConfig.folded (name : String) : List Char :=
  (Text.upperText name).toList.map fun c => if c = '-' then '_' else c

open RunConfig (folded)

theorem RunConfig.toList_optionKey (stepper name : String) :
    (optionKey stepper name).toList = folded stepper ++ '_' :: folded name := by
  have underscore : Text.upper '_' = ['_'] := by decide
  simp [optionKey, folded, Text.upperText, underscore]

theorem append_cons_inj_iff {α : Type} {mark : α} {a b a' b' : List α} :
    a ++ mark :: b = a' ++ mark :: b' ↔ (a = a' ∧ b = b') ∨
      (∃ middle, a' = a ++ mark :: middle ∧ b = middle ++ mark :: b') ∨
      ∃ middle, a = a' ++ mark :: middle ∧ b' = middle ++ mark :: b := by
  rw [List.append_eq_append_iff]
  constructor
  · rintro (⟨_ | ⟨c, middle⟩, rfl, same⟩ | ⟨_ | ⟨c, middle⟩, rfl, same⟩)
    · exact .inl ⟨(List.append_nil a).symm, (List.cons.inj same).2⟩
    · obtain ⟨rfl, rfl⟩ := List.cons.inj same
      exact .inr (.inl ⟨middle, rfl, rfl⟩)
    · exact .inl ⟨List.append_nil a', (List.cons.inj same).2.symm⟩
    · obtain ⟨rfl, rfl⟩ := List.cons.inj same
      exact .inr (.inr ⟨middle, rfl, rfl⟩)
  · rintro (⟨rfl, rfl⟩ | ⟨middle, rfl, rfl⟩ | ⟨middle, rfl, rfl⟩)
    · exact .inl ⟨[], (List.append_nil a).symm, rfl⟩
    · exact .inl ⟨mark :: middle, rfl, rfl⟩
    · exact .inr ⟨mark :: middle, rfl, rfl⟩

/-- An option that a stepper declares. -/
structure DeclaredOption where
  stepper : String
  option : StepperOption
  deriving DecidableEq, Repr

/-- The options that steppers declare, in order. -/
def Run.declaredOptions (steppers : List (Stepper σ)) : List DeclaredOption :=
  steppers.flatMap fun s => s.options.map (⟨s.name, ·⟩)

namespace DeclaredOption

/-- The key of an option. -/
def key (o : DeclaredOption) : String := RunConfig.optionKey o.stepper o.option.name

/-- The value that a configuration has for an option. -/
def valueIn? (o : DeclaredOption) (config : RunConfig) : Option String :=
  config.option o.stepper o.option.name

/-- The name of the stepper of `p` continues that of the stepper of `o`, by an underscore and by
what the name of `o` starts with before an underscore and the name of `p`. -/
def Precedes (o p : DeclaredOption) : Prop :=
  ∃ middle, folded p.stepper = folded o.stepper ++ '_' :: middle ∧
    folded o.option.name = middle ++ '_' :: folded p.option.name

/-- Two options have one key where their names are the same, or where the names of the steppers and
of the options are the same only when they are put together. -/
theorem key_eq_iff {o p : DeclaredOption} : o.key = p.key ↔
    (folded o.stepper = folded p.stepper ∧ folded o.option.name = folded p.option.name) ∨
      o.Precedes p ∨ p.Precedes o := by
  rw [key, key, ← String.toList_inj, RunConfig.toList_optionKey, RunConfig.toList_optionKey,
    append_cons_inj_iff]
  rfl

end DeclaredOption

/-! ## Defaults -/

/-- The first default that is declared for a key. -/
def firstDefault (declared : List DeclaredOption) (key : String) : Option String :=
  declared.findSome? fun o => if o.key = key then o.option.default else none

theorem firstDefault_append (before after : List DeclaredOption) (key : String) :
    firstDefault (before ++ after) key =
      (firstDefault before key).or (firstDefault after key) := List.findSome?_append

theorem firstDefault_singleton (o : DeclaredOption) (key : String) :
    firstDefault [o] key = if o.key = key then o.option.default else none := by
  simp [firstDefault]

/-- A configuration is another with defaults for keys under which that has no value. -/
structure IsFilled (config : RunConfig) (declared : List DeclaredOption) (filled : RunConfig) :
    Prop where
  others : filled = { config with options := filled.options }
  options (key : String) : filled.options.get? key =
    (config.options.get? key).or (firstDefault declared key)

namespace IsFilled

variable {config c : RunConfig} {before : List DeclaredOption} (filled : IsFilled config before c)

include filled

theorem valueIn?_eq (o : DeclaredOption) :
    o.valueIn? c = (o.valueIn? config).or (firstDefault before o.key) := filled.options o.key

/-- One more option is declared. -/
theorem concat_of_get? {o : DeclaredOption} {c' : RunConfig}
    (others : c' = { c with options := c'.options })
    (options : ∀ key, c'.options.get? key =
      (c.options.get? key).or (if o.key = key then o.option.default else none)) :
    IsFilled config (before ++ [o]) c' where
  others := by
    rw [others, filled.others]
  options key := by
    rw [options, filled.options, firstDefault_append, firstDefault_singleton, Option.or_assoc]

/-- An option that is set or has no default leaves what is found under every key. -/
theorem concat_idle {o : DeclaredOption} (idle : o.valueIn? c = none → o.option.default = none) :
    IsFilled config (before ++ [o]) c := by
  refine filled.concat_of_get? rfl fun key => ?_
  split
  · next own =>
    subst own
    show o.valueIn? c = (o.valueIn? c).or o.option.default
    cases held : o.valueIn? c with
    | some v => rfl
    | none => rw [idle held, Option.none_or]
  · rw [Option.or_none]

/-- An option that is not set gets its default. -/
theorem concat_default {o : DeclaredOption} {v : String} (unset : o.valueIn? c = none)
    (default : o.option.default = some v) :
    IsFilled config (before ++ [o]) (c.setOption o.stepper o.option.name v) := by
  refine filled.concat_of_get? rfl fun key => ?_
  show (c.options.insert o.key v).get? key = _
  rw [Table.get?_insert, default]
  by_cases own : key = o.key
  · rw [if_pos own, if_pos own.symm, own]
    exact congrArg (Option.or · (some v)) unset.symm
  · rw [if_neg own, if_neg (Ne.symm own), Option.or_none]

end IsFilled

/-- An option is required and has no default, the configuration has no value for it, and none of
those declared before it has a default for its key. -/
structure DeclaredOption.IsMissing (config : RunConfig) (before : List DeclaredOption)
    (o : DeclaredOption) : Prop where
  required : o.option.required = true
  noDefault : o.option.default = none
  unset : o.valueIn? config = none
  unfilled : firstDefault before o.key = none

/-- No option is missing where its turn comes. -/
def NoneMissing (config : RunConfig) (declared : List DeclaredOption) : Prop :=
  ∀ before o after, declared = before ++ o :: after → ¬ o.IsMissing config before

theorem NoneMissing.concat {config : RunConfig} {declared : List DeclaredOption}
    {o : DeclaredOption} (h : NoneMissing config declared) (last : ¬ o.IsMissing config declared) :
    NoneMissing config (declared ++ [o]) := by
  intro before p after same
  rcases List.eq_nil_or_concat after with rfl | ⟨rest, q, rfl⟩
  · obtain ⟨rfl, rfl⟩ := List.append_singleton_inj.1 same
    exact last
  · rw [List.concat_eq_append, ← List.cons_append, ← List.append_assoc] at same
    exact h before p rest (List.append_singleton_inj.1 same).1

namespace Run

/-- The configuration with the default of a declared option that is not set. -/
def withDeclared (config : RunConfig) (o : DeclaredOption) : Except StageFailure RunConfig :=
  withOption o.stepper config o.option

/-- The failure of the stage for an option that is missing. -/
def missingOption (o : DeclaredOption) : StageFailure :=
  ⟨.requiredOptions, requiredOptionMessage o.stepper o.option.name⟩

theorem withDeclared_eq (c : RunConfig) (o : DeclaredOption) : withDeclared c o =
    if (o.valueIn? c).isSome then .ok c
    else match o.option.default with
      | some v => .ok (c.setOption o.stepper o.option.name v)
      | none => if o.option.required then .error (missingOption o) else .ok c := rfl

theorem effectiveConfig_eq (steppers : List (Stepper σ)) (config : RunConfig) :
    effectiveConfig steppers config = (declaredOptions steppers).foldlM withDeclared config := by
  induction steppers generalizing config with
  | nil => rfl
  | cons s rest ih =>
    have own : (s.options.map (⟨s.name, ·⟩)).foldlM withDeclared config =
        s.options.foldlM (withOption s.name) config := List.foldlM_map
    rw [declaredOptions, List.flatMap_cons, List.foldlM_append, own, effectiveConfig,
      List.foldlM_cons]
    exact congrArg (s.options.foldlM (withOption s.name) config >>= ·) (funext ih)

/-- One option is filled in after those declared before it, or is missing. -/
theorem withDeclared_cases {config c : RunConfig} {before : List DeclaredOption}
    (filled : IsFilled config before c) (o : DeclaredOption) :
    (∃ c', withDeclared c o = .ok c' ∧ IsFilled config (before ++ [o]) c' ∧
        ¬ o.IsMissing config before) ∨
      o.IsMissing config before ∧ withDeclared c o = .error (missingOption o) := by
  rw [withDeclared_eq]
  have value := filled.valueIn?_eq o
  cases held : o.valueIn? c with
  | some v =>
    have same : IsFilled config (before ++ [o]) c :=
      filled.concat_idle fun unset => nomatch held.symm.trans unset
    refine .inl ⟨c, rfl, same, fun missing => ?_⟩
    rw [held, missing.unset, missing.unfilled] at value
    cases value
  | none =>
    obtain ⟨unset, unfilled⟩ := Option.or_eq_none_iff.1 (value.symm.trans held)
    cases default : o.option.default with
    | some v =>
      refine .inl ⟨_, rfl, filled.concat_default held default, fun missing => ?_⟩
      cases default.symm.trans missing.noDefault
    | none =>
      cases required : o.option.required with
      | true => exact .inr ⟨⟨required, default, unset, unfilled⟩, rfl⟩
      | false =>
        refine .inl ⟨c, rfl, filled.concat_idle fun _ => default, fun missing => ?_⟩
        cases required.symm.trans missing.required

/-- The defaults of options are filled in in turn, up to the first option that is missing. -/
theorem fills_or_fails (config : RunConfig) (declared : List DeclaredOption) :
    (∃ c', declared.foldlM withDeclared config = .ok c' ∧ IsFilled config declared c' ∧
        NoneMissing config declared) ∨
      ∃ before o after, declared = before ++ o :: after ∧ o.IsMissing config before ∧
        NoneMissing config before ∧
        declared.foldlM withDeclared config = .error (missingOption o) := by
  induction declared using List.reverseRecOn with
  | nil =>
    refine .inl ⟨config, rfl, ⟨rfl, fun key => (Option.or_none).symm⟩, ?_⟩
    intro before o after same
    simp at same
  | append_singleton before o ih =>
    rw [List.foldlM_append]
    rcases ih with ⟨c, ran, filled, fine⟩ | ⟨front, p, rest, rfl, missing, fine, ran⟩
    · rw [ran]
      rcases withDeclared_cases filled o with ⟨c', ran', filled', present⟩ | ⟨missing, ran'⟩
      · exact .inl ⟨c', by simp [bind, Except.bind, pure, Except.pure, ran'], filled',
          fine.concat present⟩
      · exact .inr ⟨before, o, [], rfl, missing, fine, by simp [bind, Except.bind, ran']⟩
    · refine .inr ⟨front, p, rest ++ [o], by simp, missing, fine, ?_⟩
      rw [ran]
      rfl

end Run

/-! ## Options with different names -/

/-- Steppers have different names, and so do the options of each stepper. -/
structure NamesApart (steppers : List (Stepper σ)) : Prop where
  names : (steppers.map fun s => folded s.name).Nodup
  options (s : Stepper σ) (h : s ∈ steppers) : (s.options.map fun o => folded o.name).Nodup

/-- An option is required, has no default and is not set. -/
structure DeclaredOption.IsUnset (config : RunConfig) (o : DeclaredOption) : Prop where
  required : o.option.required = true
  noDefault : o.option.default = none
  unset : o.valueIn? config = none

/-- Each option has the value that is set for it, or else its own default, or else none. -/
structure OwnOptions (declared : List DeclaredOption) (config : RunConfig)
    (outcome : Except StageFailure RunConfig) : Prop where
  fails : (∃ failure, outcome = .error failure) ↔ ∃ o ∈ declared, o.IsUnset config
  stage (failure : StageFailure) (h : outcome = .error failure) : failure.stage = .requiredOptions
  values (filled : RunConfig) (h : outcome = .ok filled) (o : DeclaredOption) (mem : o ∈ declared) :
    o.valueIn? filled = (o.valueIn? config).or o.option.default
  kept (filled : RunConfig) (h : outcome = .ok filled) (key value : String)
    (set : config.options.get? key = some value) : filled.options.get? key = some value

/-- No other option has the name of this one when both are put together with those of their
steppers. -/
def DeclaredOption.IsLone (declared : List DeclaredOption) (o : DeclaredOption) : Prop :=
  ∀ p ∈ declared, ¬ o.Precedes p ∧ ¬ p.Precedes o

theorem DeclaredOption.not_precedes_self (o : DeclaredOption) : ¬ o.Precedes o := by
  rintro ⟨middle, same, -⟩
  exact List.cons_ne_nil _ _ (List.self_eq_append_right.1 same)

/-- Options with different keys are lone. -/
theorem DeclaredOption.isLone_of_nodup {declared : List DeclaredOption}
    (h : (declared.map key).Nodup) {o : DeclaredOption} (mem : o ∈ declared) :
    o.IsLone declared := by
  intro p hp
  have same : ¬ (o.Precedes p ∨ p.Precedes o) := by
    intro clash
    obtain rfl := List.inj_on_of_nodup_map h mem hp (key_eq_iff.2 (.inr clash))
    exact clash.elim o.not_precedes_self o.not_precedes_self
  exact not_or.1 same

theorem firstDefault_eq_none {declared : List DeclaredOption} {key : String}
    (h : ∀ p ∈ declared, p.key = key → p.option.default = none) :
    firstDefault declared key = none :=
  List.findSome?_eq_none_iff.2 fun p mem => ite_eq_right_iff.2 (h p mem)

theorem firstDefault_of_mem {declared : List DeclaredOption} {o : DeclaredOption}
    (mem : o ∈ declared) (own : ∀ p ∈ declared, p.key = o.key → p = o) :
    firstDefault declared o.key = o.option.default := by
  cases found : firstDefault declared o.key with
  | none =>
    have none := List.findSome?_eq_none_iff.1 found o mem
    rw [if_pos rfl] at none
    exact none.symm
  | some v =>
    obtain ⟨p, hp, h⟩ := List.exists_of_findSome?_eq_some found
    split at h
    · next same =>
      rw [own p hp same] at h
      exact h.symm
    · cases h

namespace NamesApart

variable {steppers : List (Stepper σ)}

theorem key_eq_iff (apart : NamesApart steppers) {o p : DeclaredOption}
    (ho : o ∈ Run.declaredOptions steppers) (hp : p ∈ Run.declaredOptions steppers) :
    o.key = p.key ↔ o = p ∨ o.Precedes p ∨ p.Precedes o := by
  rw [DeclaredOption.key_eq_iff]
  refine or_congr_left ⟨fun ⟨stepper, option⟩ => ?_, fun same => same ▸ ⟨rfl, rfl⟩⟩
  obtain ⟨s, hs, ho⟩ := List.mem_flatMap.1 ho
  obtain ⟨s', hs', hp⟩ := List.mem_flatMap.1 hp
  obtain ⟨a, ha, rfl⟩ := List.mem_map.1 ho
  obtain ⟨b, hb, rfl⟩ := List.mem_map.1 hp
  obtain rfl := List.inj_on_of_nodup_map apart.names hs hs' stepper
  obtain rfl := List.inj_on_of_nodup_map (apart.options s hs) ha hb option
  rfl

/-- A lone option has its key for itself. -/
theorem eq_of_key_eq (apart : NamesApart steppers) {o p : DeclaredOption}
    (ho : o ∈ Run.declaredOptions steppers) (hp : p ∈ Run.declaredOptions steppers)
    (lone : o.IsLone (Run.declaredOptions steppers)) (same : p.key = o.key) : p = o := by
  rcases (apart.key_eq_iff hp ho).1 same with rfl | h | h
  · rfl
  · exact absurd h (lone p hp).2
  · exact absurd h (lone p hp).1

/-- A lone option that is not set has its own default. -/
theorem valueIn?_eq (apart : NamesApart steppers) {config c : RunConfig}
    (filled : IsFilled config (Run.declaredOptions steppers) c) {o : DeclaredOption}
    (mem : o ∈ Run.declaredOptions steppers) (lone : o.IsLone (Run.declaredOptions steppers)) :
    o.valueIn? c = (o.valueIn? config).or o.option.default := by
  rw [filled.valueIn?_eq, firstDefault_of_mem mem fun p hp => apart.eq_of_key_eq mem hp lone]

/-- A lone option that is required and has no default is missing where it is not set. -/
theorem isMissing_of_isUnset (apart : NamesApart steppers) {config : RunConfig}
    {before after : List DeclaredOption} {o : DeclaredOption}
    (split : Run.declaredOptions steppers = before ++ o :: after)
    (lone : o.IsLone (Run.declaredOptions steppers)) (h : o.IsUnset config) :
    o.IsMissing config before := by
  have mem : o ∈ Run.declaredOptions steppers :=
    split ▸ List.mem_append_right _ List.mem_cons_self
  refine ⟨h.required, h.noDefault, h.unset, firstDefault_eq_none fun q hq same => ?_⟩
  have other : q ∈ Run.declaredOptions steppers := split ▸ List.mem_append_left _ hq
  rw [apart.eq_of_key_eq mem other lone same]
  exact h.noDefault

/-- Where all options are lone and none is missing, each has its own value. -/
theorem ownOptions (apart : NamesApart steppers) {config c : RunConfig}
    (filled : IsFilled config (Run.declaredOptions steppers) c)
    (fine : NoneMissing config (Run.declaredOptions steppers))
    (lone : ∀ o ∈ Run.declaredOptions steppers, o.IsLone (Run.declaredOptions steppers)) :
    OwnOptions (Run.declaredOptions steppers) config (.ok c) where
  fails := by
    refine ⟨nofun, ?_⟩
    rintro ⟨o, mem, unset⟩
    obtain ⟨before, after, split⟩ := List.append_of_mem mem
    exact absurd (apart.isMissing_of_isUnset split (lone o mem) unset) (fine before o after split)
  stage := nofun
  values := by
    rintro _ ⟨⟩ o mem
    exact apart.valueIn?_eq filled mem (lone o mem)
  kept := by
    rintro _ ⟨⟩ key value set
    rw [filled.options, set]
    rfl

end NamesApart

/-- Where an option is missing, the stage fails and some option is not set. -/
theorem DeclaredOption.IsMissing.ownOptions {config : RunConfig}
    {declared before : List DeclaredOption} {o : DeclaredOption}
    (missing : o.IsMissing config before) (mem : o ∈ declared) :
    OwnOptions declared config (.error (Run.missingOption o)) where
  fails := ⟨fun _ => ⟨o, mem, missing.required, missing.noDefault, missing.unset⟩,
    fun _ => ⟨_, rfl⟩⟩
  stage := by
    rintro _ ⟨⟩
    rfl
  values := nofun
  kept := nofun

/-- The options of steppers with different names. The stage fails at the first option that is
missing; else what is set stays, and an option that is not set has the first default that is
declared under its key. That is its own where no two names are the same when they are put
together, and the stage then fails just where an option that is required is not set. -/
theorem Run.effectiveConfig_options {steppers : List (Stepper σ)} (apart : NamesApart steppers)
    (config : RunConfig) :
    (∀ failure, effectiveConfig steppers config = .error failure →
      ∃ before o after, declaredOptions steppers = before ++ o :: after ∧
        o.IsMissing config before ∧ NoneMissing config before ∧ failure = missingOption o) ∧
    (∀ filled, effectiveConfig steppers config = .ok filled →
      NoneMissing config (declaredOptions steppers) ∧
        IsFilled config (declaredOptions steppers) filled ∧
        ∀ o ∈ declaredOptions steppers, o.IsLone (declaredOptions steppers) →
          o.valueIn? filled = (o.valueIn? config).or o.option.default) ∧
    ((∀ o ∈ declaredOptions steppers, o.IsLone (declaredOptions steppers)) →
      OwnOptions (declaredOptions steppers) config (effectiveConfig steppers config)) := by
  rw [effectiveConfig_eq]
  rcases fills_or_fails config (declaredOptions steppers) with
    ⟨c, ran, filled, fine⟩ | ⟨before, o, after, split, missing, fine, ran⟩
  · rw [ran]
    refine ⟨nofun, ?_, apart.ownOptions filled fine⟩
    rintro _ ⟨⟩
    exact ⟨fine, filled, fun o mem lone => apart.valueIn?_eq filled mem lone⟩
  · rw [ran]
    have mem : o ∈ declaredOptions steppers := split ▸ List.mem_append_right _ List.mem_cons_self
    refine ⟨?_, nofun, fun _ => missing.ownOptions mem⟩
    rintro _ ⟨⟩
    exact ⟨before, o, after, split, missing, fine, rfl⟩

/-- A stepper that only has options. -/
def optionStepper (name : String) (options : List StepperOption) : Stepper Unit where
  name
  steps := []
  options

/-- A browser that needs an address, and a log. -/
def webSteppers : List (Stepper Unit) :=
  [optionStepper "web" [⟨"url", true, none⟩, ⟨"gap", false, some "30"⟩],
    optionStepper "log" [⟨"gap", false, none⟩]]

/-- With the address, the default of the one stepper is not a value for the other; without it, the
stage fails. -/
theorem Run.effectiveConfig_options_web :
    (∃ filled, effectiveConfig webSteppers (RunConfig.initial.setOption "WEB" "url" "host") =
        .ok filled ∧ filled.option "web" "url" = some "host" ∧
      filled.option "web" "gap" = some "30" ∧ filled.option "log" "gap" = none) ∧
    ∃ failure, effectiveConfig webSteppers .initial = .error failure ∧
      failure.stage = .requiredOptions := by
  have apart : NamesApart webSteppers := ⟨by decide +kernel, by decide +kernel⟩
  have lone (o : DeclaredOption) : o ∈ declaredOptions webSteppers →
      o.IsLone (declaredOptions webSteppers) :=
    DeclaredOption.isLone_of_nodup (by decide +kernel)
  have url : ⟨"web", ⟨"url", true, none⟩⟩ ∈ declaredOptions webSteppers := by decide +kernel
  have gap : ⟨"web", ⟨"gap", false, some "30"⟩⟩ ∈ declaredOptions webSteppers := by
    decide +kernel
  have other : ⟨"log", ⟨"gap", false, none⟩⟩ ∈ declaredOptions webSteppers := by decide +kernel
  constructor
  · have own := (effectiveConfig_options apart
      (RunConfig.initial.setOption "WEB" "url" "host")).2.2 lone
    have passed : (effectiveConfig webSteppers
        (RunConfig.initial.setOption "WEB" "url" "host")).isOk = true := by decide +kernel
    cases ran : effectiveConfig webSteppers (RunConfig.initial.setOption "WEB" "url" "host") with
    | error failure =>
      rw [ran] at passed
      cases passed
    | ok filled =>
      have first := own.values filled ran _ url
      have second := own.values filled ran _ gap
      have third := own.values filled ran _ other
      refine ⟨filled, rfl, first.trans ?_, second.trans ?_, third.trans ?_⟩
      · decide +kernel
      · decide +kernel
      · decide +kernel
  · have own := (effectiveConfig_options apart .initial).2.2 lone
    obtain ⟨failure, failed⟩ := own.fails.2 ⟨_, url, rfl, rfl, by decide +kernel⟩
    exact ⟨failure, failed, own.stage failure failed⟩

/-! ## Names that are the same when they are put together -/

/-- Two steppers with different names, and an option of each. -/
def clashingSteppers : List (Stepper Unit) :=
  [optionStepper "a" [⟨"b_c", false, some "x"⟩], optionStepper "a_b" [⟨"c", true, none⟩]]

/-- The second stepper needs an option that is not set, and has the default of the first one. -/
theorem Run.not_all_options_own : ¬ ∀ (steppers : List (Stepper Unit)) (config : RunConfig),
    NamesApart steppers →
      OwnOptions (declaredOptions steppers) config (effectiveConfig steppers config) := by
  intro all
  have own := all clashingSteppers .initial ⟨by decide +kernel, by decide +kernel⟩
  obtain ⟨failure, failed⟩ := own.fails.2
    ⟨⟨"a_b", ⟨"c", true, none⟩⟩, by decide +kernel, rfl, rfl, by decide +kernel⟩
  have passed : (effectiveConfig clashingSteppers .initial).isOk = true := by decide +kernel
  rw [failed] at passed
  cases passed

end PlainSteps
