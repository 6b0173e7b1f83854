import PlainSteps.Proofs.Config.Splits

/-!
# The order of variables

What a variable sets does not depend on the others, and variables whose names differ, also in upper
case, set different things. So the order in which they are listed does not matter.

* `Setting`: what one variable sets, `Setting.read` and `Setting.apply`.
* `RunConfig.applyVariable_eq`: a variable is read first, and then its setting is applied.
* `Setting.apply_comm`: settings of different things commute.
* `foldlM_perm`: steps that commute can be made in any order.
* `RunConfig.ofVariables_perm`: variables make the same configuration in any order, or none.

Proof-only: no module that runs imports this one.
-/

namespace PlainSteps

open RunConfig (ofVariables)

/-! ## Settings -/

/-- What one variable sets. -/
inductive Setting where
  | env (pairs : List (String × String))
  | variants (pairs : List (String × String))
  | continueOnScore (on : Bool)
  | stay (on : Bool)
  | build (on : Bool)
  | stepDelay (pause : Option Nat)
  | option (key value : String)
  | unrelated

namespace Setting

/-- Reads what a variable sets. -/
def read (key value : String) : Except ConfigError Setting :=
  match key with
  | "HAIBUN_ENV" => (readPairs key value).map .env
  | "HAIBUN_ENVC" => (readPairs key value).map .variants
  | "HAIBUN_CONTINUE_ON_SCORE" => (readFlag key value).map .continueOnScore
  | "HAIBUN_STAY" => (readFlag key value).map .stay
  | "HAIBUN_BUILD" => (readFlag key value).map .build
  | "HAIBUN_STEP_DELAY_MS" => (readDelay key value).map .stepDelay
  | _ =>
    match Text.afterLead? RunConfig.optionLead key with
    | some key => .ok (.option (Text.upperText key) value)
    | none => .ok .unrelated

/-- The settings of a run with one more of them. -/
def apply (c : RunConfig) : Setting → RunConfig
  | .env pairs => c.addEnv pairs
  | .variants pairs => c.addVariants pairs
  | .continueOnScore on => { c with continueOnScore := on }
  | .stay on => { c with stay := on }
  | .build on => { c with build := on }
  | .stepDelay pause => { c with stepDelay := pause }
  | .option key value => { c with options := c.options.insert key value }
  | .unrelated => c

/-- The name, in upper case, of the variables that set a thing. -/
def name? : Setting → Option String
  | .env _ => some "HAIBUN_ENV"
  | .variants _ => some "HAIBUN_ENVC"
  | .continueOnScore _ => some "HAIBUN_CONTINUE_ON_SCORE"
  | .stay _ => some "HAIBUN_STAY"
  | .build _ => some "HAIBUN_BUILD"
  | .stepDelay _ => some "HAIBUN_STEP_DELAY_MS"
  | .option key _ => some (RunConfig.optionLead ++ key)
  | .unrelated => none

end Setting

/-- A variable is read first, whatever is set already, and then its setting is applied. -/
theorem RunConfig.applyVariable_eq (c : RunConfig) (key value : String) :
    c.applyVariable key value = (Setting.read key value).map (·.apply c) := by
  unfold applyVariable
  split
  case h_1 | h_2 =>
    rw [Setting.read]
    cases readPairs _ value <;> rfl
  case h_3 | h_4 | h_5 =>
    rw [Setting.read]
    cases readFlag _ value <;> rfl
  case h_6 =>
    rw [Setting.read]
    cases readDelay _ value <;> rfl
  case h_7 =>
    rw [Setting.read]
    · cases Text.afterLead? optionLead key <;> rfl
    all_goals assumption

theorem Text.upperText_append (s t : String) : upperText (s ++ t) = upperText s ++ upperText t := by
  simp [upperText, List.flatMap_append]

theorem Text.eq_append_of_afterLead? {lead s rest : String} (h : afterLead? lead s = some rest) :
    s = lead ++ rest := by
  obtain ⟨cs, found, rfl⟩ := Option.map_eq_some_iff.1 h
  refine String.toList_injective ?_
  rw [String.toList_append, String.toList_ofList]
  exact isPrefixOf?_eq_some_iff.1 found

/-- What a variable sets tells its name up to case. -/
theorem Setting.name?_of_read {key value name : String} {s : Setting}
    (h : read key value = .ok s) (named : s.name? = some name) : name = Text.upperText key := by
  unfold read at h
  split at h
  iterate 6
    · obtain ⟨_, -, rfl⟩ := ok_of_map h
      cases named
      decide
  · split at h
    · next option found =>
      cases h
      cases named
      have lead : Text.upperText RunConfig.optionLead = RunConfig.optionLead := by decide
      rw [Text.eq_append_of_afterLead? found, Text.upperText_append, lead]
    · cases h
      cases named

/-! ## Settings that commute -/

/-- The variants of a configuration with more of them. -/
def withVariants (variants : Table (List String)) (pairs : List (String × String)) :
    Table (List String) :=
  (RunConfig.addVariants { RunConfig.initial with variants } pairs).variants

/-- Variants are added to those that are there, whatever else is set. -/
theorem RunConfig.addVariants_eq (c : RunConfig) (pairs : List (String × String)) :
    c.addVariants pairs = { c with variants := withVariants c.variants pairs } := by
  induction pairs generalizing c with
  | nil => rfl
  | cons p rest ih =>
    have later := ih ({ initial with variants := c.variants }.addVariant p.1 p.2)
    have first : c.addVariants (p :: rest) = (c.addVariant p.1 p.2).addVariants rest := rfl
    rw [first, ih]
    exact congrArg (fun d : RunConfig => { c with variants := d.variants }) later.symm

/-- Settings of different things can be applied in any order. -/
theorem Setting.apply_comm {c : RunConfig} (sorted : c.options.Sorted) {s t : Setting}
    (apart : ∀ name, s.name? = some name → t.name? ≠ some name) :
    t.apply (s.apply c) = s.apply (t.apply c) := by
  cases s <;> cases t
  case option.option key value key' value' =>
    have other : key ≠ key' := by
      rintro rfl
      exact apart _ rfl rfl
    exact congrArg (fun options => { c with options }) (sorted.insert_comm other value value')
  case env.env | variants.variants | continueOnScore.continueOnScore | stay.stay | build.build |
      stepDelay.stepDelay =>
    exact absurd rfl (apart _ rfl)
  all_goals simp only [apply, RunConfig.addVariants_eq, RunConfig.addEnv]

theorem Setting.sorted_apply {c : RunConfig} (sorted : c.options.Sorted) (s : Setting) :
    (s.apply c).options.Sorted := by
  cases s with
  | variants pairs =>
    rw [apply, RunConfig.addVariants_eq]
    exact sorted
  | option key value => exact sorted.insert key value
  | _ => exact sorted

/-- The settings after one variable, if it can be read. -/
def RunConfig.applied? (c : RunConfig) (v : String × String) : Option RunConfig :=
  (Setting.read v.1 v.2).toOption.map (·.apply c)

namespace RunConfig

theorem toOption_applyVariable (c : RunConfig) (v : String × String) :
    (c.applyVariable v.1 v.2).toOption = c.applied? v := by
  rw [applyVariable_eq, applied?]
  cases Setting.read v.1 v.2 <;> rfl

theorem sorted_of_applied? {c c' : RunConfig} {v : String × String} (sorted : c.options.Sorted)
    (h : c.applied? v = some c') : c'.options.Sorted := by
  obtain ⟨s, -, rfl⟩ := Option.map_eq_some_iff.1 h
  exact s.sorted_apply sorted

/-- Two variables with different names, also in upper case, can be applied in any order. -/
theorem applied?_comm {c : RunConfig} {v w : String × String} (sorted : c.options.Sorted)
    (ne : Text.upperText v.1 ≠ Text.upperText w.1) :
    (c.applied? v).bind (·.applied? w) = (c.applied? w).bind (·.applied? v) := by
  unfold applied?
  cases first : Setting.read v.1 v.2 with
  | error e => cases Setting.read w.1 w.2 <;> rfl
  | ok s =>
    cases second : Setting.read w.1 w.2 with
    | error e => rfl
    | ok t =>
      refine congrArg some (Setting.apply_comm sorted fun name hs ht => ne ?_)
      rw [← Setting.name?_of_read first hs, ← Setting.name?_of_read second ht]

end RunConfig

/-! ## Steps in any order -/

section Steps

variable {ε α β : Type}

/-- Steps that can fail, where it does not matter how. -/
theorem toOption_foldlM (f : β → α → Except ε β) (xs : List α) (b : β) :
    (xs.foldlM f b).toOption = xs.foldlM (fun b x => (f b x).toOption) b := by
  induction xs generalizing b with
  | nil => rfl
  | cons x rest ih =>
    rw [List.foldlM_cons, List.foldlM_cons]
    cases f b x with
    | error e => rfl
    | ok b' => exact ih b'

/-- Steps that commute in pairs, where a property of states is kept, can be made in any order. -/
theorem foldlM_perm {f : β → α → Option β} {P : β → Prop} {Apart : α → α → Prop}
    (symm : ∀ {x y}, Apart x y → Apart y x)
    (keeps : ∀ {b x b'}, P b → f b x = some b' → P b')
    (comm : ∀ {b x y}, P b → Apart x y → (f b x).bind (f · y) = (f b y).bind (f · x))
    {xs ys : List α} (perm : xs.Perm ys) (apart : xs.Pairwise Apart) {b : β} (start : P b) :
    xs.foldlM f b = ys.foldlM f b := by
  induction perm generalizing b with
  | nil => rfl
  | @cons x xs ys _ ih =>
    rw [List.foldlM_cons, List.foldlM_cons]
    cases first : f b x with
    | none => rfl
    | some b' => exact ih (List.pairwise_cons.1 apart).2 (keeps start first)
  | swap x y rest =>
    have both : Apart y x := (List.pairwise_cons.1 apart).1 x List.mem_cons_self
    have order (x y : α) : (x :: y :: rest).foldlM f b =
        ((f b x).bind (f · y)).bind (rest.foldlM f ·) := by
      rw [List.foldlM_cons, Option.bind_assoc]
      rfl
    rw [order, order, comm start both]
  | trans first _ ih₁ ih₂ =>
    exact (ih₁ apart start).trans (ih₂ (first.pairwise apart fun {x y} => symm) start)

end Steps

/-- Variables whose names all differ, also in upper case, make the same configuration in any order,
so that they are refused in all orders or in none. -/
theorem RunConfig.ofVariables_perm {vars vars' : List (String × String)}
    (distinct : (vars.map fun v => Text.upperText v.1).Nodup) (perm : vars.Perm vars')
    (c : RunConfig) : ofVariables vars = .ok c ↔ ofVariables vars' = .ok c := by
  have toOption_eq (x : Except ConfigError RunConfig) : x = .ok c ↔ x.toOption = some c := by
    cases x <;> simp [Except.toOption]
  have same : vars.foldlM applied? initial = vars'.foldlM applied? initial :=
    foldlM_perm (P := fun c => c.options.Sorted) Ne.symm sorted_of_applied? applied?_comm perm
      (List.pairwise_map.1 distinct) Table.sorted_empty
  rw [toOption_eq, toOption_eq, ofVariables, ofVariables, toOption_foldlM, toOption_foldlM]
  simp only [toOption_applyVariable]
  rw [same]

/-- Variables of all kinds, two of them for options that are written in different cases. -/
def mixedVariables : List (String × String) :=
  [("HAIBUN_O_web_size", "7"), ("HAIBUN_ENV", "b=2,a=1,b=3"), ("PATH", "/bin"),
    ("HAIBUN_ENVC", "x=2,x=1,w=0"), ("HAIBUN_STAY", "yes"), ("HAIBUN_STEP_DELAY_MS", "25"),
    ("HAIBUN_O_WEB_AGE", "9")]

/-- The configuration that they make. -/
def mixedConfig : RunConfig :=
  { RunConfig.initial with
    env := ⟨[("a", "1"), ("b", "3")]⟩
    variants := ⟨[("w", ["0"]), ("x", ["2", "1"])]⟩
    options := ⟨[("WEB_AGE", "9"), ("WEB_SIZE", "7")]⟩
    stay := true
    stepDelay := some 25 }

/-- In reverse order they make the same. -/
theorem ofVariables_mixedVariables : (mixedVariables.map fun v => Text.upperText v.1).Nodup ∧
    ofVariables mixedVariables = .ok mixedConfig ∧
    ofVariables mixedVariables.reverse = .ok mixedConfig := by
  have distinct : (mixedVariables.map fun v => Text.upperText v.1).Nodup := by decide +kernel
  have made : ofVariables mixedVariables = .ok mixedConfig := by decide +kernel
  have perm : mixedVariables.Perm mixedVariables.reverse := (List.reverse_perm _).symm
  exact ⟨distinct, made, (RunConfig.ofVariables_perm distinct perm mixedConfig).1 made⟩

end PlainSteps
