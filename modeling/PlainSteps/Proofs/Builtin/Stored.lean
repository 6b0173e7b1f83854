import PlainSteps.Proofs.Builtin.Variables
import PlainSteps.Proofs.Domain.Calls
import PlainSteps.Proofs.Variables

/-!
# Variables keep what was set

The term of `what` names one variable in every step for shared variables, and before each step it
is also looked up like any term. After a variable was set to a quoted text the look-up gives a text
in every form of the term, so that the steps that ask for the variable get to it and find what was
set, until a step sets the variable again.

* `lookUp_of_stored`: the look-up of the term of `what`, where its variable holds a text.
* `Builtin.whatTerm`, `Builtin.quotedValue`: the terms of the lines.
* `Builtin.VariableStep.IsLine`: a step with given terms.
* `Builtin.VariableStep.Spares`, `Builtin.get?_of_passes`: steps that do not set a variable again leave
  its value.
* `Builtin.passes_stored`: what was set is found.

Proof-only: no module that runs imports this one.
-/

namespace PlainSteps

variable {σ : Type}

/-! ## Looking a variable up -/

/-- The domain of texts is that of the library, whatever calls have been made. -/
theorem DomainRegistry.lookup_string (calls : List DomainDefinition) :
    (ofCalls calls).lookup Domain.string = some (.plainText Domain.string) :=
  lookup_ofCalls_builtin (d := .plainText Domain.string) (by simp [DomainDefinition.builtin]) calls

section LookUp

variable {world : World} {env : Table String} {c : Capture}

/-- Where the variable that a term names holds a text, the term stands for one, in any form; only a
name in the environment has to be there as well. -/
theorem lookUp_of_stored {held : StoredValue} (stored : world.get? c.key = some held)
    (text : held.domain = some Domain.string)
    (inEnv : c.origin = .env → (env.get? c.term).isSome = true) :
    ∃ raw own, lookUp world env c = .ok ⟨some raw, own⟩ ∧
      ∀ d, own = some d → d = Domain.string := by
  obtain ⟨label, term, origin, domain⟩ := c
  have none (d : String) (h : (Option.none : Option String) = some d) : d = Domain.string := by
    cases h
  have texts (d : String) (h : held.domain = some d) : d = Domain.string :=
    Option.some.inj (h.symm.trans text)
  cases origin with
  | statement => exact ⟨term, _, rfl, none⟩
  | quoted => exact ⟨term, _, rfl, none⟩
  | special => exact ⟨term, _, rfl, none⟩
  | env =>
    obtain ⟨s, found⟩ := Option.isSome_iff_exists.1 (inEnv rfl)
    refine ⟨s, Option.none, ?_, none⟩
    simp only [lookUp, found]
    rfl
  | var =>
    have found : world.get? term = some held := stored
    refine ⟨held.value.display, held.domain, ?_, texts⟩
    simp only [lookUp, found]
    rfl
  | credential =>
    have found : world.get? (credentialKey term) = some held := stored
    refine ⟨held.value.display, Option.none, ?_, none⟩
    simp only [lookUp, found]
    rfl
  | fallthrough =>
    have found : world.get? term = some held := stored
    cases inEnv : env.get? term with
    | some s =>
      refine ⟨s, Option.none, ?_, none⟩
      simp only [lookUp, inEnv]
      rfl
    | none =>
      refine ⟨held.value.display, held.domain, ?_, texts⟩
      simp only [lookUp, inEnv, found]
      rfl

/-- A name in the environment that has a value is there. -/
theorem isSome_of_populateCapture {domains : DomainRegistry} {v : Option PopulatedValue}
    (h : populateCapture world domains env c = .ok v) (origin : c.origin = .env) :
    (env.get? c.term).isSome = true := by
  cases found : env.get? c.term with
  | some s => rfl
  | none =>
    unfold populateCapture at h
    obtain ⟨text, looked, -⟩ := ok_of_bind h
    simp only [lookUp, origin, found] at looked
    cases looked

end LookUp

namespace Builtin

/-! ## Lines -/

/-- The term that names a variable, in any form. -/
def whatTerm (origin : Origin) (term : String) : Capture := ⟨"what", term, origin, Domain.string⟩

/-- A quoted text for a variable. -/
def quotedValue (text : String) : Capture := ⟨"value", text, .quoted, Domain.string⟩

namespace VariableStep

/-- A step that runs the action with these terms. -/
structure IsLine (a : VariableStep) (captures : List Capture) (step : FeatureStep σ) : Prop where
  kind : step.head.action.kind = .defined a.definition
  captures : step.head.action.captures = captures

/-- A step that does not set a variable which is set: it names another one, or it is none of those
that set one again. -/
def Spares (key : String) (step : FeatureStep σ) : Prop :=
  ∃ a : VariableStep, step.head.action.kind = .defined a.definition ∧
    (a = .set ∨ a = .setAs → addressed? step.head.action.captures ≠ some key)

/-- What a step leaves under a key where there is a value that it may not replace. -/
theorem Does.get? {named : Option String} {s s' : Session σ} {a : VariableStep} {passed : Bool}
    (does : a.Does named s passed s') {key : String}
    (spares : a = .set ∨ a = .setAs → named ≠ some key) {held : StoredValue}
    (stored : s.world.get? key = some held) :
    s'.world.get? key = some held := by
  cases does with
  | fails => exact stored
  | keeps _ _ => exact stored
  | @writes own addresses writes value =>
    rw [World.get?_set]
    split
    · next same =>
      subst same
      -- only a variable that is not set could be set here
      cases a with
      | set => exact absurd addresses (spares (.inl rfl))
      | setAs => exact absurd addresses (spares (.inr rfl))
      | setEmpty =>
        have unset : s.world.get? key = none := writes
        rw [unset] at stored
        cases stored
      | is => exact writes.elim
      | isSet => exact writes.elim
      | display => exact writes.elim
    · exact stored

end VariableStep

open VariableStep (IsLine Spares)

/-- Steps that spare a variable leave its value. -/
theorem get?_of_passes {ctx : RunContext σ} {steps : List (FeatureStep σ)} {s s' : Session σ}
    (passed : Passes ctx steps s s') {key : String} (spares : ∀ step ∈ steps, Spares key step)
    {held : StoredValue} (stored : s.world.get? key = some held) :
    s'.world.get? key = some held := by
  induction passed with
  | nil s => exact stored
  | cons ran _ _ ih =>
    obtain ⟨⟨a, resolved, own⟩, others⟩ := List.forall_mem_cons.1 spares
    obtain ⟨r, mid, ran', does⟩ := a.exists_executeStep ctx resolved _
    cases (Prod.mk.inj (ran.symm.trans ran')).2
    exact ih others (does.get? own stored)

theorem variableKey?_context {ctx : RunContext σ} {step : FeatureStep σ} {vars : Variables}
    {origin : Origin} {term : String} {others : List Capture}
    (captures : step.head.action.captures = whatTerm origin term :: others) :
    variableKey? (step.context ctx vars) = some (whatTerm origin term).key := by
  rw [variableKey?_eq]
  show addressed? step.head.action.captures = _
  rw [captures]
  rfl

theorem compareVariable_ok_iff {key expected : String} {held : StoredValue} :
    (compareVariable key expected (some held)).ok = true ↔ expected = held.value.display := by
  simp only [compareVariable]
  split
  · next same => exact iff_of_true rfl same.symm
  · next other => exact iff_of_false Bool.false_ne_true (Ne.symm other)

section Set

variable {ctx : RunContext σ} {calls : List DomainDefinition}
  (domains : ctx.domains = .ofCalls calls) {s : Session σ} {origin : Origin} {term : String}

include domains

theorem coerce_string {stored : Option String} (own : ∀ d, stored = some d → d = Domain.string)
    (label raw : String) (form : Origin) :
    ctx.domains.coerce ⟨label, form, raw, Domain.string, stored⟩ =
      .ok ⟨Domain.string, .text raw⟩ := by
  rw [domains]
  exact DomainRegistry.coerce_plainText (by decide) (by decide)
    (DomainRegistry.lookup_string calls) own label raw form

/-- A quoted text is the value of its term. -/
theorem populateCapture_quotedValue (world : World) (text : String) :
    populateCapture world ctx.domains ctx.config.env (quotedValue text) =
      .ok (some ⟨"value", text, .quoted, Domain.string, .text text⟩) := by
  have own (d : String) (stored : none = some d) : d = Domain.string := by cases stored
  have read := coerce_string domains own "value" text .quoted
  have found : lookUp world ctx.config.env (quotedValue text) = .ok ⟨some text, none⟩ := rfl
  rw [populateCapture_of_some found]
  simp only [quotedValue, read]
  rfl

/-- The term of `what` has a value where its variable holds a text. -/
theorem exists_populateCapture_whatTerm {held : StoredValue}
    (stored : s.world.get? (whatTerm origin term).key = some held)
    (text : held.domain = some Domain.string)
    (inEnv : origin = .env → (ctx.config.env.get? term).isSome = true) :
    ∃ v, populateCapture s.world ctx.domains ctx.config.env (whatTerm origin term) = .ok v := by
  obtain ⟨raw, own, found, same⟩ := lookUp_of_stored (c := whatTerm origin term) stored text inEnv
  have read := coerce_string domains same "what" raw origin
  rw [populateCapture_of_some found]
  simp only [whatTerm, read]
  exact ⟨_, rfl⟩

/-- The text that a line gives for `value` is the value of that label. -/
theorem get?_value {world : World} {vars : Variables} {text : String}
    (values : populate world ctx.domains ctx.config.env
      [whatTerm origin term, quotedValue text] = .ok vars) :
    vars.get? "value" = some ⟨"value", text, .quoted, Domain.string, .text text⟩ := by
  have distinct : ([whatTerm origin term, quotedValue text].map (·.label)).Nodup := by
    simp [whatTerm, quotedValue]
  refine (get?_of_populate distinct values).2 ⟨rfl, quotedValue text, by simp, ?_⟩
  exact populateCapture_quotedValue domains world text

/-! ## Setting and asking -/

/-- Where a step sets a variable to a quoted text and passes, the variable holds the text. A name in
the environment, as which it may be written, is there then. -/
theorem stored_of_set {text : String} {set : FeatureStep σ}
    (line : IsLine .set [whatTerm origin term, quotedValue text] set) {s' : Session σ}
    {r : StepResult} (ran : (executeStep ctx set).start s = (.ok r, s')) (passed : r.ok = true) :
    s'.world.get? (whatTerm origin term).key = some ⟨.text text, some Domain.string, .quoted⟩ ∧
      (origin = .env → (ctx.config.env.get? term).isSome = true) := by
  cases values : populate s.world ctx.domains ctx.config.env set.head.action.captures with
  | error e =>
    rw [start_executeStep_of_fault line.kind values] at ran
    cases ran
    cases passed
  | ok vars =>
    have given := values
    rw [line.captures] at given
    have named : variableKey? (set.context ctx vars) = some (whatTerm origin term).key :=
      variableKey?_context line.captures
    have value : valueToStore? (set.context ctx vars) =
        some ⟨.text text, some Domain.string, .quoted⟩ := by
      show (vars.get? "value").map _ = _
      rw [get?_value domains given]
      rfl
    have stored := start_storeValue (s := s) false named value
    rw [start_executeStep_of_values line.kind values (VariableStep.start_returned stored)] at ran
    cases ran
    refine ⟨?_, fun env => ?_⟩
    · show (s.world.set _ _).get? _ = _
      rw [World.get?_set, if_pos rfl]
    · obtain ⟨v, read⟩ := exists_populate_iff.1 ⟨vars, given⟩ (whatTerm origin term) (by simp)
      exact isSome_of_populateCapture read env

/-- A variable that holds a text is found to be set. -/
theorem isSet_of_stored {held : StoredValue}
    (stored : s.world.get? (whatTerm origin term).key = some held)
    (text : held.domain = some Domain.string)
    (inEnv : origin = .env → (ctx.config.env.get? term).isSome = true) {ask : FeatureStep σ}
    (line : IsLine .isSet [whatTerm origin term] ask) :
    ∃ r, (executeStep ctx ask).start s = (.ok r, s) ∧ r.ok = true := by
  have what := exists_populateCapture_whatTerm domains stored text inEnv
  obtain ⟨vars, values⟩ := exists_populate_iff.2 (List.forall_mem_singleton.2 what)
  rw [← line.captures] at values
  have named : variableKey? (ask.context ctx vars) = some (whatTerm origin term).key :=
    variableKey?_context line.captures
  have asked := start_isSetStep (ask.context ctx vars) s
  rw [named, Option.bind_some, stored] at asked
  exact ⟨_, start_executeStep_of_values line.kind values asked, rfl⟩

/-- A variable that holds a text compares with a quoted text as the texts do. -/
theorem is_of_stored {held : StoredValue}
    (stored : s.world.get? (whatTerm origin term).key = some held)
    (text : held.domain = some Domain.string)
    (inEnv : origin = .env → (ctx.config.env.get? term).isSome = true) {expected : String}
    {ask : FeatureStep σ}
    (line : IsLine .is [whatTerm origin term, quotedValue expected] ask) :
    ∃ r, (executeStep ctx ask).start s = (.ok r, s) ∧
      (r.ok = true ↔ expected = held.value.display) := by
  have what := exists_populateCapture_whatTerm domains stored text inEnv
  have value := populateCapture_quotedValue domains s.world expected
  obtain ⟨vars, given⟩ := exists_populate_iff.2
    (List.forall_mem_cons.2 ⟨what, List.forall_mem_singleton.2 ⟨_, value⟩⟩)
  have values := given
  rw [← line.captures] at values
  have named : variableKey? (ask.context ctx vars) = some (whatTerm origin term).key :=
    variableKey?_context line.captures
  have compared : (ask.context ctx vars).text? "value" = some expected := by
    show ((vars.get? "value").map _).map _ = _
    rw [get?_value domains given]
    rfl
  have asked := start_isStep (s := s) named
  rw [compared, stored] at asked
  exact ⟨_, start_executeStep_of_values line.kind values asked, compareVariable_ok_iff⟩

end Set

/-- After a step that has set a variable to a quoted text, and after any steps that spare the
variable, a step finds it set and another finds that it is the text, and nothing else, where they
write its name in the same form: whatever the world and the environment hold, and whatever domains
have been registered. In a feature their results are reported after those of the steps before. -/
theorem passes_stored {ctx : RunContext σ} {calls : List DomainDefinition}
    (domains : ctx.domains = .ofCalls calls) {origin : Origin} {term text : String}
    {set : FeatureStep σ} (line : IsLine .set [whatTerm origin term, quotedValue text] set)
    {between : List (FeatureStep σ)}
    (spares : ∀ step ∈ between, Spares (whatTerm origin term).key step) {s s' : Session σ}
    (passed : Passes ctx (set :: between) s s') :
    (∀ ask, IsLine .isSet [whatTerm origin term] ask →
      ∃ r, (executeStep ctx ask).start s' = (.ok r, s') ∧ r.ok = true) ∧
    (∀ expected ask, IsLine .is [whatTerm origin term, quotedValue expected] ask →
      ∃ r, (executeStep ctx ask).start s' = (.ok r, s') ∧ (r.ok = true ↔ expected = text)) ∧
    ∀ ask rest p last, (executeSteps ctx (set :: between ++ ask :: rest)).start s = (.ok p, last) →
      ∃ r mid, (executeStep ctx ask).start s' = (.ok r, mid) ∧
        p.steps[between.length + 1]? = some r := by
  refine ⟨?isSet, ?is, fun ask rest p last ran => passed.reported ran⟩
  all_goals
    obtain _ | ⟨ran, ok, others⟩ := passed
    obtain ⟨stored, inEnv⟩ := stored_of_set domains line ran ok
    have kept := get?_of_passes others spares stored
  case isSet => exact fun ask asks => isSet_of_stored domains kept rfl inEnv asks
  case is => exact fun expected ask asks => is_of_stored domains kept rfl inEnv asks

/-- The context with the stepper for shared variables, where the environment has the name of a
variable. -/
def namedContext : RunContext Unit :=
  { variablesContext with
    config := ⟨.ofList [("x", "elsewhere")], ∅, ∅, false, none, false, false⟩ }

/-- A line that sets a variable, whose name is bare. -/
def setLine : FeatureStep Unit :=
  variableLine .set "set x to \"new\"" [whatTerm .fallthrough "x", quotedValue "new"]

/-- A line that does not set it, and one that sets the credential of that name. -/
def sparingLines : List (FeatureStep Unit) :=
  [variableLine .setEmpty "set empty \"x\" to \"other\""
      [whatTerm .quoted "x", quotedValue "other"],
    variableLine .set "set <x> to \"secret\"" [whatTerm .credential "x", quotedValue "secret"]]

/-- A line that compares the variable with a text. -/
def isLine (text : String) : FeatureStep Unit :=
  variableLine .is ("x is \"" ++ text ++ "\"") [whatTerm .fallthrough "x", quotedValue text]

/-- A world in which the variable has a value of another domain. -/
def heldWorld : World := (World.new "t").set "x" ⟨.flag true, some "flag", .var⟩

theorem passes_setLine :
    ∃ s', Passes namedContext (setLine :: sparingLines) ⟨heldWorld, ()⟩ s' :=
  ⟨_, .cons rfl rfl (.cons rfl rfl (.cons rfl rfl (.nil _)))⟩

/-- The variable had another value, and the environment has its name; all the same the line finds
what was set. -/
theorem passes_stored_new : ∃ s' r r',
    Passes namedContext (setLine :: sparingLines) ⟨heldWorld, ()⟩ s' ∧
    (executeStep namedContext (isLine "new")).start s' = (.ok r, s') ∧ r.ok = true ∧
    (executeStep namedContext (isLine "other")).start s' = (.ok r', s') ∧ r'.ok = false := by
  obtain ⟨s', passed⟩ := passes_setLine
  have spares : ∀ step ∈ sparingLines, Spares (whatTerm .fallthrough "x").key step := by
    refine List.forall_mem_cons.2
      ⟨⟨.setEmpty, rfl, ?_⟩, List.forall_mem_singleton.2 ⟨.set, rfl, ?_⟩⟩
    · rintro (no | no) <;> cases no
    · exact fun _ => by decide
  have domains : namedContext.domains = .ofCalls [] := rfl
  have compares := (passes_stored domains ⟨rfl, rfl⟩ spares passed).2.1
  obtain ⟨r, ran, new⟩ := compares "new" (isLine "new") ⟨rfl, rfl⟩
  obtain ⟨r', ran', other⟩ := compares "other" (isLine "other") ⟨rfl, rfl⟩
  exact ⟨s', r, r', passed, ran, new.2 rfl, ran',
    Bool.eq_false_iff.2 fun ok => absurd (other.1 ok) (by decide)⟩

end Builtin

end PlainSteps
