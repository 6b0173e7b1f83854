import PlainSteps.Builtin.Variables
import PlainSteps.Proofs.Run.Steps

/-!
# What the steps for shared variables change

A step of the stepper for shared variables that does not pass has changed nothing, whether its terms
have no values, a domain refuses a text, or its check fails. One that passes sets the variable that
the line names, or changes nothing: that depends on the step and on whether the variable is set.

* `Builtin.VariableStep`: the steps of the stepper; `Builtin.VariableStep.Writes`: which of them set
  a variable that the line names.
* `Builtin.addressed?`: the variable that a line names.
* `Builtin.VariableStep.exists_does`: what the actions do.
* `World.DiffersAt`: worlds that are the same up to the value of one shared variable.
* `Builtin.executeStep_variableStep`: what the steps change.

Proof-only: no module that runs imports this one.
-/

namespace PlainSteps

variable {σ : Type}

/-! ## Worlds -/

/-- A world is another one up to the value of one shared variable. -/
structure World.DiffersAt (key : String) (w w' : World) : Prop where
  tag : w'.tag = w.tag
  others : ∀ label, label ≠ key → w'.get? label = w.get? label
  name : w'.shared.name = w.shared.name
  current : w'.shared.currentLabel = w.shared.currentLabel
  children : w'.shared.children = w.shared.children
  domains : w'.domains = w.domains
  paths : w'.paths = w.paths
  featureTitle : w'.featureTitle = w.featureTitle
  scenarioTitle : w'.scenarioTitle = w.scenarioTitle

theorem World.get?_set (w : World) (key label : String) (value : StoredValue) :
    (w.set key value).get? label = if label = key then some value else w.get? label :=
  Table.get?_insert ..

theorem World.differsAt_set (w : World) (key : String) (value : StoredValue) :
    w.DiffersAt key (w.set key value) where
  tag := rfl
  others label other := by rw [get?_set, if_neg other]
  name := rfl
  current := rfl
  children := rfl
  domains := rfl
  paths := rfl
  featureTitle := rfl
  scenarioTitle := rfl

/-! ## Keys -/

/-- The shared variable that a term names. -/
def Capture.key (c : Capture) : String :=
  if c.origin = .credential then credentialKey c.term else c.term

namespace Builtin

/-- The shared variable that the terms of a line name. -/
def addressed? (captures : List Capture) : Option String :=
  (captures.find? (·.label == "what")).map Capture.key

theorem variableKey?_eq (c : ActionContext σ) : variableKey? c = addressed? c.step.captures := by
  unfold variableKey? addressed? ActionContext.term? ActionContext.origin? StepView.capture?
  cases c.step.captures.find? (·.label == "what") with
  | none => rfl
  | some what =>
    simp only [Option.map_some, Option.some.injEq]
    rfl

/-! ## Actions -/

/-- The steps of the stepper for shared variables. -/
inductive VariableStep where
  | set
  | setEmpty
  | setAs
  | is
  | isSet
  | display
  deriving DecidableEq, Repr

namespace VariableStep

/-- What the stepper offers. -/
def definition : VariableStep → StepDefinition σ
  | set => setStep
  | setEmpty => setEmptyStep
  | setAs => setAsStep
  | is => isStep
  | isSet => isSetStep
  | display => showStep

/-- All of them, in the order in which they are offered. -/
def all : List VariableStep := [set, setEmpty, setAs, is, isSet, display]

/-- Whether a step that passes sets the variable that it names. -/
def Writes (w : World) (key : String) : VariableStep → Prop
  | set | setAs => True
  | setEmpty => w.get? key = none
  | is | isSet | display => False

/-- What a step may do from a session, where its line names a variable or none: it passes or not,
and leaves a session. -/
inductive Does (named : Option String) (s : Session σ) (a : VariableStep) : Bool → Session σ → Prop
  | fails : Does named s a false s
  | keeps {passed : Bool} {key : String} (addresses : named = some key)
    (idle : ¬ a.Writes s.world key) : Does named s a passed s
  | writes {key : String} (addresses : named = some key) (writes : a.Writes s.world key)
    (value : StoredValue) : Does named s a true { s with world := s.world.set key value }

end VariableStep

section Actions

variable {c : ActionContext σ} {s : Session σ}

/-- Nothing is set where the line names no variable or gives no value. -/
theorem start_storeValue_of_nothing {onlyNew : Bool}
    (h : variableKey? c = none ∨ valueToStore? c = none) :
    (storeValue c onlyNew).start s = (.ok (.failed "nothing to set"), s) := by
  unfold storeValue
  rcases h with h | h
  · rw [h]
    rfl
  · rw [h]
    cases variableKey? c <;> rfl

/-- A value is set, unless the variable must be new and is not. -/
theorem start_storeValue (onlyNew : Bool) {key : String} {value : StoredValue}
    (named : variableKey? c = some key) (given : valueToStore? c = some value) :
    (storeValue c onlyNew).start s = (.ok .passed,
      if onlyNew && (s.world.get? key).isSome then s
      else { s with world := s.world.set key value }) := by
  unfold storeValue
  rw [named, given]
  simp only [Effect.start_bind, Effect.start_readWorld]
  split <;> rfl

/-- What a domain reads is set; nothing is set where it refuses the text, or where the line names no
variable, no domain or no text. -/
theorem storeAs_cases (c : ActionContext σ) (s : Session σ) :
    (∃ message, (storeAs c).start s = (.ok (.failed message), s)) ∨
      ∃ key value, variableKey? c = some key ∧
        (storeAs c).start s = (.ok .passed, { s with world := s.world.set key value }) := by
  unfold storeAs
  split
  · next key domain raw named _ _ =>
    dsimp only
    split
    · exact .inr ⟨key, _, named, rfl⟩
    · exact .inl ⟨_, rfl⟩
  · exact .inl ⟨_, rfl⟩

theorem start_isStep {key : String} (named : variableKey? c = some key) :
    (isStep.action c).start s =
      (.ok (.ok (compareVariable key ((c.text? "value").getD "") (s.world.get? key))), s) := by
  simp only [isStep, named]
  rfl

theorem start_isSetStep (c : ActionContext σ) (s : Session σ) :
    (isSetStep.action c).start s =
      (.ok (.ok (if ((variableKey? c).bind s.world.get?).isSome then .passed
        else .failed ((c.term? "what").getD "?" ++ " is not set"))), s) := by
  simp only [isSetStep, Effect.start_bind, Effect.start_readWorld]
  split <;> rfl

end Actions

namespace VariableStep

section Actions

variable {c : ActionContext σ} {s : Session σ}

/-- The action of a step that sets a value ends with the outcome of setting it. -/
theorem start_returned {x : Effect (Session σ) ActionOutcome} {o : ActionOutcome} {s' : Session σ}
    (ran : x.start s = (.ok o, s')) :
    (x >>= fun o => pure (Except.ok (ε := Fault) o)).start s = (.ok (.ok o), s') := by
  rw [Effect.start_bind, ran]
  rfl

/-- A step that sets a value sets it where it writes. -/
theorem storeValue_does {a : VariableStep} {onlyNew : Bool}
    (writes : ∀ key, a.Writes s.world key ↔ ¬ (onlyNew && (s.world.get? key).isSome) = true) :
    ∃ o s', (storeValue c onlyNew).start s = (.ok o, s') ∧ a.Does (variableKey? c) s o.ok s' := by
  cases named : variableKey? c with
  | none => exact ⟨_, s, start_storeValue_of_nothing (.inl named), .fails⟩
  | some key =>
    cases given : valueToStore? c with
    | none => exact ⟨_, s, start_storeValue_of_nothing (.inr given), .fails⟩
    | some value =>
      refine ⟨_, _, start_storeValue onlyNew named given, ?_⟩
      split
      · next old => exact .keeps rfl fun w => (writes key).1 w old
      · next fresh => exact .writes rfl ((writes key).2 fresh) value

/-- What the actions do: each ends with an outcome. -/
theorem exists_does (a : VariableStep) (c : ActionContext σ) (s : Session σ) :
    ∃ o s', (a.definition.action c).start s = (.ok (.ok o), s') ∧
      a.Does (variableKey? c) s o.ok s' := by
  cases a with
  | set =>
    have writes (key : String) : set.Writes s.world key ↔
        ¬ (false && (s.world.get? key).isSome) = true :=
      iff_of_true trivial Bool.false_ne_true
    obtain ⟨o, s', ran, does⟩ := storeValue_does (c := c) writes
    exact ⟨o, s', start_returned ran, does⟩
  | setEmpty =>
    have writes (key : String) : setEmpty.Writes s.world key ↔
        ¬ (true && (s.world.get? key).isSome) = true := by
      simp [Writes]
    obtain ⟨o, s', ran, does⟩ := storeValue_does (c := c) writes
    exact ⟨o, s', start_returned ran, does⟩
  | setAs =>
    rcases storeAs_cases c s with ⟨message, ran⟩ | ⟨key, value, named, ran⟩
    · exact ⟨_, s, start_returned ran, .fails⟩
    · exact ⟨_, _, start_returned ran, .writes named (by exact trivial) value⟩
  | is =>
    cases named : variableKey? c with
    | none =>
      refine ⟨.failed "no variable named", s, ?_, .fails⟩
      simp only [definition, isStep, named]
      rfl
    | some key => exact ⟨_, s, start_isStep named, .keeps rfl id⟩
  | isSet =>
    refine ⟨_, s, start_isSetStep c s, ?_⟩
    cases variableKey? c with
    | none => exact .fails
    | some key => exact .keeps rfl id
  | display =>
    cases named : variableKey? c with
    | none =>
      refine ⟨.failed "no variable named", s, ?_, .fails⟩
      simp only [definition, showStep, named]
      rfl
    | some key =>
      refine ⟨⟨true, none, none, [.trace (shownVariable key (s.world.get? key))]⟩, s, ?_,
        .keeps rfl id⟩
      simp only [definition, showStep, named]
      rfl

end Actions

/-- What the steps do: a step whose terms have no values fails. -/
theorem exists_executeStep (ctx : RunContext σ) {a : VariableStep} {step : FeatureStep σ}
    (resolved : step.head.action.kind = .defined a.definition) (s : Session σ) :
    ∃ r s', (executeStep ctx step).start s = (.ok r, s') ∧
      a.Does (addressed? step.head.action.captures) s r.ok s' := by
  cases values : populate s.world ctx.domains ctx.config.env step.head.action.captures with
  | error e => exact ⟨_, s, start_executeStep_of_fault resolved values, .fails⟩
  | ok vars =>
    obtain ⟨o, s', ran, does⟩ := a.exists_does (step.context ctx vars) s
    rw [variableKey?_eq] at does
    exact ⟨_, s', start_executeStep_of_values resolved values ran, does⟩

end VariableStep

/-- A step of the stepper for shared variables that does not pass leaves the session as it was. One
that passes names a variable by the term of `what`, a credential where that is in angle brackets.
Where it writes it sets this variable, and nothing else in the world differs then; where it does not
it leaves the session as it was. -/
theorem executeStep_variableStep (ctx : RunContext σ) :
    (variablesStepper (σ := σ)).steps = VariableStep.all.map VariableStep.definition ∧
    ∀ (a : VariableStep) (step : FeatureStep σ),
      step.head.action.kind = .defined a.definition → ∀ s : Session σ,
      ∃ r s', (executeStep ctx step).start s = (.ok r, s') ∧
        (r.ok = false → s' = s) ∧
        (r.ok = true → ∃ key, addressed? step.head.action.captures = some key ∧
          (¬ a.Writes s.world key → s' = s) ∧
          (a.Writes s.world key → s.world.DiffersAt key s'.world ∧
            ∃ value, s' = { s with world := s.world.set key value })) := by
  refine ⟨rfl, fun a step resolved s => ?_⟩
  obtain ⟨r, s', ran, does⟩ := a.exists_executeStep ctx resolved s
  refine ⟨r, s', ran, ?_⟩
  generalize r.ok = passed at does ⊢
  cases does with
  | fails => exact ⟨fun _ => rfl, Bool.noConfusion⟩
  | keeps addresses idle =>
    exact ⟨fun _ => rfl, fun _ => ⟨_, addresses, fun _ => rfl, fun writes => absurd writes idle⟩⟩
  | writes addresses writes value =>
    refine ⟨Bool.noConfusion, fun _ => ⟨_, addresses, fun idle => absurd writes idle, ?_⟩⟩
    exact fun _ => ⟨s.world.differsAt_set _ value, value, rfl⟩

/-- A line of the stepper for shared variables. -/
def variableLine (a : VariableStep) (text : String) (captures : List Capture) : FeatureStep Unit :=
  .mk ⟨⟨"vars.feature", 1⟩, text, ⟨[1, 1]⟩, .resolved "vars" a.definition captures⟩ []

/-- A context with the stepper for shared variables. -/
def variablesContext : RunContext Unit :=
  ⟨[variablesStepper], .initial, ⟨∅, ∅, ∅, false, none, false, false⟩⟩

/-- A credential that is not set. -/
def pinLine : FeatureStep Unit :=
  variableLine .setEmpty "set empty <pin> to \"7\""
    [⟨"what", "pin", .credential, Domain.string⟩, ⟨"value", "7", .quoted, Domain.string⟩]

/-- A text that is no number. -/
def numberLine : FeatureStep Unit :=
  variableLine .setAs "set \"pin\" as \"number\" to \"seven\""
    [⟨"what", "pin", .quoted, Domain.string⟩, ⟨"domain", "number", .quoted, Domain.string⟩,
      ⟨"value", "seven", .quoted, Domain.string⟩]

/-- The credential is set, under its own key and not under that of the variable; the text that is no
number is not. -/
theorem executeStep_pinLine :
    (∃ r s', (executeStep variablesContext pinLine).start ⟨.new "t", ()⟩ = (.ok r, s') ∧
      r.ok = true ∧ (World.new "t").DiffersAt "__cred_pin" s'.world ∧
      ∃ value, s'.world.get? "__cred_pin" = some value ∧ s'.world.get? "pin" = none) ∧
    ∃ r, (executeStep variablesContext numberLine).start ⟨.new "t", ()⟩ =
      (.ok r, ⟨.new "t", ()⟩) ∧ r.ok = false := by
  have frame := (executeStep_variableStep variablesContext).2
  constructor
  · obtain ⟨r, s', ran, -, passed⟩ := frame .setEmpty pinLine rfl ⟨.new "t", ()⟩
    have ok : ((executeStep variablesContext pinLine).start ⟨.new "t", ()⟩).1.map (·.ok) =
      .ok true := rfl
    rw [ran] at ok
    obtain ⟨key, named, -, wrote⟩ := passed (Except.ok.inj ok)
    have pin : addressed? pinLine.head.action.captures = some "__cred_pin" := rfl
    obtain rfl := Option.some.inj (pin.symm.trans named)
    obtain ⟨differs, value, rfl⟩ := wrote rfl
    refine ⟨r, _, ran, Except.ok.inj ok, differs, value, ?_, ?_⟩
    · rw [World.get?_set, if_pos rfl]
    · rw [differs.others "pin" (by decide)]
      rfl
  · obtain ⟨r, s', ran, failed, -⟩ := frame .setAs numberLine rfl ⟨.new "t", ()⟩
    have no : ((executeStep variablesContext numberLine).start ⟨.new "t", ()⟩).1.map (·.ok) =
      .ok false := rfl
    rw [ran] at no
    rw [failed (Except.ok.inj no)] at ran
    exact ⟨r, ran, Except.ok.inj no⟩

end Builtin

end PlainSteps
