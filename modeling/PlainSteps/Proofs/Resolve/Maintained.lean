import PlainSteps.Proofs.Resolve.Offered

/-!
# What resolving maintains

The resolver changes by definitions only, so that resolving keeps whatever each definition keeps.
Nothing is assumed of the steppers: their hooks may crash, which ends the run, and may define what
they like.

* `Resolving.Maintains`: a computation that does not crash keeps a property of the resolver.
* `StepAction.FoundBy`: an action is that of a line, in a resolver with such a property, or tells
  why a line was not resolved.
* `foundBy_of_mem_buildStep`: so are the actions of all steps of a tree.
* `resolveBackgrounds_maintains`, `resolveFeatures_maintains`: resolving keeps what definitions
  keep, and gives such actions only.

Proof-only: no module that runs imports this one.
-/

namespace PlainSteps

open FeatureStep

variable {σ α β : Type}

/-! ## Computations that resolve -/

/-- From a resolver with a property, a computation that does not crash leaves one with it; of its
value, if it gives one, another property holds. -/
def Resolving.Maintains (inv : Resolver σ → Prop) (x : Resolving σ α) (post : α → Prop) : Prop :=
  ∀ (r : Resolver σ) (store : σ) (answer : Except ResolveError α) (r' : Resolver σ) (store' : σ),
    inv r → (x.run.run r).start store = (.ok (answer, r'), store') →
      inv r' ∧ ∀ a, answer = .ok a → post a

namespace Resolving.Maintains

variable {inv : Resolver σ → Prop} {x : Resolving σ α} {post : α → Prop}

theorem pure {a : α} (h : post a) : (Pure.pure a : Resolving σ α).Maintains inv post := by
  intro r store answer r' store' hr ran
  cases ran
  exact ⟨hr, fun _ same => Except.ok.inj same ▸ h⟩

theorem fail (e : ResolveError) : (throw e : Resolving σ α).Maintains inv post := by
  intro r store answer r' store' hr ran
  cases ran
  exact ⟨hr, fun _ none => nomatch none⟩

theorem bind {f : α → Resolving σ β} {post' : β → Prop} (h : x.Maintains inv post)
    (hf : ∀ a, post a → (f a).Maintains inv post') : (x >>= f).Maintains inv post' := by
  intro r store answer r' store' hr ran
  rcases Resolving.cases_of_start_bind ran with ⟨e, ran₁, rfl⟩ | ⟨a, mid, store₁, ran₁, ran₂⟩
  · exact ⟨(h r store _ r' store' hr ran₁).1, fun _ none => nomatch none⟩
  · obtain ⟨hmid, holds⟩ := h r store _ mid store₁ hr ran₁
    exact hf a (holds a rfl) mid store₁ answer r' store' hmid ran₂

/-- The resolver as it is. -/
theorem get : (MonadState.get : Resolving σ (Resolver σ)).Maintains inv inv := by
  intro r store answer r' store' hr ran
  cases ran
  exact ⟨hr, fun _ same => Except.ok.inj same ▸ hr⟩

theorem set {r : Resolver σ} (h : inv r) :
    (MonadState.set r : Resolving σ PUnit).Maintains inv fun _ => True := by
  intro _ store answer r' store' _ ran
  cases ran
  exact ⟨h, fun _ _ => trivial⟩

/-- A computation on the store. -/
theorem lift (e : Effect σ α) : (liftM e : Resolving σ α).Maintains inv fun _ => True := by
  intro r store answer r' store' hr ran
  obtain ⟨_, -, -, rfl⟩ := ok_of_start_lift ran
  exact ⟨hr, fun _ _ => trivial⟩

theorem background (path : String) (h : x.Maintains inv post) :
    (inBackground path x).Maintains inv post := by
  intro r store answer r' store' hr ran
  obtain ⟨first, ran₁, same⟩ := cases_of_start_inBackground ran
  obtain ⟨hr', holds⟩ := h r store first r' store' hr ran₁
  exact ⟨hr', fun a ok => holds a (same a ok)⟩

theorem forM {γ : Type} {xs : List γ} {f : γ → Resolving σ PUnit}
    (h : ∀ c ∈ xs, (f c).Maintains inv fun _ => True) :
    (xs.forM f).Maintains inv fun _ => True := by
  induction xs with
  | nil => exact .pure trivial
  | cons c rest ih =>
    refine (h c List.mem_cons_self).bind fun _ _ => ?_
    exact ih fun d hd => h d (List.mem_cons_of_mem c hd)

end Resolving.Maintains

/-! ## Trees of steps -/

theorem eq_of_mem_unresolved {text message : String} {source : SourceLocation} {path : SeqPath}
    {d : FeatureStep σ} (h : d ∈ (FeatureStep.unresolved text source path message).all) :
    d = .unresolved text source path message := by
  rcases mem_all_iff.1 h with same | ⟨c, hc, -⟩
  · exact same
  · exact nomatch hc

/-- The step of a line that was not resolved. -/
def FeatureStep.IsUnresolved (s : FeatureStep σ) : Prop :=
  ∃ text source path message, s = .unresolved text source path message

theorem isUnresolved_of_mem_unresolvedStatement {term : String} {location : SourceLocation}
    {parent : SeqPath} {next : Nat} {e : ResolveError} {c d : FeatureStep σ}
    (hc : c ∈ (unresolvedStatement term location parent next e).1) (hd : d ∈ c.all) :
    d.IsUnresolved := by
  obtain rfl := List.mem_singleton.1 hc
  exact ⟨_, _, _, _, eq_of_mem_unresolved hd⟩

/-- A step of the tree of a line was not resolved, or is made as that of the line is: of the same
line and action, or of another line and the action that is found for it. -/
theorem of_mem_buildStep {registry : StepRegistry σ} {library : SourceLibrary} {levels : Nat}
    {action : StepAction σ} {line : SourcedLine} {path : SeqPath} {d : FeatureStep σ}
    (h : d ∈ (buildStep registry library levels action line path).all) :
    d.IsUnresolved ∨
      ∃ levels' action' line' path', d = buildStep registry library levels' action' line' path' ∧
        (line' = line ∧ action' = action ∨
          findAction registry line'.text line'.source = .ok action') := by
  induction levels generalizing action line path with
  | zero =>
    rcases mem_all_iff.1 h with rfl | ⟨c, hc, hd⟩
    · exact .inr ⟨0, action, line, path, rfl, .inl ⟨rfl, rfl⟩⟩
    · obtain ⟨term, next, hc⟩ := mem_expandStatements hc
      exact .inl (isUnresolved_of_mem_unresolvedStatement hc hd)
  | succ levels ih =>
    rcases mem_all_iff.1 h with rfl | ⟨c, hc, hd⟩
    · exact .inr ⟨levels + 1, action, line, path, rfl, .inl ⟨rfl, rfl⟩⟩
    · obtain ⟨term, next, hc⟩ := mem_expandStatements hc
      cases lines : statementLines library term line.source with
      | error e =>
        rw [lines] at hc
        exact .inl (isUnresolved_of_mem_unresolvedStatement hc hd)
      | ok lines' =>
        rw [lines] at hc
        obtain ⟨inner, innerPath, rfl⟩ := mem_stepsBelow hc
        cases found : findAction registry inner.text inner.source with
        | error e =>
          rw [found] at hd
          exact .inl ⟨_, _, _, _, eq_of_mem_unresolved hd⟩
        | ok action' =>
          rw [found] at hd
          rcases ih hd with unresolved | ⟨levels', action'', line', path', made, own | other⟩
          · exact .inl unresolved
          · obtain ⟨rfl, rfl⟩ := own
            exact .inr ⟨levels', action'', line', path', made, .inr found⟩
          · exact .inr ⟨levels', action'', line', path', made, .inr other⟩

/-- An action is what a resolver with a property finds for a line, or tells why a line was not
resolved. -/
inductive StepAction.FoundBy (inv : Resolver σ → Prop) : StepAction σ → Prop
  | found {r : Resolver σ} {text : String} {location : SourceLocation} {action : StepAction σ}
    (holds : inv r) (h : findAction r.registry text location = .ok action) : FoundBy inv action
  | unresolved (message : String) : FoundBy inv (.unresolved message)

variable {inv : Resolver σ → Prop}

/-- The actions below a line are found by the resolver that makes its tree. -/
theorem foundBy_of_mem_buildStep {r : Resolver σ} (holds : inv r) {library : SourceLibrary}
    {levels : Nat} {action : StepAction σ} (found : action.FoundBy inv) {line : SourcedLine}
    {path : SeqPath} :
    ∀ d ∈ (buildStep r.registry library levels action line path).all,
      d.head.action.FoundBy inv := by
  intro d hd
  rcases of_mem_buildStep hd with ⟨_, _, _, message, rfl⟩ | ⟨_, _, _, _, rfl, own⟩
  · exact .unresolved message
  · rw [buildStep_head]
    rcases own with ⟨-, rfl⟩ | other
    · exact found
    · exact .found holds other

/-! ## Lines and features -/

/-- Each definition that a line makes keeps a property of the resolver. -/
def Resolver.KeptByDefining (inv : Resolver σ → Prop) : Prop :=
  ∀ (r r' : Resolver σ) (stepper : String) (source : SourceLocation) (d : StepDefinition σ),
    inv r → r.define stepper source d = .ok r' → inv r'

section Kept

variable (kept : Resolver.KeptByDefining inv)

include kept

theorem defineStep_maintains (stepper : String) (source : SourceLocation) (d : StepDefinition σ) :
    (defineStep stepper source d).Maintains inv fun _ => True := by
  unfold defineStep
  refine .bind .get fun r holds => ?_
  cases defined : r.define stepper source d with
  | error e => exact .fail _
  | ok r' => exact .set (kept r r' stepper source d holds defined)

theorem offerLine_maintains (steppers : List (Stepper σ)) (line : SourcedLine) :
    (offerLine steppers line).Maintains inv fun _ => True := by
  induction steppers with
  | nil =>
    rw [offerLine]
    exact .pure trivial
  | cons s rest ih =>
    rw [offerLine]
    refine .bind (.lift _) fun disposition _ => ?_
    cases disposition with
    | proceed => exact ih
    | consumed => exact .pure trivial
    | define definitions =>
      exact .bind (.forM fun d _ => defineStep_maintains kept s.name line.source d) fun _ _ =>
        .pure trivial

omit kept in
theorem resolveAction_maintains (line : SourcedLine) :
    (resolveAction (σ := σ) line).Maintains inv fun action => action.FoundBy inv := by
  unfold resolveAction
  refine .bind .get fun r holds => ?_
  cases found : findAction r.registry line.text line.source with
  | error e => exact .fail e
  | ok action => exact .pure (.found holds found)

theorem checkLine_maintains (steppers : List (Stepper σ)) (line : SourcedLine) :
    (checkLine steppers line).Maintains inv fun _ => True := by
  unfold checkLine
  refine (offerLine_maintains kept steppers line).bind fun taken _ => ?_
  split
  · exact .pure trivial
  · split
    · exact .pure trivial
    · exact (resolveAction_maintains line).bind fun _ _ => .pure trivial

/-- Checking backgrounds keeps what definitions keep. -/
theorem resolveBackgrounds_maintains (steppers : List (Stepper σ)) (library : SourceLibrary) :
    (resolveBackgrounds steppers library).Maintains inv fun _ => True :=
  .forM fun b _ => .background b.path (.forM fun line _ => checkLine_maintains kept steppers line)

theorem resolveLines_maintains (steppers : List (Stepper σ)) (library : SourceLibrary)
    (feature position : Nat) (lines : List SourcedLine) :
    (resolveLines steppers library feature position lines).Maintains inv fun steps =>
      ∀ d ∈ steps.flatMap all, d.head.action.FoundBy inv := by
  induction lines generalizing position with
  | nil =>
    rw [resolveLines]
    exact .pure (List.forall_mem_nil _)
  | cons line rest ih =>
    rw [resolveLines]
    refine (offerLine_maintains kept steppers line).bind fun taken _ => ?_
    split
    · exact ih position
    · refine (resolveAction_maintains line).bind fun action found => .bind .get fun r holds => ?_
      refine (ih _).bind fun steps others => .pure ?_
      rw [List.flatMap_cons]
      exact List.forall_mem_append.2 ⟨foundBy_of_mem_buildStep holds found, others⟩

theorem resolveFrom_maintains (steppers : List (Stepper σ)) (library : SourceLibrary)
    (index : Nat) (features : List ExpandedFeature) :
    (resolveFrom steppers library index features).Maintains inv fun resolved =>
      ∀ d ∈ (topSteps resolved).flatMap all, d.head.action.FoundBy inv := by
  induction features generalizing index with
  | nil =>
    rw [resolveFrom]
    exact .pure (List.forall_mem_nil _)
  | cons feature rest ih =>
    rw [resolveFrom]
    have first : (resolveFeature steppers library (SeqPath.next index) feature).Maintains inv
        fun f => ∀ d ∈ f.steps.flatMap all, d.head.action.FoundBy inv := by
      unfold resolveFeature
      exact .bind (.forM fun s _ => .lift _) fun _ _ =>
        (resolveLines_maintains kept steppers library _ 0 feature.lines).bind fun _ steps =>
          .pure steps
    refine first.bind fun f own => (ih _).bind fun resolved others => .pure ?_
    rw [topSteps, List.flatMap_cons, List.flatMap_append]
    exact List.forall_mem_append.2 ⟨own, others⟩

/-- Resolving features keeps what definitions keep, and gives trees whose actions are found by
resolvers that have it. -/
theorem resolveFeatures_maintains (steppers : List (Stepper σ)) (library : SourceLibrary)
    (features : List ExpandedFeature) :
    (resolveFeatures steppers library features).Maintains inv fun resolved =>
      ∀ d ∈ (topSteps resolved).flatMap all, d.head.action.FoundBy inv :=
  resolveFrom_maintains kept steppers library 0 features

end Kept

end PlainSteps
