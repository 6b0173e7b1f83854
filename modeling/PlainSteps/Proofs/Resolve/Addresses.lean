import PlainSteps.Proofs.Effect
import PlainSteps.Proofs.Resolve.Order
import PlainSteps.Proofs.Source.Unfolding
import PlainSteps.Proofs.Step.Tree
import PlainSteps.Resolve.Basic

/-!
# The addresses of resolved steps

The steps of a feature count from one, and so do the steps directly below a step, which count on
from one of its statements to the next.

* `SeqPath.indicesFrom`: successive indices.
* `FeatureStep.Built`: what holds of each step that is built.
* `built_of_mem_buildStep`: every step of the tree of a line is built like that.
* `resolveFrom_addresses`: what resolving features gives.
* `resolveFeatures_addresses`: addresses are consecutive, occur once, and start with those of the
  steps above.

Proof-only: no module that runs imports this one.
-/

namespace PlainSteps

variable {σ α β : Type}

/-! ## Indices -/

namespace SeqPath

/-- So many indices, each after the one before it. -/
def indicesFrom : (next number : Nat) → List Nat
  | _, 0 => []
  | next, number + 1 => next :: indicesFrom (SeqPath.next next) number

/-- The index after so many others. -/
def skip : (next number : Nat) → Nat
  | next, 0 => next
  | next, number + 1 => skip (SeqPath.next next) number

theorem indicesFrom_add (next n m : Nat) :
    indicesFrom next (n + m) = indicesFrom next n ++ indicesFrom (skip next n) m := by
  induction n generalizing next with
  | zero => rw [Nat.zero_add]; rfl
  | succ n ih =>
    rw [Nat.succ_add, indicesFrom, ih]
    rfl

theorem next_eq {index : Nat} (h : index < lastIndex) : SeqPath.next index = index + 1 :=
  Nat.min_eq_left h

/-- Indices that do not go beyond the last one are consecutive numbers. -/
theorem indicesFrom_eq {next number : Nat} (h : next + number ≤ lastIndex + 1) :
    indicesFrom next number = List.range' next number := by
  induction number generalizing next with
  | zero => rfl
  | succ n ih =>
    rw [indicesFrom, List.range'_succ]
    cases n with
    | zero => rfl
    | succ n => rw [next_eq (by omega), ih (by omega)]

end SeqPath

/-! ## Steps -/

open FeatureStep

/-- Whether steps below another one count from an index, and an index is the one after theirs. -/
def CountFrom (parent : SeqPath) (next : Nat) (below : List (FeatureStep σ) × Nat) : Prop :=
  below.1.map seqPath = (SeqPath.indicesFrom next below.1.length).map parent.child ∧
    below.2 = SeqPath.skip next below.1.length

theorem unresolvedStatement_countFrom (term : String) (location : SourceLocation)
    (parent : SeqPath) (next : Nat) (e : ResolveError) :
    CountFrom parent next (unresolvedStatement (σ := σ) term location parent next e) :=
  ⟨rfl, rfl⟩

theorem stepsBelow_countFrom (parent : SeqPath) {build : SourcedLine → SeqPath → FeatureStep σ}
    (atPath : ∀ line path, (build line path).seqPath = path) (next : Nat)
    (lines : List SourcedLine) : CountFrom parent next (stepsBelow parent build next lines) := by
  induction lines generalizing next with
  | nil => exact ⟨rfl, rfl⟩
  | cons line rest ih =>
    obtain ⟨paths, after⟩ := ih (SeqPath.next next)
    refine ⟨?_, after⟩
    rw [stepsBelow, List.map_cons, atPath, paths]
    rfl

theorem mem_stepsBelow {parent : SeqPath} {build : SourcedLine → SeqPath → FeatureStep σ}
    {next : Nat} {lines : List SourcedLine} {s : FeatureStep σ}
    (h : s ∈ (stepsBelow parent build next lines).1) : ∃ line path, s = build line path := by
  induction lines generalizing next with
  | nil => exact nomatch h
  | cons line rest ih =>
    rcases List.mem_cons.1 h with rfl | h
    · exact ⟨line, parent.child next, rfl⟩
    · exact ih h

theorem map_stepsBelow {γ : Type} {parent : SeqPath}
    {build : SourcedLine → SeqPath → FeatureStep σ} {f : FeatureStep σ → γ} {g : SourcedLine → γ}
    (each : ∀ line path, f (build line path) = g line) (next : Nat) (lines : List SourcedLine) :
    (stepsBelow parent build next lines).1.map f = lines.map g := by
  induction lines generalizing next with
  | nil => rfl
  | cons line rest ih => rw [stepsBelow, List.map_cons, List.map_cons, ih, each]

theorem expandStatements_paths {parent : SeqPath}
    {expand : String → Nat → List (FeatureStep σ) × Nat}
    (counts : ∀ term next, CountFrom parent next (expand term next)) (next : Nat)
    (captures : List Capture) :
    ((expandStatements expand next captures).flatMap (·.steps)).map seqPath =
      (SeqPath.indicesFrom next
        ((expandStatements expand next captures).flatMap (·.steps)).length).map parent.child := by
  induction captures generalizing next with
  | nil => rfl
  | cons c rest ih =>
    obtain ⟨paths, after⟩ := counts c.term next
    rw [expandStatements, List.flatMap_cons, List.map_append, List.length_append,
      SeqPath.indicesFrom_add, List.map_append, ih, after]
    exact congrArg (· ++ _) paths

/-- What each statement has, whatever the index of its first step, is had in the order of their
captures. -/
theorem map_expandStatements {γ : Type} {expand : String → Nat → List (FeatureStep σ) × Nat}
    {f : NestedStatement σ → γ} {g : Capture → γ}
    (each : ∀ c next, f (.mk c.label (expand c.term next).1) = g c) (next : Nat)
    (captures : List Capture) : (expandStatements expand next captures).map f = captures.map g := by
  induction captures generalizing next with
  | nil => rfl
  | cons c rest ih => rw [expandStatements, List.map_cons, List.map_cons, ih, each]

theorem expandStatements_labels (expand : String → Nat → List (FeatureStep σ) × Nat) (next : Nat)
    (captures : List Capture) :
    (expandStatements expand next captures).map (·.label) = captures.map (·.label) :=
  map_expandStatements (fun _ _ => rfl) next captures

theorem mem_expandStatements {expand : String → Nat → List (FeatureStep σ) × Nat} {next : Nat}
    {captures : List Capture} {s : FeatureStep σ}
    (h : s ∈ (expandStatements expand next captures).flatMap (·.steps)) :
    ∃ term next, s ∈ (expand term next).1 := by
  induction captures generalizing next with
  | nil => exact nomatch h
  | cons c rest ih =>
    rw [expandStatements, List.flatMap_cons] at h
    rcases List.mem_append.1 h with h | h
    · exact ⟨c.term, next, h⟩
    · exact ih h

/-- What holds of a step that is built: its statements are those of its action, and the steps below
it count from one through all of them. -/
structure FeatureStep.Built (s : FeatureStep σ) : Prop where
  labels : s.nested.map (·.label) = (statementsOf s.head.action).map (·.label)
  paths : s.children.map seqPath =
    (SeqPath.indicesFrom 1 s.children.length).map s.seqPath.child

theorem unresolved_built (text : String) (source : SourceLocation) (path : SeqPath)
    (message : String) : (FeatureStep.unresolved (σ := σ) text source path message).Built :=
  ⟨rfl, rfl⟩

theorem mem_all_unresolved {text : String} {source : SourceLocation} {path : SeqPath}
    {message : String} {d : FeatureStep σ} (h : d ∈ (unresolved text source path message).all) :
    d.Built := by
  rcases mem_all_iff.1 h with rfl | ⟨c, hc, _⟩
  · exact unresolved_built text source path message
  · exact nomatch hc

/-- A step whose statements count on from one to the next is built, and so is what is below it if
it is built in every statement. -/
theorem built_of_expandStatements {head : StepHead σ}
    {expand : String → Nat → List (FeatureStep σ) × Nat}
    (counts : ∀ term next, CountFrom head.seqPath next (expand term next))
    (inner : ∀ term next, ∀ s ∈ (expand term next).1, ∀ d ∈ s.all, d.Built) :
    ∀ d ∈ (FeatureStep.mk head (expandStatements expand 1 (statementsOf head.action))).all,
      d.Built := by
  intro d hd
  rcases mem_all_iff.1 hd with rfl | ⟨c, hc, hd⟩
  · exact ⟨expandStatements_labels expand 1 _, expandStatements_paths counts 1 _⟩
  · obtain ⟨term, next, hc⟩ := mem_expandStatements hc
    exact inner term next c hc d hd

theorem buildStep_head (registry : StepRegistry σ) (library : SourceLibrary) (levels : Nat)
    (action : StepAction σ) (line : SourcedLine) (path : SeqPath) :
    (buildStep registry library levels action line path).head =
      ⟨reportedSource action line, line.text, path, action⟩ := by
  cases levels <;> rfl

theorem built_of_mem_unresolvedStatement {term : String} {location : SourceLocation}
    {parent : SeqPath} {next : Nat} {e : ResolveError} :
    ∀ s ∈ (unresolvedStatement (σ := σ) term location parent next e).1, ∀ d ∈ s.all, d.Built := by
  intro s hs d hd
  obtain rfl := List.mem_singleton.1 hs
  exact mem_all_unresolved hd

/-- Every step of the tree of a line is built. -/
theorem built_of_mem_buildStep (registry : StepRegistry σ) (library : SourceLibrary)
    (levels : Nat) (action : StepAction σ) (line : SourcedLine) (path : SeqPath) :
    ∀ d ∈ (buildStep registry library levels action line path).all, d.Built := by
  induction levels generalizing action line path with
  | zero =>
    rw [buildStep]
    refine built_of_expandStatements (fun term next => ?_) (fun term next => ?_)
    · exact unresolvedStatement_countFrom term line.source path next _
    · exact built_of_mem_unresolvedStatement
  | succ levels ih =>
    rw [buildStep]
    refine built_of_expandStatements (fun term next => ?_) (fun term next => ?_)
    · cases statementLines library term line.source with
      | error e => exact unresolvedStatement_countFrom term line.source path next _
      | ok lines =>
        refine stepsBelow_countFrom path (fun inner innerPath => ?_) next lines
        cases findAction registry inner.text inner.source with
        | ok action => exact congrArg StepHead.seqPath (buildStep_head ..)
        | error e => rfl
    · cases statementLines library term line.source with
      | error e => exact built_of_mem_unresolvedStatement
      | ok lines =>
        intro s hs
        obtain ⟨inner, innerPath, rfl⟩ := mem_stepsBelow hs
        cases findAction registry inner.text inner.source with
        | ok action => exact ih action inner innerPath
        | error e => exact fun d hd => mem_all_unresolved hd

/-- A tree of steps that are built is numbered if none of them has too many below it. -/
theorem numbered_of_built {s : FeatureStep σ} (built : ∀ d ∈ s.all, d.Built)
    (few : ∀ d ∈ s.all, d.children.length ≤ SeqPath.lastIndex) : s.Numbered := by
  intro d hd
  have paths := (built d hd).paths
  have le := few d hd
  rwa [SeqPath.indicesFrom_eq (by omega)] at paths

/-! ## Features -/

/-- Whether a computation can give a value. -/
def Resolving.Gives (x : Resolving σ α) (a : α) : Prop :=
  ∃ r store r' store', (x.run.run r).start store = (.ok (.ok a, r'), store')

theorem Resolving.Gives.of_pure {a b : α} (h : Resolving.Gives (pure a : Resolving σ α) b) :
    b = a := by
  obtain ⟨r, store, r', store', h⟩ := h
  cases h
  rfl

/-- After a computation that gives a value, the next one goes on from where it ended. -/
theorem start_bind_ok {x : Resolving σ α} {r mid : Resolver σ} {store store₁ : σ} {a : α}
    (ran : (x.run.run r).start store = (.ok (.ok a, mid), store₁)) (f : α → Resolving σ β) :
    ((x >>= f).run.run r).start store = ((f a).run.run mid).start store₁ := by
  rw [ExceptT.run_bind, StateT.run_bind, Effect.start_bind, ran]

/-- Of two computations that do not crash, the first fails or both are run. -/
theorem Resolving.cases_of_start_bind {x : Resolving σ α} {f : α → Resolving σ β}
    {r r' : Resolver σ} {store store' : σ} {answer : Except ResolveError β}
    (ran : ((x >>= f).run.run r).start store = (.ok (answer, r'), store')) :
    (∃ e, (x.run.run r).start store = (.ok (.error e, r'), store') ∧ answer = .error e) ∨
      ∃ a mid store₁, (x.run.run r).start store = (.ok (.ok a, mid), store₁) ∧
        ((f a).run.run mid).start store₁ = (.ok (answer, r'), store') := by
  rw [ExceptT.run_bind, StateT.run_bind] at ran
  obtain ⟨⟨first, mid⟩, store₁, ran₁, ran₂⟩ := Effect.ok_of_start_bind ran
  cases first with
  | error e =>
    cases ran₂
    exact .inl ⟨e, ran₁, rfl⟩
  | ok a => exact .inr ⟨a, mid, store₁, ran₁, ran₂⟩

theorem Resolving.Gives.of_bind {x : Resolving σ α} {f : α → Resolving σ β} {b : β}
    (h : Resolving.Gives (x >>= f) b) : ∃ a, Resolving.Gives x a ∧ Resolving.Gives (f a) b := by
  obtain ⟨r, store, r', store', ran⟩ := h
  rcases Resolving.cases_of_start_bind ran with ⟨_, -, none⟩ | ⟨a, mid, store₁, first, rest⟩
  · exact nomatch none
  · exact ⟨a, ⟨r, store, mid, store₁, first⟩, mid, store₁, r', store', rest⟩

/-- What the steps of lines are, of which the first has an index after a position: they are in the
order of their lines, have consecutive indices, and all steps below them are built. -/
structure AreStepsOf (feature position : Nat) (lines : List SourcedLine)
    (steps : List (FeatureStep σ)) : Prop where
  inOrder : (steps.map (·.head.text)).Sublist (lines.map (·.text))
  paths : steps.map seqPath = (List.range' (position + 1) steps.length).map fun i => ⟨[feature, i]⟩
  built : ∀ s ∈ steps, ∀ d ∈ s.all, d.Built

theorem resolveLines_areSteps {steppers : List (Stepper σ)} {library : SourceLibrary}
    {feature position : Nat} {lines : List SourcedLine} {steps : List (FeatureStep σ)}
    (few : position + lines.length ≤ SeqPath.lastIndex)
    (h : (resolveLines steppers library feature position lines).Gives steps) :
    AreStepsOf feature position lines steps := by
  induction lines generalizing position steps with
  | nil =>
    obtain rfl := h.of_pure
    exact ⟨.slnil, rfl, fun s hs => (List.not_mem_nil hs).elim⟩
  | cons line rest ih =>
    rw [List.length_cons] at few
    rw [resolveLines] at h
    obtain ⟨taken, _, h⟩ := h.of_bind
    cases taken with
    | true =>
      have more := ih (by omega) h
      exact ⟨more.inOrder.cons _, more.paths, more.built⟩
    | false =>
      obtain ⟨action, _, h⟩ := h.of_bind
      obtain ⟨r, _, h⟩ := h.of_bind
      obtain ⟨below, hBelow, h⟩ := h.of_bind
      obtain rfl := h.of_pure
      rw [SeqPath.next_eq (by omega)] at hBelow ⊢
      have more := ih (by omega) hBelow
      refine ⟨?_, ?_, List.forall_mem_cons.2 ⟨?_, more.built⟩⟩
      · rw [List.map_cons, List.map_cons, buildStep_head]
        exact more.inOrder.cons_cons _
      · rw [List.map_cons, List.length_cons, List.range'_succ, List.map_cons, more.paths, seqPath,
          buildStep_head]
      · exact built_of_mem_buildStep r.registry library maxStatementDepth action line _

/-- What resolving features gives, of which the first has an index after another. -/
theorem resolveFrom_addresses {steppers : List (Stepper σ)} {library : SourceLibrary}
    {index : Nat} {features : List ExpandedFeature} {resolved : List (ResolvedFeature σ)}
    (few : index + features.length ≤ SeqPath.lastIndex)
    (fewLines : ∀ f ∈ features, f.lines.length ≤ SeqPath.lastIndex)
    (h : (resolveFrom steppers library index features).Gives resolved) :
    resolved.length = features.length ∧
      ∀ k f r, features[k]? = some f → resolved[k]? = some r →
        r.path = f.path ∧ AreStepsOf (index + k + 1) 0 f.lines r.steps := by
  induction features generalizing index resolved with
  | nil =>
    obtain rfl := h.of_pure
    exact ⟨rfl, fun k f r hf => nomatch hf⟩
  | cons feature rest ih =>
    rw [List.length_cons] at few
    obtain ⟨fewFirst, fewRest⟩ := List.forall_mem_cons.1 fewLines
    rw [resolveFrom] at h
    obtain ⟨first, hFirst, h⟩ := h.of_bind
    obtain ⟨more, hMore, h⟩ := h.of_bind
    obtain rfl := h.of_pure
    rw [SeqPath.next_eq (by omega)] at hFirst hMore
    obtain ⟨length, each⟩ := ih (by omega) fewRest hMore
    refine ⟨congrArg (· + 1) length, fun k f r hf hr => ?_⟩
    cases k with
    | zero =>
      obtain rfl := Option.some.inj hf
      obtain rfl := Option.some.inj hr
      obtain ⟨_, _, hFirst⟩ := hFirst.of_bind
      obtain ⟨steps, hSteps, hFirst⟩ := hFirst.of_bind
      obtain rfl := hFirst.of_pure
      exact ⟨rfl, resolveLines_areSteps (by omega) hSteps⟩
    | succ k =>
      obtain ⟨path, areSteps⟩ := each k f r hf hr
      rw [show index + (k + 1) + 1 = index + 1 + k + 1 by omega]
      exact ⟨path, areSteps⟩

/-- The steps of features, without those below them. -/
def topSteps (features : List (ResolvedFeature σ)) : List (FeatureStep σ) :=
  features.flatMap (·.steps)

theorem nodup_topSteps {features : List (ResolvedFeature σ)}
    (paths : ∀ (k : Nat) (r : ResolvedFeature σ), features[k]? = some r → r.steps.map seqPath =
      (List.range' 1 r.steps.length).map fun i => ⟨[k + 1, i]⟩) :
    ((topSteps features).map seqPath).Nodup := by
  rw [topSteps, List.map_flatMap, List.nodup_flatMap]
  refine ⟨fun r hr => ?_, List.pairwise_iff_getElem.2 fun k l hk hl lt path first second => ?_⟩
  · obtain ⟨k, hk⟩ := List.getElem?_of_mem hr
    rw [paths k r hk]
    refine List.Nodup.map (fun i j eq => ?_) List.nodup_range'
    exact (List.cons.inj (List.cons.inj (SeqPath.mk.inj eq)).2).1
  · have atK := paths k _ (List.getElem?_eq_getElem hk)
    have atL := paths l _ (List.getElem?_eq_getElem hl)
    change path ∈ features[k].steps.map seqPath at first
    change path ∈ features[l].steps.map seqPath at second
    rw [atK] at first
    rw [atL] at second
    obtain ⟨i, _, rfl⟩ := List.mem_map.1 first
    obtain ⟨j, _, same⟩ := List.mem_map.1 second
    have index := (List.cons.inj (SeqPath.mk.inj same)).1
    omega

/-- Where features are resolved, and neither they nor their lines nor the steps directly below one
step are too many for the indices: the steps of each feature count from one in the order of their
lines, those directly below a step count from one through all its statements, no address occurs
twice, and an address starts with another exactly where its step is the other step or below it. -/
theorem resolveFeatures_addresses {steppers : List (Stepper σ)} {library : SourceLibrary}
    {features : List ExpandedFeature} {r r' : Resolver σ} {store store' : σ}
    {resolved : List (ResolvedFeature σ)}
    (h : ((resolveFeatures steppers library features).run.run r).start store =
      (.ok (.ok resolved, r'), store'))
    (fewFeatures : features.length ≤ SeqPath.lastIndex)
    (fewLines : ∀ f ∈ features, f.lines.length ≤ SeqPath.lastIndex)
    (fewBelow : ∀ s ∈ (topSteps resolved).flatMap all, s.children.length ≤ SeqPath.lastIndex) :
    resolved.length = features.length ∧
    (∀ (k : Nat) (f : ExpandedFeature) (g : ResolvedFeature σ), features[k]? = some f →
      resolved[k]? = some g → g.path = f.path ∧
      (g.steps.map (·.head.text)).Sublist (f.lines.map (·.text)) ∧
      g.steps.map seqPath = (List.range' 1 g.steps.length).map fun i => ⟨[k + 1, i]⟩) ∧
    (∀ s ∈ (topSteps resolved).flatMap all,
      s.nested.map (·.label) = (statementsOf s.head.action).map (·.label) ∧
      s.children.map seqPath = (List.range' 1 s.children.length).map s.seqPath.child) ∧
    (((topSteps resolved).flatMap all).map seqPath).Nodup ∧
    ∀ a ∈ (topSteps resolved).flatMap all, ∀ b ∈ (topSteps resolved).flatMap all,
      (a.seqPath.startsWith b.seqPath = true ↔ a ∈ b.all) := by
  obtain ⟨length, each⟩ := resolveFrom_addresses (by omega) fewLines ⟨r, store, r', store', h⟩
  have areSteps (k : Nat) (g : ResolvedFeature σ) (hg : resolved[k]? = some g) :
      ∃ f : ExpandedFeature, AreStepsOf (k + 1) 0 f.lines g.steps := by
    obtain ⟨lt, _⟩ := List.getElem?_eq_some_iff.1 hg
    have found : features[k]? = some features[k] := List.getElem?_eq_getElem (by omega)
    have steps := (each k _ g found hg).2
    rw [Nat.zero_add] at steps
    exact ⟨features[k], steps⟩
  have paths (k : Nat) (g : ResolvedFeature σ) (hg : resolved[k]? = some g) :
      g.steps.map seqPath = (List.range' 1 g.steps.length).map fun i => ⟨[k + 1, i]⟩ := by
    obtain ⟨f, steps⟩ := areSteps k g hg
    exact steps.paths
  have top (s : FeatureStep σ) (hs : s ∈ topSteps resolved) :
      (∀ d ∈ s.all, d.Built) ∧ s.seqPath.indices.length = 2 := by
    obtain ⟨g, hg, hs⟩ := List.mem_flatMap.1 hs
    obtain ⟨k, hk⟩ := List.getElem?_of_mem hg
    obtain ⟨f, steps⟩ := areSteps k g hk
    have mem := List.mem_map_of_mem (f := seqPath) hs
    rw [steps.paths] at mem
    obtain ⟨i, _, path⟩ := List.mem_map.1 mem
    exact ⟨steps.built s hs, by rw [← path]; rfl⟩
  have numbered (s : FeatureStep σ) (hs : s ∈ topSteps resolved) : s.Numbered := by
    exact numbered_of_built (top s hs).1 fun d hd => fewBelow d (List.mem_flatMap.2 ⟨s, hs, hd⟩)
  have level (s : FeatureStep σ) (hs : s ∈ topSteps resolved) :
      s.seqPath.indices.length = 2 := (top s hs).2
  have nodup := nodup_topSteps paths
  refine ⟨length, fun k f g hf hg => ?_, fun s hs => ?_, nodup_paths numbered level nodup,
    fun a ha b hb => startsWith_iff_mem_all numbered level nodup ha hb⟩
  · obtain ⟨path, steps⟩ := each k f g hf hg
    exact ⟨path, steps.inOrder, paths k g hg⟩
  · obtain ⟨t, ht, hs⟩ := List.mem_flatMap.1 hs
    exact ⟨((top t ht).1 s hs).labels, numbered t ht s hs⟩

/-! ### Runs without steppers -/

/-- Where no stepper is offered it, the step of a line comes before those of the lines after it. -/
theorem start_resolveLines_cons {library : SourceLibrary} {feature position : Nat}
    {line : SourcedLine} {rest : List SourcedLine} {r : Resolver σ} {store : σ}
    {action : StepAction σ} {steps : List (FeatureStep σ)}
    (found : findAction r.registry line.text line.source = .ok action)
    (later : ((resolveLines [] library feature (SeqPath.next position) rest).run.run r).start
      store = (.ok (.ok steps, r), store)) :
    ((resolveLines [] library feature position (line :: rest)).run.run r).start store =
      (.ok (.ok (buildStep r.registry library maxStatementDepth action line
        ⟨[feature, SeqPath.next position]⟩ :: steps), r), store) := by
  have nobody : ((offerLine [] line : Resolving σ Bool).run.run r).start store =
      (.ok (.ok false, r), store) := rfl
  have reads : ((get : Resolving σ (Resolver σ)).run.run r).start store =
      (.ok (.ok r, r), store) := rfl
  have acts : ((resolveAction line).run.run r).start store = (.ok (.ok action, r), store) := by
    rw [resolveAction, start_bind_ok reads, found]
    rfl
  rw [resolveLines, start_bind_ok nobody, if_neg Bool.false_ne_true, start_bind_ok acts,
    start_bind_ok reads, start_bind_ok later]
  rfl

theorem start_resolveFrom_cons {library : SourceLibrary} {index : Nat} {feature : ExpandedFeature}
    {rest : List ExpandedFeature} {r : Resolver σ} {store : σ} {steps : List (FeatureStep σ)}
    {more : List (ResolvedFeature σ)}
    (first : ((resolveLines [] library (SeqPath.next index) 0 feature.lines).run.run r).start
      store = (.ok (.ok steps, r), store))
    (later : ((resolveFrom [] library (SeqPath.next index) rest).run.run r).start store =
      (.ok (.ok more, r), store)) :
    ((resolveFrom [] library index (feature :: rest)).run.run r).start store =
      (.ok (.ok (⟨feature.path, feature.base, steps⟩ :: more), r), store) := by
  have told : ((([] : List (Stepper σ)).forM fun s =>
      (s.startResolution feature.path : Effect σ Unit) : Resolving σ PUnit).run.run r).start store =
        (.ok (.ok (), r), store) := rfl
  have here : ((resolveFeature [] library (SeqPath.next index) feature).run.run r).start store =
      (.ok (.ok ⟨feature.path, feature.base, steps⟩, r), store) := by
    rw [resolveFeature, start_bind_ok told, start_bind_ok first]
    rfl
  rw [resolveFrom, start_bind_ok here, start_bind_ok later]
  rfl

/-! ### Two statements on a line -/

/-- A step that does nothing. -/
def waitingStep : StepDefinition Unit where
  name := "wait"
  form := .exact "wait"
  action _ := return .ok .passed

/-- A template with two statements. -/
def eitherTemplate : Template where
  text := "do \x7bfirst:statement\x7d or \x7bsecond:statement\x7d"
  matcher := Template.matcherOf [.literal "do ".toList, .slot 3 "first" (some "statement"),
    .literal " or ".toList, .slot 24 "second" (some "statement")]
  schema := [⟨"first", "statement", 3⟩, ⟨"second", "statement", 24⟩]

/-- A step of this template. -/
def eitherStep : StepDefinition Unit where
  name := "either"
  form := .template eitherTemplate.text
  action _ := return .ok .passed

/-- The registry of both steps. -/
def waitRegistry : StepRegistry Unit where
  steps := [⟨"Test", waitingStep, .exact "wait".toList⟩,
    ⟨"Test", eitherStep, .template eitherTemplate⟩]
  domains := []

/-- A background of two lines. -/
def twoBackground : FeatureSource := ⟨"two.feature", "wait\nwait", ""⟩

/-- Its library. -/
def twoLibrary : SourceLibrary := ⟨[twoBackground], []⟩

/-- A line with two statements, of which the first stands for the lines of the background. -/
def eitherLine : SourcedLine := ⟨⟨"first.feature", 2⟩, "do Backgrounds: two or wait"⟩

/-- What resolving a feature of two lines and one of one line gives. -/
def resolvedWait :=
  ((resolveFeatures [] twoLibrary
    [⟨"first.feature", "", [⟨⟨"first.feature", 1⟩, "wait"⟩, eitherLine]⟩,
      ⟨"second.feature", "", [⟨⟨"second.feature", 1⟩, "wait"⟩]⟩]).run.run
    ⟨waitRegistry, []⟩).start ()

/-- The action of a line that waits. -/
def waitAction : StepAction Unit := .resolved "Test" waitingStep []

/-- The action of the line with statements. -/
def eitherAction : StepAction Unit :=
  .resolved "Test" eitherStep [⟨"first", "Backgrounds: two", .statement, "statement"⟩,
    ⟨"second", "wait", .statement, "statement"⟩]

/-- A step that waits, by its line and its address. -/
def waitAt (line : SourcedLine) (path : SeqPath) : FeatureStep Unit :=
  .mk ⟨line.source, line.text, path, waitAction⟩ []

/-- The step of the line with statements. -/
def eitherTree : FeatureStep Unit :=
  .mk ⟨eitherLine.source, eitherLine.text, ⟨[1, 2]⟩, eitherAction⟩
    [.mk "first" [waitAt ⟨⟨"two.feature", 1⟩, "wait"⟩ ⟨[1, 2, 1]⟩,
        waitAt ⟨⟨"two.feature", 2⟩, "wait"⟩ ⟨[1, 2, 2]⟩],
      .mk "second" [waitAt ⟨eitherLine.source, "wait"⟩ ⟨[1, 2, 3]⟩]]

/-- The steps of the features. -/
def waitFeatures : List (ResolvedFeature Unit) :=
  [⟨"first.feature", "", [waitAt ⟨⟨"first.feature", 1⟩, "wait"⟩ ⟨[1, 1]⟩, eitherTree]⟩,
    ⟨"second.feature", "", [waitAt ⟨⟨"second.feature", 1⟩, "wait"⟩ ⟨[2, 1]⟩]⟩]

theorem findAction_wait (location : SourceLocation) :
    findAction waitRegistry "wait" location = .ok waitAction := by
  have wait : (Matcher.exact "wait".toList).match? "wait" = some [] := by decide +kernel
  have either_ : (Matcher.template eitherTemplate).match? "wait" = none := by decide +kernel
  unfold findAction
  rw [waitRegistry, StepRegistry.candidates_cons_of_some wait,
    StepRegistry.candidates_cons_of_none either_, StepRegistry.candidates_nil]
  rfl

theorem findAction_either :
    findAction waitRegistry eitherLine.text eitherLine.source = .ok eitherAction := by
  have wait : (Matcher.exact "wait".toList).match? eitherLine.text = none := by decide +kernel
  have either_ : (Matcher.template eitherTemplate).match? eitherLine.text =
      some eitherAction.captures := by
    decide +kernel
  unfold findAction
  rw [waitRegistry, StepRegistry.candidates_cons_of_none wait,
    StepRegistry.candidates_cons_of_some either_, StepRegistry.candidates_nil]
  rfl

theorem statementLines_two :
    statementLines twoLibrary "Backgrounds: two" eitherLine.source =
      .ok [⟨⟨"two.feature", 1⟩, "wait"⟩, ⟨⟨"two.feature", 2⟩, "wait"⟩] := by
  have raw : rawStatementLines "Backgrounds: two" eitherLine.source =
      [⟨eitherLine.source, "Backgrounds: two"⟩] := by
    decide +kernel
  have read : Include.read? "Backgrounds: two" = some ⟨.backgrounds, ["two"]⟩ := by decide +kernel
  have found : twoLibrary.find? .backgrounds "two" = some twoBackground := by decide +kernel
  have lines : twoBackground.lines =
      [⟨⟨"two.feature", 1⟩, "wait"⟩, ⟨⟨"two.feature", 2⟩, "wait"⟩] := by
    decide +kernel
  have plain : ∀ line ∈ twoBackground.lines, Include.read? line.text = none := by decide +kernel
  have expanded : twoLibrary.expandLine ⟨eitherLine.source, "Backgrounds: two"⟩ =
      .ok twoBackground.lines :=
    (SourceLibrary.expandLine_found read found).trans (SourceLibrary.expandLines_eq_self plain)
  rw [statementLines, raw, mapM_eq_ok_iff.2 (.cons expanded .nil), lines]
  rfl

theorem statementLines_wait :
    statementLines twoLibrary "wait" eitherLine.source = .ok [⟨eitherLine.source, "wait"⟩] := by
  have raw : rawStatementLines "wait" eitherLine.source = [⟨eitherLine.source, "wait"⟩] := by
    decide +kernel
  have plain : Include.read? "wait" = none := by decide +kernel
  have expanded : twoLibrary.expandLine ⟨eitherLine.source, "wait"⟩ =
      .ok [⟨eitherLine.source, "wait"⟩] :=
    SourceLibrary.expandLines_eq_self (List.forall_mem_singleton.2 plain)
  rw [statementLines, raw, mapM_eq_ok_iff.2 (.cons expanded .nil)]
  rfl

theorem buildStep_wait (line : SourcedLine) (path : SeqPath) :
    buildStep waitRegistry twoLibrary maxStatementDepth waitAction line path =
      waitAt line path := rfl

theorem buildStep_either :
    buildStep waitRegistry twoLibrary maxStatementDepth eitherAction eitherLine ⟨[1, 2]⟩ =
      eitherTree := by
  have statements : statementsOf eitherAction = eitherAction.captures := by decide
  rw [maxStatementDepth, buildStep, statements]
  simp only [eitherAction, StepAction.resolved, expandStatements, statementLines_two,
    statementLines_wait, stepsBelow, findAction_wait]
  rfl

theorem resolvedWait_eq : resolvedWait = (.ok (.ok waitFeatures, ⟨waitRegistry, []⟩), ()) := by
  have none_ (feature position : Nat) :
      ((resolveLines [] twoLibrary feature position []).run.run ⟨waitRegistry, []⟩).start () =
        (.ok (.ok [], ⟨waitRegistry, []⟩), ()) := rfl
  have first : ((resolveLines [] twoLibrary 1 0
      [⟨⟨"first.feature", 1⟩, "wait"⟩, eitherLine]).run.run ⟨waitRegistry, []⟩).start () =
        (.ok (.ok [waitAt ⟨⟨"first.feature", 1⟩, "wait"⟩ ⟨[1, 1]⟩, eitherTree],
          ⟨waitRegistry, []⟩), ()) := by
    rw [← buildStep_wait, ← buildStep_either]
    exact start_resolveLines_cons (findAction_wait ⟨"first.feature", 1⟩)
      (start_resolveLines_cons findAction_either (none_ 1 2))
  have second : ((resolveLines [] twoLibrary 2 0
      [⟨⟨"second.feature", 1⟩, "wait"⟩]).run.run ⟨waitRegistry, []⟩).start () =
        (.ok (.ok [waitAt ⟨⟨"second.feature", 1⟩, "wait"⟩ ⟨[2, 1]⟩],
          ⟨waitRegistry, []⟩), ()) := by
    rw [← buildStep_wait]
    exact start_resolveLines_cons (findAction_wait ⟨"second.feature", 1⟩) (none_ 2 1)
  exact start_resolveFrom_cons first (start_resolveFrom_cons second rfl)

/-- The addresses of these steps. Those that start with the address of the second line are that of
the line itself and those of the steps below it: two for its first statement, one for the other. -/
theorem addresses_resolvedWait : ∃ resolved r' store',
    resolvedWait = (.ok (.ok resolved, r'), store') ∧
    ((topSteps resolved).flatMap all).map seqPath =
      [⟨[1, 1]⟩, ⟨[1, 2]⟩, ⟨[1, 2, 1]⟩, ⟨[1, 2, 2]⟩, ⟨[1, 2, 3]⟩, ⟨[2, 1]⟩] ∧
    (((topSteps resolved).flatMap all).map seqPath).Nodup ∧
    ∃ s ∈ topSteps resolved, s.seqPath = ⟨[1, 2]⟩ ∧
      s.children.map seqPath = [⟨[1, 2, 1]⟩, ⟨[1, 2, 2]⟩, ⟨[1, 2, 3]⟩] ∧
      ∀ a ∈ (topSteps resolved).flatMap all,
        (a.seqPath.startsWith s.seqPath = true ↔ a ∈ s.all) := by
  have few : ∀ s ∈ (topSteps waitFeatures).flatMap all, s.children.length ≤ SeqPath.lastIndex := by
    decide +kernel
  have addresses := resolveFeatures_addresses resolvedWait_eq (by decide) (by decide) few
  obtain ⟨-, -, below, nodup, above⟩ := addresses
  have line : eitherTree ∈ (topSteps waitFeatures).flatMap all :=
    List.mem_flatMap.2 ⟨eitherTree, by simp [topSteps, waitFeatures], self_mem_all _⟩
  exact ⟨waitFeatures, _, _, resolvedWait_eq, by decide +kernel, nodup, eitherTree,
    by simp [topSteps, waitFeatures], rfl, (below eitherTree line).2,
    fun a ha => above a ha eitherTree line⟩

end PlainSteps
