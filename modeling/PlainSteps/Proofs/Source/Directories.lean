import Mathlib.Data.List.Nodup
import PlainSteps.Proofs.FilePath
import PlainSteps.Proofs.Source.Unfolding
import PlainSteps.Source.Collection

/-!
# Backgrounds of directories

The files named `background` in a directory and in those around it stand before a feature, from the
outermost directory inwards. Directories are compared part by part, so that a directory whose name
only starts as that of another has nothing to do with it.

* `FeatureSource.folder`: the parts of the directory of a file.
* `Collection.IsScope`: the backgrounds of a feature in their order, and `IsScope.unique`.
* `Collection.isScope_backgroundsOf`: the files that are put before a feature are these.
* `Collection.IsExpanded`: the lines of a feature and of its backgrounds, without directives.
* `Collection.expand_isExpanded`: each feature is expanded to these lines.

Proof-only: no module that runs imports this one.
-/

namespace PlainSteps

open FilePath

/-! ## Directories -/

/-- The parts of the directory of a file: those of its path without the last. -/
def FeatureSource.folder (s : FeatureSource) : List Component := (components s.path).dropLast

theorem FeatureSource.components_directory (s : FeatureSource) :
    components s.directory = s.folder := FilePath.components_directory s.path

theorem FeatureSource.isWithin_iff (a b : FeatureSource) :
    isWithin a.directory b.directory = true ↔ a.folder <+: b.folder := by
  rw [isWithin, a.components_directory, b.components_directory, List.isPrefixOf_iff_prefix]

/-! ## Lines -/

section Lines

variable {library : SourceLibrary}

theorem SourceLibrary.flattens_of_mapM {lines : List SourcedLine} {parts : List (List SourcedLine)}
    (h : lines.mapM library.expandLine = .ok parts) : library.Flattens lines parts.flatten := by
  induction lines generalizing parts with
  | nil =>
    cases h
    exact .nil
  | cons line rest ih =>
    rw [List.mapM_cons] at h
    obtain ⟨here, first, h⟩ := ok_of_bind h
    obtain ⟨more, others, h⟩ := ok_of_bind h
    cases h
    exact (flattens_of_expandLines library [] [line] here first).append (ih others)

/-- The lines that are left of the lines of several files are those of each file in turn. -/
theorem SourceLibrary.forall₂_flattens {files : List FeatureSource}
    {parts : List (List SourcedLine)}
    (h : (files.flatMap (·.lines)).mapM library.expandLine = .ok parts) :
    ∃ each, List.Forall₂ (fun s part => library.Flattens s.lines part) files each ∧
      parts.flatten = each.flatten := by
  induction files generalizing parts with
  | nil =>
    cases h
    exact ⟨[], .nil, rfl⟩
  | cons s rest ih =>
    rw [List.flatMap_cons, List.mapM_append] at h
    obtain ⟨own, first, h⟩ := ok_of_bind h
    obtain ⟨more, others, h⟩ := ok_of_bind h
    cases h
    obtain ⟨each, below, same⟩ := ih others
    refine ⟨own.flatten :: each, .cons (flattens_of_mapM first) below, ?_⟩
    rw [List.flatten_append, List.flatten_cons, same]

end Lines

namespace Collection

variable {sources : List FeatureSource} {c : Collection} {f : FeatureSource}

theorem depth_eq (s : FeatureSource) : depth s = s.folder.length := by
  rw [depth, s.components_directory]

/-! ## Files that are collected -/

theorem duplicate?_eq_none_iff {seen paths : List String} :
    duplicate? seen paths = none ↔ paths.Nodup ∧ ∀ p ∈ paths, p ∉ seen := by
  induction paths generalizing seen with
  | nil => simp [duplicate?]
  | cons path rest ih =>
    rw [duplicate?]
    split
    · next again => simp [again]
    · next fresh =>
      rw [ih, List.nodup_cons]
      simp only [List.mem_cons, not_or, forall_eq_or_imp]
      constructor
      · rintro ⟨once, others⟩
        exact ⟨⟨fun mem => (others path mem).1 rfl, once⟩, fresh, fun p hp => (others p hp).2⟩
      · rintro ⟨⟨single, once⟩, -, others⟩
        exact ⟨once, fun p hp => ⟨fun same => single (same ▸ hp), others p hp⟩⟩

/-- Files are collected where no two have one path. -/
theorem ofSources_eq_ok (h : ofSources sources = .ok c) :
    (sources.map (·.path)).Nodup ∧
      c = ⟨sources.filter (! isDirectoryBackground ·), sources.filter isDirectoryBackground⟩ := by
  unfold ofSources at h
  split at h
  · cases h
  · next none =>
    simp only at h
    split at h
    · cases h
    · cases h
      exact ⟨(duplicate?_eq_none_iff.1 none).1, rfl⟩

/-! ## Backgrounds of a feature -/

/-- These are the directory backgrounds of a feature among files, each once: from the outermost
directory inwards, and in the order of the files within one directory. -/
structure IsScope (sources : List FeatureSource) (f : FeatureSource)
    (scope : List FeatureSource) : Prop where
  mem_iff (b : FeatureSource) :
    b ∈ scope ↔ b ∈ sources ∧ b.name = "background" ∧ b.folder <+: f.folder
  nodup : scope.Nodup
  inwards : scope.Pairwise fun a b => a.folder <+: b.folder
  collected : scope.Pairwise fun a b => a.folder = b.folder → [a, b].Sublist sources

/-- Of two items of a list the one or the other comes first. -/
theorem sublist_or_sublist {α : Type} {xs : List α} {a b : α} (ha : a ∈ xs) (hb : b ∈ xs)
    (ne : a ≠ b) : [a, b].Sublist xs ∨ [b, a].Sublist xs := by
  obtain ⟨front, rest, rfl⟩ := List.append_of_mem ha
  rcases List.mem_append.1 hb with before | after
  · have first : [b].Sublist front := List.singleton_sublist.2 before
    exact .inr (first.append (List.singleton_sublist.2 List.mem_cons_self))
  · have later : b ∈ rest := (List.mem_cons.1 after).resolve_left (Ne.symm ne)
    have both : [a, b].Sublist (a :: rest) := (List.singleton_sublist.2 later).cons_cons a
    exact .inl (both.trans (List.sublist_append_right front (a :: rest)))

/-- In a list without repetitions only one of two items comes first. -/
theorem eq_of_sublist_of_sublist {α : Type} {xs : List α} (nodup : xs.Nodup) {a b : α}
    (h : [a, b].Sublist xs) (h' : [b, a].Sublist xs) : a = b := by
  induction xs with
  | nil => cases h
  | cons x xs ih =>
    obtain ⟨fresh, nodup⟩ := List.nodup_cons.1 nodup
    cases h with
    | cons _ h =>
      cases h' with
      | cons _ h' => exact ih nodup h h'
      | cons_cons _ _ => exact absurd (h.subset (by simp)) fresh
    | cons_cons _ _ =>
      cases h' with
      | cons _ h' => exact absurd (h'.subset (by simp)) fresh
      | cons_cons _ _ => rfl

/-- There is only one way to put the backgrounds of a feature. -/
theorem IsScope.unique (single : sources.Nodup) {scope scope' : List FeatureSource}
    (h : IsScope sources f scope) (h' : IsScope sources f scope') : scope = scope' := by
  have perm : scope.Perm scope' := (List.perm_ext_iff_of_nodup h.nodup h'.nodup).2 fun b => by
    rw [h.mem_iff, h'.mem_iff]
  refine perm.eq_of_pairwise (fun a b _ _ before after => ?_) (h.inwards.and h.collected)
    (h'.inwards.and h'.collected)
  have same : a.folder = b.folder := before.1.eq_of_length_le after.1.length_le
  exact eq_of_sublist_of_sublist single (before.2 same) (after.2 same.symm)

private theorem depth_trans (a b c : FeatureSource) (h : decide (depth a ≤ depth b) = true)
    (h' : decide (depth b ≤ depth c) = true) : decide (depth a ≤ depth c) = true :=
  decide_eq_true (Nat.le_trans (of_decide_eq_true h) (of_decide_eq_true h'))

private theorem depth_total (a b : FeatureSource) :
    (decide (depth a ≤ depth b) || decide (depth b ≤ depth a)) = true := by
  simpa using Nat.le_total (depth a) (depth b)

/-- The files that are put before a feature are its directory backgrounds. -/
theorem isScope_backgroundsOf (h : ofSources sources = .ok c) (f : FeatureSource) :
    IsScope sources f (c.backgroundsOf f) := by
  obtain ⟨paths, rfl⟩ := ofSources_eq_ok h
  unfold backgroundsOf
  dsimp only
  generalize around_eq : (sources.filter isDirectoryBackground).filter (fun b =>
    isWithin b.directory f.directory) = around
  have part : around.Sublist sources :=
    around_eq ▸ List.filter_sublist.trans List.filter_sublist
  have within (b : FeatureSource) :
      b ∈ around ↔ b ∈ sources ∧ b.name = "background" ∧ b.folder <+: f.folder := by
    rw [← around_eq, List.mem_filter, List.mem_filter, FeatureSource.isWithin_iff,
      isDirectoryBackground, beq_iff_eq, and_assoc]
  have perm := List.mergeSort_perm around fun a b => depth a ≤ depth b
  have deeper := List.pairwise_mergeSort depth_trans depth_total around
  have nodup : (around.mergeSort fun a b => depth a ≤ depth b).Nodup :=
    perm.nodup_iff.2 ((List.Nodup.of_map _ paths).sublist part)
  refine ⟨fun b => perm.mem_iff.trans (within b), nodup, ?inwards, ?collected⟩
  case inwards =>
    refine deeper.imp_of_mem fun {a b} ha hb le => ?_
    have above := ((within a).1 (perm.mem_iff.1 ha)).2.2
    have below := ((within b).1 (perm.mem_iff.1 hb)).2.2
    rw [decide_eq_true_iff, depth_eq, depth_eq] at le
    exact List.prefix_of_prefix_length_le above below le
  case collected =>
    refine List.pairwise_iff_forall_sublist.2 fun {a b} first same => ?_
    have ne : a ≠ b := by
      rintro rfl
      exact List.nodup_iff_sublist.1 nodup a first
    have ha := perm.mem_iff.1 (first.subset (List.mem_cons_self))
    have hb := perm.mem_iff.1 (first.subset (List.mem_cons_of_mem a List.mem_cons_self))
    rcases sublist_or_sublist ha hb ne with before | after
    · exact before.trans part
    · -- The sort is stable, so that files of one depth stay as they are.
      have level : decide (depth b ≤ depth a) = true := by
        exact decide_eq_true (Nat.le_of_eq (by rw [depth_eq, depth_eq, same]))
      have back := List.pair_sublist_mergeSort depth_trans depth_total level after
      exact absurd (eq_of_sublist_of_sublist nodup first back) ne

/-! ## Expansion -/

/-- A feature has the lines of its directory backgrounds and then its own, and every directive among
them has been replaced. -/
structure IsExpanded (library : SourceLibrary) (sources : List FeatureSource) (f : FeatureSource)
    (e : ExpandedFeature) : Prop where
  path : e.path = f.path
  base : e.base = f.base
  lines : ∃ scope parts, IsScope sources f scope ∧
    List.Forall₂ (fun s part => library.Flattens s.lines part) (scope ++ [f]) parts ∧
    e.lines = parts.flatten

theorem expandFeature_isExpanded (h : ofSources sources = .ok c) {library : SourceLibrary}
    {e : ExpandedFeature} (expanded : c.expandFeature library f = .ok e) :
    IsExpanded library sources f e := by
  obtain ⟨parts, lines, same⟩ := ok_of_bind expanded
  cases same
  obtain ⟨each, below, whole⟩ := SourceLibrary.forall₂_flattens lines
  exact ⟨rfl, rfl, _, each, isScope_backgroundsOf h f, below, whole⟩

/-- Among collected files each that is no background is a feature, which is expanded in its place:
to the lines of the backgrounds of its directory and of those around it, each once and from the
outermost directory inwards, and then to its own. A background in a directory that stands beside one
of these is none of them, whatever the two names have in common. -/
theorem expand_isExpanded (collected : ofSources sources = .ok c) {library : SourceLibrary}
    {out : List ExpandedFeature} (expanded : c.expand library = .ok out) :
    List.Forall₂ (IsExpanded library sources)
        (sources.filter fun s => s.name ≠ "background") out ∧
      ∀ f scope, IsScope sources f scope → ∀ (above : List Component) (own other : String),
        own ≠ other → above ++ [.name own] <+: f.folder →
          ∀ b, above ++ [.name other] <+: b.folder → b ∉ scope := by
  constructor
  · have features : sources.filter (fun s => s.name ≠ "background") = c.features := by
      obtain ⟨-, rfl⟩ := ofSources_eq_ok collected
      refine List.filter_congr fun s _ => ?_
      rw [isDirectoryBackground, decide_not, beq_eq_decide]
    rw [features]
    exact (forall₂_of_mapM expanded).imp fun f e => expandFeature_isExpanded collected
  · intro f scope isScope above own other ne around b beside mem
    have inside := beside.trans ((isScope.mem_iff b).1 mem).2.2
    have same := List.prefix_of_prefix_length_le around inside (by simp)
    have same := same.eq_of_length (by simp)
    have last := List.singleton_inj.1 (List.append_cancel_left same)
    exact ne (Component.name.inj last)

/-! ### Directories with similar names -/

def shopBackground : FeatureSource := ⟨"features/shop/background.feature", "open shop", "features"⟩

def topBackground : FeatureSource := ⟨"features/background.feature", "start", "features"⟩

def cart : FeatureSource := ⟨"features/shop/cart.feature", "Backgrounds: login\ncheck", "features"⟩

/-- The name of the directory continues that of the feature. -/
def shoppingBackground : FeatureSource :=
  ⟨"features/shopping/background.feature", "open mall", "features"⟩

/-- The name of the directory is a start of that of the feature. -/
def shoBackground : FeatureSource := ⟨"features/sho/background.feature", "open box", "features"⟩

/-- A feature and backgrounds of directories in, around and beside which it is. -/
def shopFiles : List FeatureSource :=
  [shopBackground, shoppingBackground, topBackground, cart, shoBackground]

/-- A background that the feature includes. -/
def loginBackground : FeatureSource := ⟨"backgrounds/login.feature", "open login", "backgrounds"⟩

theorem isScope_cart : IsScope shopFiles cart [topBackground, shopBackground] where
  mem_iff b := by
    have files : ∀ b ∈ shopFiles, b ∈ [topBackground, shopBackground] ↔
        b.name = "background" ∧ b.folder <+: cart.folder := by decide +kernel
    have listed : ∀ b ∈ [topBackground, shopBackground], b ∈ shopFiles := by decide +kernel
    exact ⟨fun h => ⟨listed b h, (files b (listed b h)).1 h⟩, fun h => (files b h.1).2 h.2⟩
  nodup := by decide +kernel
  inwards := by decide +kernel
  collected := by decide +kernel

/-- The lines of the feature. -/
def cartLines : List SourcedLine :=
  [⟨⟨topBackground.path, 1⟩, "start"⟩, ⟨⟨shopBackground.path, 1⟩, "open shop"⟩,
    ⟨⟨loginBackground.path, 1⟩, "open login"⟩, ⟨⟨cart.path, 2⟩, "check"⟩]

theorem expand_shopFiles : ∃ c, ofSources shopFiles = .ok c ∧
    c.expand ⟨[loginBackground], []⟩ = .ok [⟨cart.path, "features", cartLines⟩] := by
  obtain ⟨c, collected, features⟩ : ∃ c, ofSources shopFiles = .ok c ∧ c.features = [cart] :=
    ⟨_, rfl, by decide +kernel⟩
  have scope : c.backgroundsOf cart = [topBackground, shopBackground] :=
    (isScope_backgroundsOf collected cart).unique (by decide +kernel) isScope_cart
  have top : topBackground.lines = [⟨⟨topBackground.path, 1⟩, "start"⟩] := by decide +kernel
  have shop : shopBackground.lines = [⟨⟨shopBackground.path, 1⟩, "open shop"⟩] := by
    decide +kernel
  have own : cart.lines =
      [⟨⟨cart.path, 1⟩, "Backgrounds: login"⟩, ⟨⟨cart.path, 2⟩, "check"⟩] := by decide +kernel
  have plain (library : SourceLibrary) (line : SourcedLine)
      (read : Include.read? line.text = none) : library.expandLine line = .ok [line] :=
    SourceLibrary.expandLines_eq_self (List.forall_mem_singleton.2 read)
  have login : SourceLibrary.expandLine ⟨[loginBackground], []⟩
      ⟨⟨cart.path, 1⟩, "Backgrounds: login"⟩ =
        .ok [⟨⟨loginBackground.path, 1⟩, "open login"⟩] := by
    have lines : loginBackground.lines = [⟨⟨loginBackground.path, 1⟩, "open login"⟩] := by
      decide +kernel
    have read : Include.read? "Backgrounds: login" = some ⟨.backgrounds, ["login"]⟩ := by decide
    have found : SourceLibrary.find? ⟨[loginBackground], []⟩ .backgrounds "login" =
        some loginBackground := by decide +kernel
    rw [SourceLibrary.expandLine_found read found, lines]
    exact SourceLibrary.expandLines_eq_self (List.forall_mem_singleton.2 (by decide))
  refine ⟨c, collected, ?_⟩
  rw [expand, features]
  simp only [List.mapM_cons, List.mapM_nil, expandFeature, scope, List.flatMap_cons,
    List.flatMap_nil, List.cons_append, List.nil_append, top, shop, own, login,
    plain _ ⟨⟨topBackground.path, 1⟩, "start"⟩ (by decide),
    plain _ ⟨⟨shopBackground.path, 1⟩, "open shop"⟩ (by decide),
    plain _ ⟨⟨cart.path, 2⟩, "check"⟩ (by decide)]
  rfl

/-- The feature has the lines of the two backgrounds above it, with those of the included file in
place of the directive. The backgrounds beside its directory stand before nothing. -/
theorem expand_isExpanded_cart : ∃ c e, ofSources shopFiles = .ok c ∧
    c.expand ⟨[loginBackground], []⟩ = .ok [e] ∧
    e.lines.map (·.text) = ["start", "open shop", "open login", "check"] ∧
    IsExpanded ⟨[loginBackground], []⟩ shopFiles cart e ∧
    ∀ b ∈ [shoppingBackground, shoBackground], b ∉ [topBackground, shopBackground] := by
  obtain ⟨c, collected, expanded⟩ := expand_shopFiles
  obtain ⟨each, beside⟩ := expand_isExpanded collected expanded
  have features : shopFiles.filter (fun s => s.name ≠ "background") = [cart] := by decide +kernel
  rw [features] at each
  have apart := beside cart _ isScope_cart [.name "features"] "shop"
  refine ⟨c, _, collected, expanded, rfl, (List.forall₂_cons.1 each).1, ?_⟩
  refine List.forall_mem_cons.2 ⟨?_, List.forall_mem_singleton.2 ?_⟩
  · exact apart "shopping" (by decide) (by decide +kernel) shoppingBackground (by decide +kernel)
  · exact apart "sho" (by decide) (by decide +kernel) shoBackground (by decide +kernel)

end Collection

end PlainSteps
