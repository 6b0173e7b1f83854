import Mathlib.Data.List.Nodup
import PlainSteps.Proofs.FilePath
import PlainSteps.Proofs.Source.Directive
import PlainSteps.Proofs.Source.Unfolding

/-!
# Files that are named by their whole path

A name that is looked up loses the ending of the files of features before it is compared, and the
path that it is compared with does not. A path with that ending is therefore never recognised as the
path of the file: the file is found by its name only, so not in a directory, and any earlier file
that the name without its ending fits is found in its place.

* `SourceLibrary.AnswersTo`: whether a file fits a path that is written as a name.
* `SourceLibrary.find?_eq_some_iff`: the first file that fits is found.
* `SourceLibrary.answersTo_self_iff`: a file fits its own path only outside directories.
* `SourceLibrary.expandLine_path`: what becomes of the directive that names a file by its path.

Proof-only: no module that runs imports this one.
-/

namespace PlainSteps.SourceLibrary

variable {l : SourceLibrary} {kind : IncludeKind}

/-! ## Endings -/

/-- What remains of a text without its ending is all that the ending has to be put behind. -/
theorem dropEnding?_eq_some_iff {ending s rest : String} :
    dropEnding? ending s = some rest ↔ s = rest ++ ending := by
  rw [dropEnding?, Option.map_eq_some_iff]
  constructor
  · rintro ⟨cs, found, rfl⟩
    have reversed := congrArg List.reverse (Text.isPrefixOf?_eq_some_iff.1 found)
    refine String.toList_injective ?_
    simpa [String.toList_append] using reversed
  · rintro rfl
    refine ⟨rest.toList.reverse, Text.isPrefixOf?_eq_some_iff.2 ?_, ?_⟩
    · simp [String.toList_append]
    · simp

theorem isSome_dropEnding?_iff {ending s : String} :
    (dropEnding? ending s).isSome = true ↔ ∃ rest, s = rest ++ ending := by
  simp only [Option.isSome_iff_exists, dropEnding?_eq_some_iff]

/-! ## Names that are paths -/

/-- Whether a file fits a path that is written as a name: its name or its path is what stands before
the ending, or the path is the end of its own behind a slash. -/
def AnswersTo (t : FeatureSource) (path : String) : Prop :=
  t.name ++ featureEnding = path ∨ t.path ++ featureEnding = path ∨
    ∃ directory, t.path = directory ++ "/" ++ path

theorem hasName_iff {t : FeatureSource} {stem : String} :
    hasName t stem = true ↔ AnswersTo t (stem ++ featureEnding) := by
  have below : (dropEnding? featureEnding t.path).any
      (fun rest => (dropEnding? ("/" ++ stem) rest).isSome) = true ↔
        ∃ directory, t.path = directory ++ "/" ++ (stem ++ featureEnding) := by
    rw [Option.any_eq_true]
    simp only [dropEnding?_eq_some_iff, isSome_dropEnding?_iff]
    constructor
    · rintro ⟨_, path, directory, rfl⟩
      exact ⟨directory, by rw [path]; simp only [String.append_assoc]⟩
    · rintro ⟨directory, path⟩
      exact ⟨directory ++ ("/" ++ stem), by rw [path]; simp only [String.append_assoc],
        directory, rfl⟩
  rw [hasName, Bool.or_eq_true, Bool.or_eq_true, beq_iff_eq, beq_iff_eq, below, AnswersTo,
    String.append_left_inj, String.append_left_inj, or_assoc]

section Path

variable {path stem : String} (ends : path = stem ++ featureEnding)

include ends

theorem answersTo_iff {t : FeatureSource} : AnswersTo t path ↔ hasName t stem = true := by
  rw [ends, hasName_iff]

theorem find?_path : l.find? kind path = (l.sources kind).find? (hasName · stem) := by
  rw [find?, dropEnding?_eq_some_iff.2 ends, Option.getD_some]

/-- The first file that fits is found. -/
theorem find?_eq_some_iff {t : FeatureSource} :
    l.find? kind path = some t ↔ AnswersTo t path ∧
      ∃ before after, l.sources kind = before ++ t :: after ∧ ∀ u ∈ before, ¬ AnswersTo u path := by
  simp only [find?_path ends, List.find?_eq_some_iff_append, answersTo_iff ends,
    Bool.not_eq_true', ← Bool.not_eq_true]

theorem find?_eq_none_iff :
    l.find? kind path = none ↔ ∀ t ∈ l.sources kind, ¬ AnswersTo t path := by
  simp only [find?_path ends, List.find?_eq_none, answersTo_iff ends]

end Path

/-! ## A file and its own path -/

section Own

variable {s : FeatureSource} {stem : String} (ends : s.path = stem ++ featureEnding)

include ends

theorem name_eq_stem_iff : s.name = stem ↔ '/' ∉ s.path.toList ∧ s.path ≠ featureEnding := by
  have chars : s.path.toList = stem.toList ++ featureEnding.toList := by
    rw [ends, String.toList_append]
  constructor
  · intro named
    cases found : FilePath.stem? s.path with
    | none =>
      -- The name is the whole path, which is longer than the path without its ending.
      have whole : s.path = stem := by rw [← named, FeatureSource.name, found, Option.getD_none]
      rw [whole, List.self_eq_append_right] at chars
      exact absurd chars (by decide)
    | some own =>
      obtain rfl : own = stem := by rw [← named, FeatureSource.name, found, Option.getD_some]
      refine ⟨?_, fun bare => ?_⟩
      · rw [chars, List.mem_append, not_or]
        exact ⟨FilePath.slash_not_mem_of_stem? found, by decide⟩
      · have hidden : FilePath.stem? featureEnding = some featureEnding := by decide
        rw [bare, hidden] at found
        cases found
        exact absurd (ends.symm.trans bare) (by decide)
  · rintro ⟨single, filled⟩
    have parts : s.path = stem ++ "." ++ "feature" := by
      rw [ends, String.append_assoc]
      rfl
    have ne : stem ≠ "" := by
      rintro rfl
      exact filled (by rw [ends, String.empty_append])
    have long : 2 < s.path.toList.length := by
      rw [chars, List.length_append]
      exact Nat.lt_add_left _ (by decide)
    have solid : s.path ∉ ["", ".", ".."] := by
      simp only [List.mem_cons, List.not_mem_nil, or_false]
      rintro (same | same | same) <;> rw [same] at long <;> exact absurd long (by decide)
    rw [parts] at single solid
    rw [FeatureSource.name, parts, FilePath.stem?_of_single single solid ne (by decide),
      Option.getD_some]

/-- A file fits its own path only outside directories. -/
theorem answersTo_self_iff : AnswersTo s s.path ↔ '/' ∉ s.path.toList ∧ s.path ≠ featureEnding := by
  have longer : s.path ++ featureEnding ≠ s.path := by
    intro same
    have chars := congrArg String.toList same
    rw [String.toList_append, List.append_right_eq_self] at chars
    exact absurd chars (by decide)
  have inside : ¬ ∃ directory, s.path = directory ++ "/" ++ s.path := by
    rintro ⟨directory, same⟩
    have chars := congrArg String.toList same
    rw [String.toList_append, List.self_eq_append_left, String.toList_append] at chars
    exact absurd chars (List.append_ne_nil_of_right_ne_nil _ (by decide))
  rw [AnswersTo, or_iff_left inside, or_iff_left longer, ends, String.append_left_inj,
    name_eq_stem_iff ends, ends]

end Own

/-! ## The directive for a path -/

/-- The directive that names a file by its whole path is read as that name. The file is found only
if it is in no directory and no earlier file fits. The directive stands for the lines of the first
file that fits, which may be another, and where no file fits it is missing. -/
theorem expandLine_path {before after : List FeatureSource} {s : FeatureSource} {stem : String}
    (listed : l.sources kind = before ++ s :: after)
    (distinct : ((l.sources kind).map (·.path)).Nodup) (ends : s.path = stem ++ featureEnding)
    (named : IsSourceName s.path) (location : SourceLocation) :
    let line : SourcedLine := ⟨location, Include.directive kind s.path⟩
    Include.read? line.text = some ⟨kind, [s.path]⟩ ∧
      (l.find? kind s.path = some s ↔
        '/' ∉ s.path.toList ∧ s.path ≠ featureEnding ∧ ∀ t ∈ before, ¬ AnswersTo t s.path) ∧
      (∀ first t rest, l.sources kind = first ++ t :: rest → AnswersTo t s.path →
        (∀ u ∈ first, ¬ AnswersTo u s.path) →
          l.find? kind s.path = some t ∧ l.expandLine line = l.expandLines [t.path] t.lines) ∧
      ((∀ t ∈ l.sources kind, ¬ AnswersTo t s.path) →
        l.find? kind s.path = none ∧
          l.expandLine line = .error (.missingInclude kind s.path location)) := by
  intro line
  have read : Include.read? line.text = some ⟨kind, [s.path]⟩ := named.read?_directive kind
  refine ⟨read, ?itself, fun first t rest split fits earlier => ?other, fun nobody => ?missing⟩
  case itself =>
    rw [← and_assoc, ← answersTo_self_iff ends]
    constructor
    · intro found
      obtain ⟨fits, first, rest, split, earlier⟩ := (find?_eq_some_iff ends).1 found
      -- No two files have one path, so that the file stands at one place only.
      have single : (before ++ s :: after).Nodup := listed ▸ List.Nodup.of_map _ distinct
      have apart : s ∉ before ++ after := (List.nodup_cons.1 (List.nodup_middle.1 single)).1
      rw [List.mem_append, not_or] at apart
      obtain ⟨rfl, -⟩ :=
        (List.append_cons_inj_of_notMem apart.1 apart.2).1 (listed.symm.trans split)
      exact ⟨fits, earlier⟩
    · rintro ⟨fits, earlier⟩
      exact (find?_eq_some_iff ends).2 ⟨fits, before, after, listed, earlier⟩
  case other =>
    have found := (find?_eq_some_iff ends).2 ⟨fits, first, rest, split, earlier⟩
    exact ⟨found, expandLine_found read found⟩
  case missing =>
    have missing := (find?_eq_none_iff ends).2 nobody
    exact ⟨missing, expandLine_missing read missing⟩

/-! ### Two files with one name -/

def cart : FeatureSource := ⟨"cart.feature", "open cart", ""⟩

def subLogin : FeatureSource := ⟨"sub/login.feature", "open sub", ""⟩

def login : FeatureSource := ⟨"login.feature", "open login", ""⟩

/-- Three backgrounds, of which two have one name. -/
def twoLogins : SourceLibrary := ⟨[cart, subLogin, login], []⟩

/-- The first background is found by its path. The path of the last one stands for the lines of the
second, and the path of the second one is missing. -/
theorem expandLine_twoLogins :
    twoLogins.expandLine ⟨⟨"main.feature", 1⟩, "Backgrounds: cart.feature"⟩ =
        .ok [⟨⟨"cart.feature", 1⟩, "open cart"⟩] ∧
      twoLogins.expandLine ⟨⟨"main.feature", 2⟩, "Backgrounds: login.feature"⟩ =
        .ok [⟨⟨"sub/login.feature", 1⟩, "open sub"⟩] ∧
      twoLogins.expandLine ⟨⟨"main.feature", 3⟩, "Backgrounds: sub/login.feature"⟩ =
        .error (.missingInclude .backgrounds "sub/login.feature" ⟨"main.feature", 3⟩) := by
  have distinct : ((twoLogins.sources .backgrounds).map (·.path)).Nodup := by decide
  have atCart : twoLogins.sources .backgrounds = [] ++ cart :: [subLogin, login] := rfl
  have atSub : twoLogins.sources .backgrounds = [cart] ++ subLogin :: [login] := rfl
  have atLogin : twoLogins.sources .backgrounds = [cart, subLogin] ++ login :: [] := rfl
  have cartEnds : cart.path = "cart" ++ featureEnding := rfl
  have subEnds : subLogin.path = "sub/login" ++ featureEnding := rfl
  have loginEnds : login.path = "login" ++ featureEnding := rfl
  have cartNamed : IsSourceName cart.path := by decide
  have subNamed : IsSourceName subLogin.path := by decide
  have loginNamed : IsSourceName login.path := by decide
  have plain (t : FeatureSource) (line : SourcedLine) (lines : t.lines = [line])
      (read : Include.read? line.text = none) :
      twoLogins.expandLines [t.path] t.lines = .ok [line] := by
    rw [lines]
    exact expandLines_eq_self (List.forall_mem_singleton.2 read)
  obtain ⟨-, -, atPath, -⟩ := expandLine_path atCart distinct cartEnds cartNamed ⟨"main.feature", 1⟩
  obtain ⟨-, -, atEnd, -⟩ := expandLine_path atLogin distinct loginEnds loginNamed
    ⟨"main.feature", 2⟩
  obtain ⟨-, -, -, nowhere⟩ := expandLine_path atSub distinct subEnds subNamed
    ⟨"main.feature", 3⟩
  refine ⟨?_, ?_, ?_⟩
  · have fits : AnswersTo cart cart.path := (answersTo_iff cartEnds).2 (by decide +kernel)
    have found := atPath _ _ _ atCart fits (List.forall_mem_nil _)
    exact found.2.trans
      (plain cart ⟨⟨"cart.feature", 1⟩, "open cart"⟩ (by decide +kernel) (by decide))
  · have fits : AnswersTo subLogin login.path := (answersTo_iff loginEnds).2 (by decide +kernel)
    have other : ∀ u ∈ [cart], ¬ AnswersTo u login.path := by
      simp only [answersTo_iff loginEnds]
      decide +kernel
    have found := atEnd _ _ _ atSub fits other
    exact found.2.trans
      (plain subLogin ⟨⟨"sub/login.feature", 1⟩, "open sub"⟩ (by decide +kernel) (by decide))
  · have nobody : ∀ t ∈ twoLogins.sources .backgrounds, ¬ AnswersTo t subLogin.path := by
      simp only [answersTo_iff subEnds]
      decide +kernel
    exact (nowhere nobody).2

/-- Not every file whose path is written is found. -/
theorem not_all_paths_found :
    ¬ ∀ (l : SourceLibrary) (kind : IncludeKind) (s : FeatureSource) (location : SourceLocation),
      ((l.sources kind).map (·.path)).Nodup → s ∈ l.sources kind →
        (∃ stem, s.path = stem ++ featureEnding) → IsSourceName s.path →
          l.expandLine ⟨location, Include.directive kind s.path⟩ ≠
            .error (.missingInclude kind s.path location) := by
  intro found
  have named : IsSourceName subLogin.path := by decide
  have ends : subLogin.path = "sub/login" ++ featureEnding := rfl
  let line : SourcedLine := ⟨⟨"main.feature", 1⟩, Include.directive .backgrounds subLogin.path⟩
  have read : Include.read? line.text = some ⟨.backgrounds, [subLogin.path]⟩ :=
    named.read?_directive .backgrounds
  have missing : SourceLibrary.find? ⟨[subLogin], []⟩ .backgrounds subLogin.path = none := by
    decide +kernel
  exact found ⟨[subLogin], []⟩ .backgrounds subLogin line.source (by decide)
    List.mem_cons_self ⟨_, ends⟩ named (expandLine_missing read missing)

end PlainSteps.SourceLibrary
