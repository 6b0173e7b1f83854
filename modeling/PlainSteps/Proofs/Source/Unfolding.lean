import PlainSteps.Proofs.Effect
import PlainSteps.Source.Library

/-!
# The unfolding of include directives

A directive puts the lines of the files it names in its place, and these may be directives again.
The unfolding of a line has layers: the line, the lines it puts in its place, the lines that these
put in their places, and so on.

* `SourceLibrary.Flattens`: the lines that are left when every directive has been replaced.
* `SourceLibrary.flattens_of_expandLines`: what an expansion that succeeds gives.
* `SourceLibrary.fault_of_expandLines`: what an expansion that fails says.
* `SourceLibrary.expandLine_unfolds`: a line is expanded exactly when its unfolding ends and every
  name in it is found, and a file that is included twice is no cycle.

Proof-only: no module that runs imports this one.
-/

namespace PlainSteps.SourceLibrary

variable {l : SourceLibrary}

/-! ## Layers -/

/-- The files of both kinds. -/
def files (l : SourceLibrary) : List FeatureSource := l.backgrounds ++ l.scenarios

theorem mem_files {kind : IncludeKind} {name : String} {s : FeatureSource}
    (found : l.find? kind name = some s) : s ∈ l.files := by
  have mem : s ∈ l.sources kind := List.mem_of_find?_eq_some found
  cases kind with
  | backgrounds => exact List.mem_append_left _ mem
  | scenarios => exact List.mem_append_right _ mem

/-- The lines that a line puts in its place if it is a directive; files not found give none. -/
def splice (l : SourceLibrary) (line : SourcedLine) : List SourcedLine :=
  match Include.read? line.text with
  | none => []
  | some inc => (inc.names.filterMap (l.find? inc.kind)).flatMap (·.lines)

/-- A layer of the unfolding of a line. -/
def layer (l : SourceLibrary) : Nat → SourcedLine → List SourcedLine
  | 0, line => [line]
  | n + 1, line => (l.splice line).flatMap (l.layer n)

/-- Whether the unfolding of a line contains another. -/
def Reaches (l : SourceLibrary) (line other : SourcedLine) : Prop := ∃ n, other ∈ l.layer n line

/-- Whether the unfolding of a line ends: some layer is empty. -/
def UnfoldsFinitely (l : SourceLibrary) (line : SourcedLine) : Prop := ∃ n, l.layer n line = []

/-- Whether every name that a directive in the unfolding of a line writes is found. -/
def AllFound (l : SourceLibrary) (line : SourcedLine) : Prop :=
  ∀ other, l.Reaches line other → ∀ inc, Include.read? other.text = some inc →
    ∀ name ∈ inc.names, (l.find? inc.kind name).isSome = true

theorem mem_splice {line other : SourcedLine} {inc : Include} {name : String} {s : FeatureSource}
    (read : Include.read? line.text = some inc) (named : name ∈ inc.names)
    (found : l.find? inc.kind name = some s) (mem : other ∈ s.lines) : other ∈ l.splice line := by
  rw [splice, read]
  exact List.mem_flatMap.2 ⟨s, List.mem_filterMap.2 ⟨name, named, found⟩, mem⟩

theorem mem_layer_add {a b c : SourcedLine} {n m : Nat} (hb : b ∈ l.layer n a)
    (hc : c ∈ l.layer m b) : c ∈ l.layer (n + m) a := by
  induction n generalizing a with
  | zero =>
    obtain rfl := List.mem_singleton.1 hb
    rwa [Nat.zero_add]
  | succ n ih =>
    obtain ⟨d, hd, hb⟩ := List.mem_flatMap.1 hb
    rw [Nat.succ_add]
    exact List.mem_flatMap.2 ⟨d, hd, ih hb⟩

theorem Reaches.refl (a : SourcedLine) : l.Reaches a a := ⟨0, List.mem_singleton.2 rfl⟩

theorem Reaches.trans {a b c : SourcedLine} (hb : l.Reaches a b) (hc : l.Reaches b c) :
    l.Reaches a c := by
  obtain ⟨n, hb⟩ := hb
  obtain ⟨m, hc⟩ := hc
  exact ⟨n + m, mem_layer_add hb hc⟩

theorem Reaches.splice {a b : SourcedLine} (h : b ∈ l.splice a) : l.Reaches a b :=
  ⟨1, List.mem_flatMap.2 ⟨b, h, List.mem_singleton.2 rfl⟩⟩

/-- What a line reaches is the line or is reached from a line that it puts in its place. -/
theorem Reaches.cases_head {a b : SourcedLine} (h : l.Reaches a b) :
    a = b ∨ ∃ c ∈ l.splice a, l.Reaches c b := by
  obtain ⟨n, h⟩ := h
  cases n with
  | zero => exact .inl (List.mem_singleton.1 h).symm
  | succ n =>
    obtain ⟨c, hc, h⟩ := List.mem_flatMap.1 h
    exact .inr ⟨c, hc, n, h⟩

/-- Nothing follows an empty layer. -/
theorem layer_eq_nil_of_le {a : SourcedLine} {n m : Nat} (h : l.layer n a = []) (le : n ≤ m) :
    l.layer m a = [] := by
  induction n generalizing a m with
  | zero => exact nomatch h
  | succ n ih =>
    obtain ⟨m, rfl⟩ : ∃ k, m = k + 1 := ⟨m - 1, by omega⟩
    refine List.flatMap_eq_nil_iff.2 fun b hb => ?_
    exact ih (List.flatMap_eq_nil_iff.1 h b hb) (by omega)

/-- A line that contains itself contains itself in arbitrarily late layers. -/
theorem not_unfoldsFinitely_of_cycle {a b c : SourcedLine} (hb : l.Reaches a b)
    (hc : c ∈ l.splice b) (back : l.Reaches c b) : ¬ l.UnfoldsFinitely a := by
  obtain ⟨i, hb⟩ := hb
  obtain ⟨j, back⟩ := back
  have around : b ∈ l.layer (j + 1) b := List.mem_flatMap.2 ⟨c, hc, back⟩
  have often : ∀ k, ∃ m, k ≤ m ∧ b ∈ l.layer m b := by
    intro k
    induction k with
    | zero => exact ⟨0, Nat.le_refl 0, List.mem_singleton.2 rfl⟩
    | succ k ih =>
      obtain ⟨m, le, hm⟩ := ih
      exact ⟨j + 1 + m, by omega, mem_layer_add around hm⟩
  rintro ⟨n, empty⟩
  obtain ⟨m, le, hm⟩ := often n
  have mem := mem_layer_add hb hm
  rw [layer_eq_nil_of_le empty (by omega)] at mem
  exact nomatch mem

/-! ## Flattening -/

/-- The lines that are left of lines when each directive has been replaced by what is left of the
lines of the files it names, in the order in which it names them. -/
inductive Flattens (l : SourceLibrary) : List SourcedLine → List SourcedLine → Prop where
  | nil : Flattens l [] []
  | plain {line : SourcedLine} {rest out : List SourcedLine}
      (read : Include.read? line.text = none) (tail : Flattens l rest out) :
      Flattens l (line :: rest) (line :: out)
  | directive {line : SourcedLine} {inc : Include} {rest here out : List SourcedLine}
      (read : Include.read? line.text = some inc)
      (found : ∀ name ∈ inc.names, (l.find? inc.kind name).isSome = true)
      (inner : Flattens l (l.splice line) here) (tail : Flattens l rest out) :
      Flattens l (line :: rest) (here ++ out)

theorem Flattens.append {xs ys outX outY : List SourcedLine} (hx : l.Flattens xs outX)
    (hy : l.Flattens ys outY) : l.Flattens (xs ++ ys) (outX ++ outY) := by
  induction hx with
  | nil => exact hy
  | plain read _ ih => exact .plain read ih
  | directive read found inner _ _ ih =>
    rw [List.append_assoc]
    exact .directive read found inner ih

theorem Flattens.unique {xs out out' : List SourcedLine} (h : l.Flattens xs out)
    (h' : l.Flattens xs out') : out = out' := by
  induction h generalizing out' with
  | nil =>
    cases h'
    rfl
  | plain read _ ih =>
    cases h' with
    | plain _ tail => rw [ih tail]
    | directive read' => rw [read] at read'; exact nomatch read'
  | directive read _ _ _ ihInner ih =>
    cases h' with
    | plain read' => rw [read] at read'; exact nomatch read'
    | directive _ _ inner tail => rw [ihInner inner, ih tail]

/-- What is left holds no directive. -/
theorem Flattens.plain_of_mem {xs out : List SourcedLine} (h : l.Flattens xs out) :
    ∀ line ∈ out, Include.read? line.text = none := by
  induction h with
  | nil => exact fun line mem => nomatch mem
  | plain read _ ih =>
    intro line mem
    rcases List.mem_cons.1 mem with rfl | mem
    · exact read
    · exact ih line mem
  | directive _ _ _ _ ihInner ih =>
    intro line mem
    rcases List.mem_append.1 mem with mem | mem
    · exact ihInner line mem
    · exact ih line mem

theorem splice_of_plain {line : SourcedLine} (read : Include.read? line.text = none) :
    l.splice line = [] := by
  rw [splice, read]

/-- Lines that can be flattened have unfoldings of which a common layer is empty. -/
theorem Flattens.layer_eq_nil {xs out : List SourcedLine} (h : l.Flattens xs out) :
    ∃ n, ∀ line ∈ xs, l.layer n line = [] := by
  induction h with
  | nil => exact ⟨0, fun line mem => nomatch mem⟩
  | plain read _ ih =>
    obtain ⟨n, ih⟩ := ih
    refine ⟨n + 1, fun line mem => ?_⟩
    rcases List.mem_cons.1 mem with rfl | mem
    · rw [layer, splice_of_plain read, List.flatMap_nil]
    · exact layer_eq_nil_of_le (ih line mem) (Nat.le_succ n)
  | directive _ _ _ _ ihInner ih =>
    obtain ⟨n, ihInner⟩ := ihInner
    obtain ⟨m, ih⟩ := ih
    refine ⟨n + m + 1, fun line mem => ?_⟩
    rcases List.mem_cons.1 mem with rfl | mem
    · refine List.flatMap_eq_nil_iff.2 fun c hc => ?_
      exact layer_eq_nil_of_le (ihInner c hc) (Nat.le_add_right n m)
    · exact layer_eq_nil_of_le (ih line mem) (by omega)

theorem Flattens.allFound {xs out : List SourcedLine} (h : l.Flattens xs out) :
    ∀ line ∈ xs, l.AllFound line := by
  induction h with
  | nil => exact fun line mem => nomatch mem
  | plain read _ ih =>
    intro line mem
    rcases List.mem_cons.1 mem with rfl | mem
    · intro other reached inc readOther
      rcases reached.cases_head with rfl | ⟨c, hc, _⟩
      · rw [read] at readOther
        exact nomatch readOther
      · rw [splice_of_plain read] at hc
        exact nomatch hc
    · exact ih line mem
  | directive read found _ _ ihInner ih =>
    intro line mem
    rcases List.mem_cons.1 mem with rfl | mem
    · intro other reached inc readOther
      rcases reached.cases_head with rfl | ⟨c, hc, reached⟩
      · rw [read] at readOther
        obtain rfl := Option.some.inj readOther
        exact found
      · exact ihInner c hc other reached inc readOther
    · exact ih line mem

/-! ## Expansion -/

section Equations

variable {entered : List String} {kind : IncludeKind} {location : SourceLocation} {name : String}
  {names : List String} {s : FeatureSource} {line : SourcedLine} {rest : List SourcedLine}

theorem expandNames_missing (missing : l.find? kind name = none) :
    l.expandNames entered kind location (name :: names) =
      .error (.missingInclude kind name location) := by
  rw [expandNames]
  split
  · rfl
  · next found =>
    rw [missing] at found
    cases found

theorem expandNames_entered (found : l.find? kind name = some s) (again : s.path ∈ entered) :
    l.expandNames entered kind location (name :: names) =
      .error (.includeCycle name location) := by
  rw [expandNames]
  split
  · next missing =>
    rw [found] at missing
    cases missing
  · next found' =>
    obtain rfl := Option.some.inj (found.symm.trans found')
    exact dif_pos again

theorem expandNames_fresh (found : l.find? kind name = some s) (fresh : s.path ∉ entered) :
    l.expandNames entered kind location (name :: names) =
      (l.expandLines (s.path :: entered) s.lines).bind fun here =>
        (l.expandNames entered kind location names).bind fun more => .ok (here ++ more) := by
  rw [expandNames]
  split
  · next missing =>
    rw [found] at missing
    cases missing
  · next found' =>
    obtain rfl := Option.some.inj (found.symm.trans found')
    exact dif_neg fresh

theorem expandLines_directive {inc : Include} (read : Include.read? line.text = some inc) :
    l.expandLines entered (line :: rest) =
      (l.expandNames entered inc.kind line.source inc.names).bind fun here =>
        (l.expandLines entered rest).bind fun more => .ok (here ++ more) := by
  rw [expandLines, read]
  rfl

theorem expandLines_plain (read : Include.read? line.text = none) :
    l.expandLines entered (line :: rest) =
      (l.expandLines entered rest).bind fun more => .ok (line :: more) := by
  rw [expandLines, read]
  rfl

theorem expandLines_eq_self {lines : List SourcedLine}
    (plain : ∀ line ∈ lines, Include.read? line.text = none) :
    l.expandLines entered lines = .ok lines := by
  induction lines with
  | nil => rw [expandLines]
  | cons line rest ih =>
    obtain ⟨own, others⟩ := List.forall_mem_cons.1 plain
    rw [expandLines_plain own, ih others]
    rfl

/-- A directive for one name that is not found stands for no lines. -/
theorem expandLine_missing (read : Include.read? line.text = some ⟨kind, [name]⟩)
    (missing : l.find? kind name = none) :
    l.expandLine line = .error (.missingInclude kind name line.source) := by
  rw [expandLine, expandLines_directive read, expandNames_missing missing]
  rfl

/-- A directive for one name stands for the lines of the file that is found. -/
theorem expandLine_found (read : Include.read? line.text = some ⟨kind, [name]⟩)
    (found : l.find? kind name = some s) : l.expandLine line = l.expandLines [s.path] s.lines := by
  have names : l.expandNames [] kind line.source [] = .ok [] := by
    rw [expandNames]
  have lines : l.expandLines [] [] = .ok [] := expandLines_eq_self (List.forall_mem_nil _)
  rw [expandLine, expandLines_directive read, expandNames_fresh found List.not_mem_nil, names,
    lines]
  cases l.expandLines [s.path] s.lines with
  | error e => rfl
  | ok here => simp [Except.bind]

end Equations

private theorem ok_of_bind_append {α ε : Type} {x y : Except ε (List α)} {out : List α}
    (h : (x.bind fun here => y.bind fun more => .ok (here ++ more)) = .ok out) :
    ∃ here more, x = .ok here ∧ y = .ok more ∧ here ++ more = out := by
  obtain ⟨here, first, h⟩ := ok_of_bind h
  obtain ⟨more, second, h⟩ := ok_of_bind h
  exact ⟨here, more, first, second, Except.ok.inj h⟩

private theorem error_of_bind_append {α ε : Type} {x y : Except ε (List α)} {e : ε}
    (h : (x.bind fun here => y.bind fun more => .ok (here ++ more)) = .error e) :
    x = .error e ∨ y = .error e := by
  rcases error_of_bind h with first | ⟨here, -, h⟩
  · exact .inl first
  · rcases error_of_bind h with second | ⟨more, -, none⟩
    · exact .inr second
    · cases none

/-- The lines that an expansion gives are what is left of the lines expanded, and every name on the
way has been found. -/
theorem flattens_of_expandLines (l : SourceLibrary) (entered : List String)
    (lines : List SourcedLine) :
    ∀ out, l.expandLines entered lines = .ok out → l.Flattens lines out := by
  refine expandLines.induct l
    (fun entered kind location names => ∀ out, l.expandNames entered kind location names = .ok out →
      (∀ name ∈ names, (l.find? kind name).isSome = true) ∧
        l.Flattens ((names.filterMap (l.find? kind)).flatMap (·.lines)) out)
    (fun entered lines => ∀ out, l.expandLines entered lines = .ok out → l.Flattens lines out)
    ?noNames ?missing ?entered ?fresh ?noLines ?directive ?plain entered lines
  case noNames =>
    intro entered kind location out h
    rw [expandNames] at h
    obtain rfl := Except.ok.inj h
    exact ⟨List.forall_mem_nil _, .nil⟩
  case missing =>
    intro entered kind location name rest missing out h
    rw [expandNames_missing missing] at h
    exact nomatch h
  case entered =>
    intro entered kind location name rest s found again out h
    rw [expandNames_entered found again] at h
    exact nomatch h
  case fresh =>
    intro entered kind location name rest s found fresh _ ihLines ihNames out h
    rw [expandNames_fresh found fresh] at h
    obtain ⟨here, more, hHere, hMore, rfl⟩ := ok_of_bind_append h
    obtain ⟨foundRest, flatRest⟩ := ihNames more hMore
    refine ⟨List.forall_mem_cons.2 ⟨?_, foundRest⟩, ?_⟩
    · rw [found]
      rfl
    · rw [List.filterMap_cons_some found, List.flatMap_cons]
      exact (ihLines here hHere).append flatRest
  case noLines =>
    intro entered out h
    rw [expandLines] at h
    obtain rfl := Except.ok.inj h
    exact .nil
  case directive =>
    intro entered line rest inc read ihRest ihNames out h
    rw [expandLines_directive read] at h
    obtain ⟨here, more, hHere, hMore, rfl⟩ := ok_of_bind_append h
    obtain ⟨found, inner⟩ := ihNames here hHere
    refine .directive read found ?_ (ihRest more hMore)
    rw [splice, read]
    exact inner
  case plain =>
    intro entered line rest read ihRest out h
    rw [expandLines_plain read] at h
    obtain ⟨more, hMore, h⟩ := ok_of_bind h
    obtain rfl := Except.ok.inj h
    exact .plain read (ihRest more hMore)

/-! ## Faults -/

/-- Whether a fault tells the truth about a directive: a name in it is not found, or the file of a
name in it has a line from which the directive is reached again. -/
def IsFault (l : SourceLibrary) (line : SourcedLine) : CollectError → Prop
  | .missingInclude kind name location =>
    location = line.source ∧
      (∃ names, Include.read? line.text = some ⟨kind, names⟩ ∧ name ∈ names) ∧
      l.find? kind name = none
  | .includeCycle name location =>
    location = line.source ∧ ∃ inc s, Include.read? line.text = some inc ∧ name ∈ inc.names ∧
      l.find? inc.kind name = some s ∧ ∃ first ∈ s.lines, l.Reaches first line
  | _ => False

/-- Whether each path belongs to a file with a line from which a line is reached. -/
def IsInside (l : SourceLibrary) (entered : List String) (line : SourcedLine) : Prop :=
  ∀ path ∈ entered, ∃ s ∈ l.files, s.path = path ∧ ∃ first ∈ s.lines, l.Reaches first line

theorem IsInside.enter {entered : List String} {line : SourcedLine} {inc : Include} {name : String}
    {s : FeatureSource} (inside : l.IsInside entered line)
    (read : Include.read? line.text = some inc) (named : name ∈ inc.names)
    (found : l.find? inc.kind name = some s) :
    ∀ inner ∈ s.lines, l.IsInside (s.path :: entered) inner := by
  intro inner mem path hp
  rcases List.mem_cons.1 hp with rfl | hp
  · exact ⟨s, mem_files found, rfl, inner, mem, .refl inner⟩
  · obtain ⟨t, ht, rfl, first, hf, reached⟩ := inside path hp
    exact ⟨t, ht, rfl, first, hf, reached.trans (.splice (mem_splice read named found mem))⟩

/-- Whether files of one path have one content. -/
def SamePathSameContent (l : SourceLibrary) : Prop :=
  ∀ s ∈ l.files, ∀ t ∈ l.files, s.path = t.path → s.content = t.content

/-- A file that is entered again has a line from which the directive that enters it is reached. -/
theorem IsInside.again {entered : List String} {line : SourcedLine} {kind : IncludeKind}
    {name : String} {s : FeatureSource} (same : l.SamePathSameContent)
    (inside : l.IsInside entered line) (found : l.find? kind name = some s)
    (again : s.path ∈ entered) : ∃ first ∈ s.lines, l.Reaches first line := by
  obtain ⟨t, ht, path, first, hf, reached⟩ := inside s.path again
  have content := same t ht s (mem_files found) path
  have lines : t.lines = s.lines := by rw [FeatureSource.lines, FeatureSource.lines, path, content]
  exact ⟨first, lines ▸ hf, reached⟩

/-- An expansion that fails tells the truth about a line that the expanded lines reach. -/
theorem fault_of_expandLines (same : l.SamePathSameContent) (entered : List String)
    (lines : List SourcedLine) :
    (∀ line ∈ lines, l.IsInside entered line) → ∀ e, l.expandLines entered lines = .error e →
      ∃ line ∈ lines, ∃ other, l.Reaches line other ∧ l.IsFault other e := by
  refine expandLines.induct l
    (fun entered kind location names => ∀ line inc, line.source = location →
      Include.read? line.text = some inc → inc.kind = kind → (∀ name ∈ names, name ∈ inc.names) →
      l.IsInside entered line → ∀ e, l.expandNames entered kind location names = .error e →
      ∃ other, l.Reaches line other ∧ l.IsFault other e)
    (fun entered lines => (∀ line ∈ lines, l.IsInside entered line) →
      ∀ e, l.expandLines entered lines = .error e →
      ∃ line ∈ lines, ∃ other, l.Reaches line other ∧ l.IsFault other e)
    ?noNames ?missing ?entered ?fresh ?noLines ?directive ?plain entered lines
  case noNames =>
    intro entered kind location line inc _ _ _ _ _ e h
    rw [expandNames] at h
    exact nomatch h
  case missing =>
    rintro entered _ _ name rest missing line inc rfl read rfl named inside e h
    rw [expandNames_missing missing] at h
    obtain rfl := Except.error.inj h
    exact ⟨line, .refl line, rfl, ⟨inc.names, read, named name List.mem_cons_self⟩, missing⟩
  case entered =>
    rintro entered _ _ name rest s found again line inc rfl read rfl named inside e h
    rw [expandNames_entered found again] at h
    obtain rfl := Except.error.inj h
    exact ⟨line, .refl line, rfl, inc, s, read, named name List.mem_cons_self, found,
      inside.again same found again⟩
  case fresh =>
    rintro entered _ _ name rest s found fresh _ ihLines ihNames line inc rfl read rfl named inside
      e h
    have here := named name List.mem_cons_self
    rw [expandNames_fresh found fresh] at h
    rcases error_of_bind_append h with h | h
    · obtain ⟨inner, mem, other, reached, fault⟩ :=
        ihLines (inside.enter read here found) e h
      exact ⟨other, (Reaches.splice (mem_splice read here found mem)).trans reached, fault⟩
    · exact ihNames line inc rfl read rfl (fun n hn => named n (List.mem_cons_of_mem _ hn)) inside
        e h
  case noLines =>
    intro entered _ e h
    rw [expandLines] at h
    exact nomatch h
  case directive =>
    intro entered line rest inc read ihRest ihNames inside e h
    rw [expandLines_directive read] at h
    rcases error_of_bind_append h with h | h
    · obtain ⟨other, reached, fault⟩ :=
        ihNames line inc rfl read rfl (fun _ hn => hn) (inside line List.mem_cons_self) e h
      exact ⟨line, List.mem_cons_self, other, reached, fault⟩
    · obtain ⟨first, mem, rest⟩ := ihRest (fun b hb => inside b (List.mem_cons_of_mem _ hb)) e h
      exact ⟨first, List.mem_cons_of_mem _ mem, rest⟩
  case plain =>
    intro entered line rest read ihRest inside e h
    rw [expandLines_plain read] at h
    rcases error_of_bind h with hMore | ⟨more, -, none⟩
    · obtain ⟨first, mem, rest⟩ :=
        ihRest (fun b hb => inside b (List.mem_cons_of_mem _ hb)) e hMore
      exact ⟨first, List.mem_cons_of_mem _ mem, rest⟩
    · cases none

/-! ## The expansion of one line -/

theorem isInside_nil (line : SourcedLine) : l.IsInside [] line := List.forall_mem_nil _

theorem not_allFound_of_fault {line other : SourcedLine} {kind : IncludeKind} {name : String}
    {location : SourceLocation} (reached : l.Reaches line other)
    (fault : l.IsFault other (.missingInclude kind name location)) : ¬ l.AllFound line := by
  obtain ⟨_, ⟨names, read, named⟩, missing⟩ := fault
  intro all
  have found := all other reached ⟨kind, names⟩ read name named
  rw [missing] at found
  exact nomatch found

theorem not_unfoldsFinitely_of_fault {line other : SourcedLine} {name : String}
    {location : SourceLocation} (reached : l.Reaches line other)
    (fault : l.IsFault other (.includeCycle name location)) : ¬ l.UnfoldsFinitely line := by
  obtain ⟨_, inc, s, read, named, found, first, mem, back⟩ := fault
  exact not_unfoldsFinitely_of_cycle reached (mem_splice read named found mem) back

theorem fault_of_expandLine (same : l.SamePathSameContent) {line : SourcedLine} {e : CollectError}
    (h : l.expandLine line = .error e) : ∃ other, l.Reaches line other ∧ l.IsFault other e := by
  obtain ⟨first, mem, other, reached, fault⟩ :=
    fault_of_expandLines same [] [line] (fun first _ => isInside_nil first) e h
  obtain rfl := List.mem_singleton.1 mem
  exact ⟨other, reached, fault⟩

/-- A fault is a name that is not found or a file that is included while it is being included. -/
theorem IsFault.cases {line : SourcedLine} {e : CollectError} (fault : l.IsFault line e) :
    (∃ kind name location, e = .missingInclude kind name location) ∨
      ∃ name location, e = .includeCycle name location := by
  cases e with
  | noFeatures => exact fault.elim
  | duplicatePath path => exact fault.elim
  | missingInclude kind name location => exact .inl ⟨kind, name, location, rfl⟩
  | includeCycle name location => exact .inr ⟨name, location, rfl⟩

theorem expandLine_isOk_iff (same : l.SamePathSameContent) (line : SourcedLine) :
    (∃ lines, l.expandLine line = .ok lines) ↔ l.UnfoldsFinitely line ∧ l.AllFound line := by
  constructor
  · rintro ⟨lines, h⟩
    have flat := flattens_of_expandLines l [] [line] lines h
    obtain ⟨n, empty⟩ := flat.layer_eq_nil
    exact ⟨⟨n, empty line List.mem_cons_self⟩, flat.allFound line List.mem_cons_self⟩
  · rintro ⟨finite, all⟩
    cases h : l.expandLine line with
    | ok lines => exact ⟨lines, rfl⟩
    | error e =>
      obtain ⟨other, reached, fault⟩ := fault_of_expandLine same h
      rcases fault.cases with ⟨kind, name, location, rfl⟩ | ⟨name, location, rfl⟩
      · exact (not_allFound_of_fault reached fault all).elim
      · exact (not_unfoldsFinitely_of_fault reached fault finite).elim

theorem expandLine_eq_ok_iff (same : l.SamePathSameContent) (line : SourcedLine)
    (lines : List SourcedLine) : l.expandLine line = .ok lines ↔ l.Flattens [line] lines := by
  refine ⟨flattens_of_expandLines l [] [line] lines, fun flat => ?_⟩
  obtain ⟨n, empty⟩ := flat.layer_eq_nil
  obtain ⟨lines', h⟩ := (expandLine_isOk_iff same line).2
    ⟨⟨n, empty line List.mem_cons_self⟩, flat.allFound line List.mem_cons_self⟩
  rw [h, flat.unique (flattens_of_expandLines l [] [line] lines' h)]

/-- A line stands for lines exactly when its unfolding ends and every name in it is found. The lines
are then what is left when every directive has been replaced, and none of them is a directive.
Otherwise a name is missing or a file includes itself, and what is reported is true of a directive
of the unfolding: a file that is only included several times is never reported. -/
theorem expandLine_unfolds (l : SourceLibrary) (same : l.SamePathSameContent) (line : SourcedLine) :
    ((∃ lines, l.expandLine line = .ok lines) ↔ l.UnfoldsFinitely line ∧ l.AllFound line) ∧
    (∀ lines, l.expandLine line = .ok lines ↔ l.Flattens [line] lines) ∧
    (∀ lines, l.expandLine line = .ok lines → ∀ out ∈ lines, Include.read? out.text = none) ∧
    (¬ (l.UnfoldsFinitely line ∧ l.AllFound line) →
      (∃ kind name location, l.expandLine line = .error (.missingInclude kind name location)) ∨
      ∃ name location, l.expandLine line = .error (.includeCycle name location)) ∧
    (∀ e, l.expandLine line = .error e → ∃ other, l.Reaches line other ∧ l.IsFault other e) ∧
    (∀ kind name location, l.expandLine line = .error (.missingInclude kind name location) →
      ¬ l.AllFound line) ∧
    (∀ name location, l.expandLine line = .error (.includeCycle name location) →
      ¬ l.UnfoldsFinitely line) := by
  refine ⟨expandLine_isOk_iff same line, expandLine_eq_ok_iff same line, ?plain, ?fails, ?fault,
    ?missing, ?cycle⟩
  case plain =>
    exact fun lines h => (flattens_of_expandLines l [] [line] lines h).plain_of_mem
  case fails =>
    intro unbounded
    cases h : l.expandLine line with
    | ok lines => exact (unbounded ((expandLine_isOk_iff same line).1 ⟨lines, h⟩)).elim
    | error e =>
      obtain ⟨other, _, fault⟩ := fault_of_expandLine same h
      rcases fault.cases with ⟨kind, name, location, rfl⟩ | ⟨name, location, rfl⟩
      · exact .inl ⟨kind, name, location, rfl⟩
      · exact .inr ⟨name, location, rfl⟩
  case fault => exact fun e h => fault_of_expandLine same h
  case missing =>
    intro kind name location h
    obtain ⟨other, reached, fault⟩ := fault_of_expandLine same h
    exact not_allFound_of_fault reached fault
  case cycle =>
    intro name location h
    obtain ⟨other, reached, fault⟩ := fault_of_expandLine same h
    exact not_unfoldsFinitely_of_fault reached fault

/-- Two files that include a third. -/
def diamond : SourceLibrary where
  backgrounds :=
    [⟨"left.feature", "Backgrounds: shared", ""⟩, ⟨"right.feature", "Backgrounds: shared", ""⟩,
      ⟨"shared.feature", "wait", ""⟩]
  scenarios := []

/-- A file that is included in two ways is no cycle: its lines stand twice. -/
theorem expandLine_diamond : diamond.SamePathSameContent ∧
    diamond.expandLine ⟨⟨"main.feature", 1⟩, "Backgrounds: left, right"⟩ =
      .ok [⟨⟨"shared.feature", 1⟩, "wait"⟩, ⟨⟨"shared.feature", 1⟩, "wait"⟩] := by
  have same : diamond.SamePathSameContent := by
    unfold SamePathSameContent
    decide
  have readSide : Include.read? "Backgrounds: shared" = some ⟨.backgrounds, ["shared"]⟩ := by decide
  have readTop : Include.read? "Backgrounds: left, right" =
      some ⟨.backgrounds, ["left", "right"]⟩ := by
    decide
  have foundSide : ∀ name ∈ ["shared"], (diamond.find? .backgrounds name).isSome = true := by
    decide +kernel
  have foundTop : ∀ name ∈ ["left", "right"], (diamond.find? .backgrounds name).isSome = true := by
    decide +kernel
  have shared : diamond.Flattens [⟨⟨"shared.feature", 1⟩, "wait"⟩]
      [⟨⟨"shared.feature", 1⟩, "wait"⟩] := .plain (by decide) .nil
  have side (path : String) : diamond.Flattens [⟨⟨path, 1⟩, "Backgrounds: shared"⟩]
      ([⟨⟨"shared.feature", 1⟩, "wait"⟩] ++ []) := by
    refine .directive readSide foundSide ?_ .nil
    simp only [splice, readSide]
    exact shared
  have sides : diamond.Flattens (diamond.splice ⟨⟨"main.feature", 1⟩, "Backgrounds: left, right"⟩)
      [⟨⟨"shared.feature", 1⟩, "wait"⟩, ⟨⟨"shared.feature", 1⟩, "wait"⟩] := by
    simp only [splice, readTop]
    exact (side "left.feature").append (side "right.feature")
  have top := Flattens.directive readTop foundTop sides .nil
  exact ⟨same, ((expandLine_unfolds diamond same _).2.1 _).2 top⟩

end PlainSteps.SourceLibrary
