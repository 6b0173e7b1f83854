import PlainSteps.FilePath
import PlainSteps.Proofs.Text.Pieces

/-!
# Names and directories of files

The stem of a path is a part of its last piece. It has no slash, and a name with one piece is its
own stem when its ending is taken off. The directory of a path is the path without its last part.

* `FilePath.slash_not_mem_of_stem?`: a stem has no slash.
* `FilePath.stem?_of_single`: the stem of a path that is a single name with an ending.
* `FilePath.components_join`: the parts of a path that is put together from pieces.
* `FilePath.components_directory`: the parts of the directory of a path.

Proof-only: no module that runs imports this one.
-/

namespace PlainSteps.FilePath

/-! ## The last part -/

theorem splitStart_ne_name {path : String} {s : String} :
    (splitStart path).1 ≠ some (.name s) := by
  unfold splitStart
  split <;> simp

theorem mem_pieces_of_mem_splitStart {path piece : String} (h : piece ∈ (splitStart path).2) :
    piece ∈ Text.pieces '/' path := by
  unfold splitStart at h
  split at h
  · exact nomatch h
  · next rest pieces =>
    rw [pieces]
    exact List.mem_cons_of_mem _ h
  · next rest pieces =>
    rw [pieces]
    exact List.mem_cons_of_mem _ h
  · exact h

/-- The name of a file is a piece of its path. -/
theorem mem_pieces_of_fileName? {path name : String} (h : fileName? path = some name) :
    name ∈ Text.pieces '/' path := by
  unfold fileName? at h
  split at h
  · next s last =>
    cases h
    rcases List.mem_append.1 (List.mem_of_getLast? last) with start | rest
    · exact absurd (Option.mem_toList.1 start) splitStart_ne_name
    · obtain ⟨piece, mem, same⟩ := List.mem_map.1 rest
      unfold ofPiece at same
      split at same
      · cases same
      · cases same
        exact mem_pieces_of_mem_splitStart (List.mem_filter.1 mem).1
  · cases h

/-- What stands before the last dot is a start of the name. -/
theorem isPrefix_splitExtension (name : String) :
    (splitExtension name).1.toList <+: name.toList := by
  unfold splitExtension
  split
  · next last first more reversed =>
    dsimp only
    split
    · exact List.prefix_rfl
    · have pieces : Text.pieces '.' name = (first :: more).reverse ++ [last] := by
        rw [← List.reverse_reverse (Text.pieces '.' name), reversed, List.reverse_cons]
      have whole : name = ".".intercalate (first :: more).reverse ++ "." ++ last := by
        rw [← String.intercalate_singleton (s := ".") (t := last),
          ← String.intercalate_append_of_ne_nil (by simp) (by simp), ← pieces]
        exact (Text.intercalate_pieces rfl name).symm
      conv => rhs; rw [whole]
      rw [String.append_assoc, String.toList_append]
      exact List.prefix_append _ _
  · exact List.prefix_rfl

/-- A stem has no slash. -/
theorem slash_not_mem_of_stem? {path stem : String} (h : stem? path = some stem) :
    '/' ∉ stem.toList := by
  obtain ⟨name, found, rfl⟩ := Option.map_eq_some_iff.1 h
  have free := Text.not_mem_of_mem_pieces (mem_pieces_of_fileName? found)
  exact fun mem => free ((isPrefix_splitExtension name).subset mem)

/-! ## Single names -/

/-- A path without slashes is its own last part. -/
theorem fileName?_of_single {path : String} (single : '/' ∉ path.toList)
    (solid : path ∉ ["", ".", ".."]) : fileName? path = some path := by
  simp only [List.mem_cons, List.not_mem_nil, or_false, not_or] at solid
  obtain ⟨filled, here, parent⟩ := solid
  have cut : splitStart path = (none, [path]) := by
    unfold splitStart
    rw [Text.pieces_of_not_mem single]
    split <;> simp_all
  have busy : isIdle path = false := by simp [isIdle, filled, here]
  have part : ofPiece path = .name path := by simp [ofPiece, parent]
  have parts : components path = [.name path] := by
    unfold components
    rw [cut]
    simp [busy, part]
  rw [fileName?, parts]
  rfl

/-- What stands before the last dot is the stem, where it is not empty. -/
theorem splitExtension_append {stem ending : String} (ne : stem ≠ "")
    (free : '.' ∉ ending.toList) :
    splitExtension (stem ++ "." ++ ending) = (stem, some ending) := by
  have pieces : Text.pieces '.' (stem ++ "." ++ ending) = Text.pieces '.' stem ++ [ending] := by
    rw [Text.pieces_append rfl, Text.pieces_of_not_mem free]
  obtain ⟨first, more, reversed⟩ : ∃ first more, (Text.pieces '.' stem).reverse = first :: more :=
    List.exists_cons_of_ne_nil (by simpa using Text.pieces_ne_nil '.' stem)
  have back : ".".intercalate (first :: more).reverse = stem := by
    rw [← reversed, List.reverse_reverse]
    exact Text.intercalate_pieces rfl stem
  have filled : stem.isEmpty = false := by simpa using ne
  unfold splitExtension
  rw [pieces, List.reverse_append, reversed]
  show (if (".".intercalate (first :: more).reverse).isEmpty = true then _ else
    (".".intercalate (first :: more).reverse, some ending)) = _
  rw [back, filled]
  rfl

/-- The stem of a path without slashes is what stands before its last dot. -/
theorem stem?_of_single {stem ending : String} (single : '/' ∉ (stem ++ "." ++ ending).toList)
    (solid : stem ++ "." ++ ending ∉ ["", ".", ".."]) (ne : stem ≠ "")
    (free : '.' ∉ ending.toList) : stem? (stem ++ "." ++ ending) = some stem := by
  rw [stem?, fileName?_of_single single solid, Option.map_some, splitExtension_append ne free]

/-! ## Directories -/

/-- The start of a path is the root, a single dot or, where the first piece makes a difference,
nothing. -/
def IsStart (start : Option Component) (pieces : List String) : Prop :=
  start = some .root ∨ start = some .current ∨
    start = none ∧ pieces.head?.any isIdle = false

theorem isStart_splitStart (path : String) : IsStart (splitStart path).1 (splitStart path).2 := by
  unfold splitStart
  split
  · exact .inr (.inr ⟨rfl, rfl⟩)
  · exact .inl rfl
  · exact .inr (.inl rfl)
  · next filled rooted here =>
    refine .inr (.inr ⟨rfl, ?_⟩)
    cases pieces : Text.pieces '/' path with
    | nil => rfl
    | cons first rest =>
      have notEmpty : first ≠ "" := by
        rintro rfl
        exact rooted rest pieces
      have notHere : first ≠ "." := by
        rintro rfl
        exact here rest pieces
      simp [isIdle, notEmpty, notHere]

theorem IsStart.of_prefix {start : Option Component} {ps qs : List String} (h : IsStart start ps)
    (le : qs <+: ps) : IsStart start qs := by
  rcases h with root | current | ⟨nothing, solid⟩
  · exact .inl root
  · exact .inr (.inl current)
  · refine .inr (.inr ⟨nothing, ?_⟩)
    cases qs with
    | nil => rfl
    | cons q qs =>
      obtain ⟨rest, rfl⟩ := le
      exact solid

/-- The parts that pieces name. -/
def busy (ps : List String) : List Component := (ps.filter (! isIdle ·)).map ofPiece

theorem components_eq (path : String) :
    components path = (splitStart path).1.toList ++ busy (splitStart path).2 := rfl

section Split

variable {path first : String} {ps : List String}

theorem splitStart_root (pieces : Text.pieces '/' path = "" :: ps) (ne : ps ≠ []) :
    splitStart path = (some .root, ps) := by
  unfold splitStart
  rw [pieces]
  split <;> simp_all

theorem splitStart_current (pieces : Text.pieces '/' path = "." :: ps) :
    splitStart path = (some .current, ps) := by
  unfold splitStart
  rw [pieces]
  split <;> simp_all

theorem splitStart_none (pieces : Text.pieces '/' path = first :: ps)
    (solid : isIdle first = false) : splitStart path = (none, first :: ps) := by
  unfold splitStart
  rw [pieces]
  split <;> simp_all [isIdle]

end Split

/-- A path that is put together from a start and pieces is cut into these. -/
theorem components_join {start : Option Component} {ps : List String} (h : IsStart start ps)
    (free : ∀ p ∈ ps, '/' ∉ p.toList) :
    components (join start ps) = start.toList ++ busy ps := by
  have behind (lead : String) (plain : '/' ∉ lead.toList) (ne : ps ≠ []) :
      Text.pieces '/' (lead ++ "/" ++ "/".intercalate ps) = lead :: ps := by
    rw [Text.pieces_append rfl, Text.pieces_of_not_mem plain, Text.pieces_intercalate rfl ne free,
      List.singleton_append]
  rw [components_eq]
  rcases h with rfl | rfl | ⟨rfl, solid⟩
  · cases ps with
    | nil => decide
    | cons p ps =>
      have pieces : Text.pieces '/' (join (some .root) (p :: ps)) = "" :: p :: ps :=
        behind "" (by decide) (List.cons_ne_nil p ps)
      rw [splitStart_root pieces (List.cons_ne_nil p ps)]
  · cases ps with
    | nil => decide
    | cons p ps =>
      have pieces : Text.pieces '/' (join (some .current) (p :: ps)) = "." :: p :: ps :=
        behind "." (by decide) (List.cons_ne_nil p ps)
      rw [splitStart_current pieces]
  · cases ps with
    | nil => decide
    | cons p ps =>
      have pieces : Text.pieces '/' (join none (p :: ps)) = p :: ps :=
        Text.pieces_intercalate rfl (List.cons_ne_nil p ps) free
      rw [splitStart_none pieces (by simpa using solid)]

theorem busy_append (ps qs : List String) : busy (ps ++ qs) = busy ps ++ busy qs := by
  simp [busy]

theorem busy_singleton {p : String} (h : isIdle p = false) : busy [p] = [ofPiece p] := by
  simp [busy, h]

theorem dropIdle_append (ps : List String) : ∃ idle, (∀ p ∈ idle, isIdle p = true) ∧
    dropIdle ps ++ idle = ps := by
  refine ⟨(ps.reverse.takeWhile isIdle).reverse, fun p hp => ?_, ?_⟩
  · exact List.all_eq_true.1 List.all_takeWhile p (List.mem_reverse.1 hp)
  · rw [dropIdle, ← List.reverse_append, List.takeWhile_append_dropWhile, List.reverse_reverse]

theorem prefix_dropIdle (ps : List String) : dropIdle ps <+: ps := by
  obtain ⟨idle, -, whole⟩ := dropIdle_append ps
  exact ⟨idle, whole⟩

theorem busy_dropIdle (ps : List String) : busy (dropIdle ps) = busy ps := by
  obtain ⟨idle, all, whole⟩ := dropIdle_append ps
  have none : busy idle = [] := by
    rw [busy, List.filter_eq_nil_iff.2 fun p hp => by simp [all p hp], List.map_nil]
  conv => rhs; rw [← whole]
  rw [busy_append, none, List.append_nil]

/-- The last of the pieces that are left makes a difference. -/
theorem isIdle_of_dropIdle {ps before : List String} {last : String}
    (h : dropIdle ps = before ++ [last]) : isIdle last = false := by
  have reversed : ps.reverse.dropWhile isIdle = last :: before.reverse := by
    rw [← List.reverse_reverse (ps.reverse.dropWhile isIdle), ← dropIdle, h]
    simp
  have first := List.head?_dropWhile_not isIdle ps.reverse
  rw [reversed] at first
  simpa using first

/-- The parts of the directory of a path are those of the path without the last. -/
theorem components_directory (path : String) :
    components (directory path) = (components path).dropLast := by
  have start := isStart_splitStart path
  have free : ∀ p ∈ (splitStart path).2, '/' ∉ p.toList := fun p hp =>
    Text.not_mem_of_mem_pieces (mem_pieces_of_mem_splitStart hp)
  obtain ⟨first, rest, split⟩ : ∃ first rest, splitStart path = (first, rest) := ⟨_, _, rfl⟩
  rw [split] at start free
  rw [components_eq path, split, directory, split]
  dsimp only
  rw [← busy_dropIdle rest]
  cases left : (dropIdle rest).reverse with
  | nil =>
    rw [List.reverse_eq_nil_iff.1 left]
    cases first <;> rfl
  | cons last before =>
    have whole : dropIdle rest = before.reverse ++ [last] := by
      rw [← List.reverse_reverse (dropIdle rest), left, List.reverse_cons]
    have front : before.reverse <+: rest :=
      (List.prefix_append _ [last]).trans (whole ▸ prefix_dropIdle rest)
    have inside : dropIdle before.reverse <+: rest := (prefix_dropIdle before.reverse).trans front
    have parts : busy (dropIdle rest) = busy before.reverse ++ [ofPiece last] := by
      rw [whole, busy_append, busy_singleton (isIdle_of_dropIdle whole)]
    rw [components_join (start.of_prefix inside) fun p hp => free p (inside.subset hp),
      busy_dropIdle, parts, ← List.append_assoc, List.dropLast_concat]

end PlainSteps.FilePath
