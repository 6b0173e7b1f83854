import Mathlib.Data.List.TakeWhile
import PlainSteps.Proofs.Regex.Alike
import PlainSteps.Proofs.Regex.Rounds
import PlainSteps.Proofs.Text.Pieces

/-!
# Programs of headings

The expression of a heading is a word at the start of the text, any blanks, and a named group that
is the rest of the text and on one line. At each place of a text its program has few threads: one in
the word; after the word one that skips blanks and maybe an older one that took a blank for the
title; and in the title one.

* `Program.headingCode`, `Program.IsHeading`: the program of such an expression.
* `Program.titleAt?`: where the title lies after the word.
* `Program.IsHeading.scans_gap`, `Program.IsHeading.scans_word`: what is found from a place on.
* `Program.IsHeading.search?`: what is found in a text.

Proof-only: no module that runs imports this one.
-/

namespace PlainSteps

open Text (isBlank)

deriving instance DecidableEq for Instruction

namespace Program

variable {ν : Type}

/-! ## The program -/

/-- The instruction that is entered with some letters of the word still to come. -/
def expecting : (pending : List Char) → Nat
  | [] => 6
  | _ :: more => 8 + more.length

/-- The instructions for the letters of a word that end it, the last one first. -/
def wordCode : (word : List Char) → List (Instruction ν)
  | [] => []
  | c :: more => wordCode more ++ [.consume (.char c) (expecting more)]

/-- The instructions of a heading: the end of the text, the title, the blanks before it and the
word at the start of the text. -/
def headingCode (word : List Char) (name : ν) : List (Instruction ν) :=
  [.accept, .meet .stop 0, .closing name 1, .fork 4 2,
    .consume (.spans (CharSet.toSpans .notNewline)) 3, .opening 4, .fork 7 5,
    .consume (.spans (CharSet.toSpans .blank)) 6] ++
    (wordCode word ++ [.meet .start (expecting word)])

/-- The program of a heading. -/
structure IsHeading (p : Program ν) (word : List Char) (name : ν) : Prop where
  code : p.code.toList = headingCode word name
  entry : p.entry = 8 + word.length

instance [DecidableEq ν] (p : Program ν) (word : List Char) (name : ν) :
    Decidable (p.IsHeading word name) :=
  decidable_of_iff (p.code.toList = headingCode word name ∧ p.entry = 8 + word.length)
    ⟨fun h => ⟨h.1, h.2⟩, fun h => ⟨h.code, h.entry⟩⟩

theorem length_wordCode (word : List Char) :
    (wordCode (ν := ν) word).length = word.length := by
  induction word with
  | nil => rfl
  | cons c more ih => simp [wordCode, ih]

/-- The letters that are still to come are at the start of the instructions. -/
theorem prefix_wordCode (done pending : List Char) :
    wordCode (ν := ν) pending <+: wordCode (done ++ pending) := by
  induction done with
  | nil => exact List.prefix_rfl
  | cons c done ih => exact ih.trans (List.prefix_append _ _)

theorem solid_of_cons {c : Char} {rest : List Char}
    (ends : (c :: rest).getLast?.any isBlank = false) : rest.getLast?.any isBlank = false := by
  cases rest with
  | nil => rfl
  | cons d rest => rwa [List.getLast?_cons_cons] at ends

/-- Where a title lies that started at a place and goes on to the end of the text, if that is on the
same line. -/
def lineAt? (name : ν) (start position : Nat) (rest : List Char) : Option (List (ν × Nat × Nat)) :=
  if '\n' ∈ rest then none else some [(name, start, position + rest.length)]

theorem lineAt?_cons {c : Char} (other : c ≠ '\n') (name : ν) (start position : Nat)
    (rest : List Char) :
    lineAt? name start position (c :: rest) = lineAt? name start (position + 1) rest := by
  have same : '\n' ∈ c :: rest ↔ '\n' ∈ rest := by simp [Ne.symm other]
  unfold lineAt?
  rw [List.length_cons, show position + (rest.length + 1) = position + 1 + rest.length by omega]
  simp only [same]

/-- Where the title of a heading lies, of which the text after the word starts at a position: after
the blanks, up to the end of the text, if it is not empty and on one line. -/
def titleAt? (name : ν) (position : Nat) (rest : List Char) : Option (List (ν × Nat × Nat)) :=
  let title := Text.trimStart rest
  if title = [] ∨ '\n' ∈ title then none
  else some [(name, position + (rest.takeWhile isBlank).length, position + rest.length)]

/-- A text that starts with all its blanks. -/
theorem takeWhile_isBlank_append {blanks title : List Char} (h : ∀ c ∈ blanks, isBlank c = true)
    (solid : title.head?.any isBlank = false) :
    (blanks ++ title).takeWhile isBlank = blanks ∧ Text.trimStart (blanks ++ title) = title := by
  rw [Text.trimStart, List.dropWhile_append_of_pos h, List.takeWhile_append_of_pos h]
  cases title with
  | nil => simp
  | cons c title =>
    have other : ¬ isBlank c = true := Bool.eq_false_iff.1 solid
    simp [other]

/-- A title is what follows all blanks. -/
theorem titleAt?_eq_some_iff {name : ν} {position : Nat} {rest : List Char}
    {found : List (ν × Nat × Nat)} : titleAt? name position rest = some found ↔
      ∃ blanks title, (∀ c ∈ blanks, isBlank c = true) ∧ title.head?.any isBlank = false ∧
        title ≠ [] ∧ '\n' ∉ title ∧ rest = blanks ++ title ∧
        found = [(name, position + blanks.length, position + rest.length)] := by
  unfold titleAt?
  constructor
  · intro h
    simp only at h
    split at h
    · cases h
    · next filled =>
      cases h
      obtain ⟨ne, newline⟩ := not_or.1 filled
      refine ⟨rest.takeWhile isBlank, Text.trimStart rest, fun c hc => List.mem_takeWhile_imp hc,
        Text.head?_dropWhile_isBlank rest, ne, newline, ?_, rfl⟩
      exact (List.takeWhile_append_dropWhile).symm
  · rintro ⟨blanks, title, blank, solid, ne, newline, rfl, rfl⟩
    obtain ⟨taken, left_⟩ := takeWhile_isBlank_append blank solid
    simp only [taken, left_]
    rw [if_neg (not_or.2 ⟨ne, newline⟩)]

theorem titleAt?_blank {c : Char} (blank : isBlank c = true) (name : ν) (position : Nat)
    (rest : List Char) :
    titleAt? name position (c :: rest) = titleAt? name (position + 1) rest := by
  have same : Text.trimStart (c :: rest) = Text.trimStart rest := List.dropWhile_cons_of_pos blank
  unfold titleAt?
  simp only [same, List.takeWhile_cons_of_pos blank, List.length_cons]
  rw [show position + ((rest.takeWhile isBlank).length + 1) =
      position + 1 + (rest.takeWhile isBlank).length by omega,
    show position + (rest.length + 1) = position + 1 + rest.length by omega]

theorem titleAt?_solid {c : Char} (solid : isBlank c = false) (name : ν) (position : Nat)
    (rest : List Char) :
    titleAt? name position (c :: rest) = lineAt? name position position (c :: rest) := by
  have same : Text.trimStart (c :: rest) = c :: rest :=
    List.dropWhile_cons_of_neg (Bool.eq_false_iff.1 solid)
  unfold titleAt? lineAt?
  simp only [same, List.takeWhile_cons_of_neg (Bool.eq_false_iff.1 solid)]
  simp

/-- The threads that go on after a character in front of the title, the preferred one first: one if
it is a blank, and another for which it starts the title, unless it is a line feed. -/
def afterGap (c : Char) (position : Nat) : List (Thread ν) :=
  (if isBlank c then [⟨6, [], []⟩] else []) ++ if c = '\n' then [] else [⟨3, [position], []⟩]

namespace IsHeading

variable {p : Program ν} {word : List Char} {name : ν} (h : p.IsHeading word name)

include h

theorem at_ (k : Nat) : p.code[k]? = (headingCode word name)[k]? := by
  rw [← h.code, Array.getElem?_toList]

/-- The instruction for a letter of the word. -/
theorem at_letter {done : List Char} {c : Char} {more : List Char}
    (split : word = done ++ c :: more) :
    p.code[8 + more.length]? = some (.consume (.char c) (expecting more)) := by
  obtain ⟨rest, whole⟩ := prefix_wordCode (ν := ν) done (c :: more)
  rw [h.at_, headingCode, split, ← whole, wordCode]
  rw [List.getElem?_append_right (by simp)]
  simp [length_wordCode]

theorem at_entry : p.code[p.entry]? = some (.meet .start (expecting word)) := by
  rw [h.at_, h.entry, headingCode]
  rw [List.getElem?_append_right (by simp)]
  simp [length_wordCode]

/-! ## Threads at a place -/

variable {seen : List Nat} {onward : List (Thread ν)} {position : Nat} {b c : Char}

/-- No match starts after a character. -/
theorem proceeds_entry (after : Option Char) :
    Proceeds p ⟨position, some b, after⟩ seen [⟨p.entry, [], []⟩] onward onward none := by
  by_cases entered : p.entry ∈ seen
  · exact .again entered .done
  · exact .meet entered h.at_entry .done

/-- No title ends before a character. -/
theorem proceeds_end {q : Nat} (fresh : 2 ∉ seen ∧ 1 ∉ seen) :
    Proceeds p ⟨position, some b, some c⟩ seen [⟨2, [q], []⟩, ⟨p.entry, [], []⟩] onward onward
      none := by
  refine .closing fresh.1 (h.at_ 2) (.meet ?_ (h.at_ 1) (h.proceeds_entry _))
  simp [Thread.closeGroup, fresh.2]

/-- In the title, a thread goes on after any character but a line feed. -/
theorem proceeds_title (q : Nat) : Proceeds p ⟨position, some b, some c⟩ []
    [⟨3, [q], []⟩, ⟨p.entry, [], []⟩] [] (if c = '\n' then [] else [⟨3, [q], []⟩]) none := by
  refine .fork (by simp) (h.at_ 3) (.consume (by simp [Thread.goTo]) (h.at_ 4) ?_)
  rw [Option.any_some, Regex.contains_toSpans_notNewline]
  have goesOn : (if (c != '\n') = true then [(⟨3, [q], []⟩ : Thread ν)] else []) =
      if c = '\n' then [] else [⟨3, [q], []⟩] := by
    by_cases newline : c = '\n' <;> simp [newline]
  rw [← goesOn]
  exact h.proceeds_end (by simp [Thread.goTo])

/-- At the end of the text, the title ends. -/
theorem proceeds_title_stop (q : Nat) : Proceeds p ⟨position, some b, none⟩ []
    [⟨3, [q], []⟩, ⟨p.entry, [], []⟩] [] [] (some [(name, q, position)]) := by
  refine .fork (by simp) (h.at_ 3) (.consume (by simp [Thread.goTo]) (h.at_ 4) ?_)
  refine .closing (by simp [Thread.goTo]) (h.at_ 2) (.meet ?_ (h.at_ 1) ?_)
  · simp [Thread.goTo, Thread.closeGroup]
  · exact .accept (by simp [Thread.goTo, Thread.closeGroup]) (h.at_ 0)

/-- In front of the title, an older thread that took a blank for its start is dropped. -/
theorem proceeds_gap {older : List (Thread ν)} (old : older = [] ∨ ∃ q, older = [⟨3, [q], []⟩]) :
    Proceeds p ⟨position, some b, some c⟩ [] (⟨6, [], []⟩ :: (older ++ [⟨p.entry, [], []⟩])) []
      (afterGap c position).reverse none := by
  refine .fork (by simp) (h.at_ 6) (.consume (by simp [Thread.goTo]) (h.at_ 7) ?_)
  refine .opening (by simp [Thread.goTo]) (h.at_ 5) (.consume ?_ (h.at_ 4) ?_)
  · simp [Thread.goTo, Thread.openGroup]
  rw [Option.any_some, Option.any_some, Regex.contains_toSpans_notNewline]
  have goesOn : (if (c != '\n') = true then (⟨3, [position], []⟩ : Thread ν) ::
        (if isBlank c then [⟨6, [], []⟩] else []) else if isBlank c then [⟨6, [], []⟩] else []) =
      (afterGap c position).reverse := by
    unfold afterGap
    by_cases newline : c = '\n' <;> by_cases blank : isBlank c = true <;> simp_all
  rw [← goesOn]
  rcases old with rfl | ⟨q, rfl⟩
  · exact h.proceeds_entry _
  · refine .fork (by simp [Thread.goTo, Thread.openGroup]) (h.at_ 3) (.again ?_ (h.proceeds_end ?_))
    · simp [Thread.goTo, Thread.openGroup]
    · simp [Thread.goTo, Thread.openGroup]

/-- The end of the text is no title. -/
theorem proceeds_gap_stop : Proceeds p ⟨position, some b, none⟩ []
    [⟨6, [], []⟩, ⟨p.entry, [], []⟩] [] [] none := by
  refine .fork (by simp) (h.at_ 6) (.consume (by simp [Thread.goTo]) (h.at_ 7) ?_)
  refine .opening (by simp [Thread.goTo]) (h.at_ 5) (.consume ?_ (h.at_ 4) (h.proceeds_entry _))
  simp [Thread.goTo, Thread.openGroup]

/-- In the word, a thread goes on after the next letter. -/
theorem proceeds_letter {done more : List Char} {d : Char} (split : word = done ++ d :: more)
    {before after : Option Char} (fresh : 8 + more.length ∉ seen) {ts further : List (Thread ν)}
    {found : Option (List (ν × Nat × Nat))}
    (others : Proceeds p ⟨position, before, after⟩ ((8 + more.length) :: seen) ts
      (if after = some d then [⟨expecting more, [], []⟩] else []) further found) :
    Proceeds p ⟨position, before, after⟩ seen (⟨expecting (d :: more), [], []⟩ :: ts) [] further
      found := by
  refine .consume fresh (h.at_letter split) ?_
  have letter : (if after.any (CharSet.char d).contains = true then
        [(⟨expecting more, [], []⟩ : Thread ν)] else []) =
      if after = some d then [⟨expecting more, [], []⟩] else [] := by
    cases after with
    | none => rfl
    | some c => simp only [Option.any_some, CharSet.contains, beq_iff_eq, Option.some.injEq,
        @eq_comm _ c d]
  rw [← letter] at others
  exact others

theorem proceeds_word {done more : List Char} {d : Char} (split : word = done ++ d :: more)
    (after : Option Char) : Proceeds p ⟨position, some b, after⟩ []
      [⟨expecting (d :: more), [], []⟩, ⟨p.entry, [], []⟩] []
      (if after = some d then [⟨expecting more, [], []⟩] else []) none :=
  h.proceeds_letter split (by simp) (h.proceeds_entry _)

/-- At the start of the text, a thread goes on after the first letter of the word. -/
theorem proceeds_start {more : List Char} {d : Char} (split : word = d :: more)
    (after : Option Char) : Proceeds p ⟨0, none, after⟩ [] [⟨p.entry, [], []⟩] []
      (if after = some d then [⟨expecting more, [], []⟩] else []) none := by
  refine .meet (by simp) h.at_entry ?_
  rw [split]
  refine h.proceeds_letter (show word = [] ++ d :: more from split) ?_ .done
  simp [h.entry, split]

/-! ## Scans -/

/-- A scan without threads finds nothing. -/
theorem scans_lost (rest : List Char) : Scans p (some b) position rest [] none := by
  induction rest generalizing b position with
  | nil => exact .stop (h.proceeds_entry _)
  | cons c rest ih => exact .step (h.proceeds_entry _) ih

/-- The title is the rest of the text, if that is on one line. -/
theorem scans_title (q : Nat) (rest : List Char) :
    Scans p (some b) position rest [⟨3, [q], []⟩] (lineAt? name q position rest) := by
  induction rest generalizing b position with
  | nil => exact .stop (h.proceeds_title_stop q)
  | cons c rest ih =>
    refine .step (h.proceeds_title q) ?_
    by_cases newline : c = '\n'
    · rw [if_pos newline, newline, lineAt?, if_pos List.mem_cons_self]
      exact h.scans_lost rest
    · rw [if_neg newline, lineAt?_cons newline]
      exact ih

/-- After the word, the title starts where the blanks end. -/
theorem scans_gap {older : List (Thread ν)} {rest : List Char}
    (old : older = [] ∨ rest ≠ [] ∧ ∃ q, older = [⟨3, [q], []⟩])
    (ends : rest.getLast?.any isBlank = false) :
    Scans p (some b) position rest (⟨6, [], []⟩ :: older) (titleAt? name position rest) := by
  induction rest generalizing b position older with
  | nil =>
    obtain rfl : older = [] := old.resolve_right fun h => h.1 rfl
    exact .stop h.proceeds_gap_stop
  | cons c rest ih =>
    refine .step (h.proceeds_gap (old.imp_right And.right)) ?_
    rw [List.reverse_reverse, afterGap]
    by_cases blank : isBlank c = true
    · have more : rest ≠ [] := by
        rintro rfl
        simp [blank] at ends
      rw [if_pos blank, titleAt?_blank blank]
      refine ih ?_ ?_
      · by_cases newline : c = '\n'
        · simp [newline]
        · simp [newline, more]
      · rwa [List.getLast?_cons_of_ne_nil more] at ends
    · have newline : c ≠ '\n' := by
        rintro rfl
        exact blank (by decide)
      rw [if_neg blank, if_neg newline, titleAt?_solid (Bool.eq_false_iff.2 blank),
        lineAt?_cons newline]
      exact h.scans_title position rest

/-- What is found after a letter of the word is found from there on, and nothing is after another
letter. -/
theorem scans_letter {d : Char} {more rest : List Char}
    (after : Scans p (some c) (position + 1) rest [⟨expecting more, [], []⟩]
      ((more.isPrefixOf? rest).bind (titleAt? name (position + 1 + more.length)))) :
    Scans p (some c) (position + 1) rest
      (if some c = some d then [⟨expecting more, [], []⟩] else []).reverse
      (((d :: more).isPrefixOf? (c :: rest)).bind
        (titleAt? name (position + (d :: more).length))) := by
  rw [List.isPrefixOf?, List.length_cons, show position + (more.length + 1) =
    position + 1 + more.length by omega]
  by_cases same : c = d
  · rw [if_pos (congrArg some same), if_pos (beq_iff_eq.2 same.symm)]
    exact after
  · rw [if_neg (by simpa using same), if_neg (by simpa using Ne.symm same)]
    exact h.scans_lost rest

/-- In the word, the letters that are still to come have to come. -/
theorem scans_word {done pending rest : List Char} (split : word = done ++ pending)
    (ends : rest.getLast?.any isBlank = false) :
    Scans p (some b) position rest [⟨expecting pending, [], []⟩]
      ((pending.isPrefixOf? rest).bind (titleAt? name (position + pending.length))) := by
  induction pending generalizing b position done rest with
  | nil => exact h.scans_gap (.inl rfl) ends
  | cons d more ih =>
    cases rest with
    | nil => exact .stop (h.proceeds_word split none)
    | cons c rest =>
      refine .step (h.proceeds_word split (some c)) (h.scans_letter ?_)
      have split' : word = (done ++ [d]) ++ more := by simpa using split
      exact ih split' (solid_of_cons ends)

/-- A heading is found in a text that starts with the word and has a title after it. -/
theorem search? {text : List Char} (ne : word ≠ []) (ends : text.getLast?.any isBlank = false) :
    p.search? text = (word.isPrefixOf? text).bind (titleAt? name word.length) := by
  obtain ⟨d, more, split⟩ := List.exists_cons_of_ne_nil ne
  apply Scans.search?
  rw [split, ← Nat.zero_add (d :: more).length]
  cases text with
  | nil => exact .stop (h.proceeds_start split none)
  | cons c rest =>
    refine .step (h.proceeds_start split (some c)) (h.scans_letter ?_)
    exact h.scans_word (show word = [d] ++ more from split) (solid_of_cons ends)

end IsHeading

end Program

end PlainSteps
