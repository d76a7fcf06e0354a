import Mathlib
import Abacus.Text.Line

/-!
# Lines that were joined

Lines without boundaries are joined by one terminator, which may also end the last of them. Cutting
the text into lines gives them back, up to empty lines at the end: those are not lines of the text
where no terminator ends them.

## Main definitions

* `Text.IsLine` — a text without boundaries.
* `Text.Terminator` — the three ways to end a line.
* `Text.joinLines` — the text of lines.

## Main statements

* `Text.getD_lines_joinLines` — the lines of a joined text are the joined ones.
-/

namespace Abacus.Text

/-- A text that no boundary cuts. There are more boundaries than newlines: form feeds are among
them, and the separators of ASCII and Unicode. -/
def IsLine (line : String) : Prop := ∀ c ∈ line.toList, isBoundary c = false

/-- What ends a line. These three are what files use; a text that is read may use them side by
side. -/
inductive Terminator where
  | newline
  | returnNewline
  | carriageReturn
  deriving DecidableEq, Repr

/-- The characters of a terminator. -/
def Terminator.chars : Terminator → List Char
  | newline => ['\n']
  | returnNewline => ['\r', '\n']
  | carriageReturn => ['\r']

/-- The text of lines with one terminator between them, and after the last one too if the text is
closed. -/
def joinLines (terminator : Terminator) (closed : Bool) (lines : List String) : String :=
  String.ofList (terminator.chars.intercalate (lines.map String.toList) ++
    if closed then terminator.chars else [])

/-! ### Newlines -/

theorem normaliseNewlines_cons {c : Char} (h : c ≠ '\r') (cs : List Char) :
    normaliseNewlines (c :: cs) = c :: normaliseNewlines cs := by
  rw [normaliseNewlines.eq_def]
  split
  · simp_all
  · simp_all
  · next other =>
      obtain ⟨rfl, rfl⟩ := List.cons.inj other
      rw [if_neg h]

/-- Characters that are no boundaries stay. -/
theorem normaliseNewlines_append {line : List Char} (plain : ∀ c ∈ line, isBoundary c = false)
    (rest : List Char) : normaliseNewlines (line ++ rest) = line ++ normaliseNewlines rest := by
  induction line with
  | nil => rfl
  | cons c line ih =>
      have inner : isBoundary c = false := plain c (by simp)
      have other : c ≠ '\r' := by
        rintro rfl
        simp [isBoundary] at inner
      rw [List.cons_append, normaliseNewlines_cons other,
        ih fun d member => plain d (List.mem_cons_of_mem c member), List.cons_append]

/-- A terminator becomes a newline. A carriage return would take a newline after it along. -/
theorem normaliseNewlines_terminator (terminator : Terminator) (rest : List Char)
    (h : terminator = .carriageReturn → rest.head? ≠ some '\n') :
    normaliseNewlines (terminator.chars ++ rest) = '\n' :: normaliseNewlines rest := by
  cases terminator with
  | newline => exact normaliseNewlines_cons (by decide) rest
  | returnNewline => rfl
  | carriageReturn =>
      rw [Terminator.chars, List.singleton_append, normaliseNewlines.eq_def]
      split
      · simp_all
      · simp_all
      · next other =>
          obtain ⟨rfl, rfl⟩ := List.cons.inj other
          simp

/-! ### Cutting -/

theorem splitLines_of_plain {line : List Char} (plain : ∀ c ∈ line, isBoundary c = false)
    (nonempty : line ≠ []) : splitLines line = [line] := by
  induction line with
  | nil => exact absurd rfl nonempty
  | cons c line ih =>
      have inner : isBoundary c = false := plain c (by simp)
      rw [splitLines, inner]
      by_cases last : line = []
      · simp [last, splitLines]
      · simp [ih (fun d member => plain d (List.mem_cons_of_mem c member)) last]

/-- A text without boundaries is its only line. -/
theorem lines_of_isLine {line : String} (plain : IsLine line) (nonempty : line ≠ "") :
    lines line = [line] := by
  have chars : line.toList ≠ [] := by simpa using nonempty
  have kept := normaliseNewlines_append plain []
  rw [normaliseNewlines, List.append_nil] at kept
  rw [lines, kept, splitLines_of_plain plain chars, List.map_singleton, String.ofList_toList]

/-- A newline ends the line before it. -/
theorem splitLines_append_newline {line : List Char}
    (plain : ∀ c ∈ line, isBoundary c = false) (rest : List Char) :
    splitLines (line ++ '\n' :: rest) = line :: splitLines rest := by
  induction line with
  | nil => simp [splitLines, isBoundary]
  | cons c line ih =>
      have inner : isBoundary c = false := plain c (by simp)
      rw [List.cons_append, splitLines, inner,
        ih fun d member => plain d (List.mem_cons_of_mem c member)]
      rfl

/-- After a carriage return, the next line or the end does not begin with a newline. -/
theorem head?_intercalate_ne (closed : Bool) {line : List Char} (others : List (List Char))
    (plain : ∀ c ∈ line, isBoundary c = false) :
    (Terminator.carriageReturn.chars.intercalate (line :: others) ++
      if closed then Terminator.carriageReturn.chars else []).head? ≠ some '\n' := by
  cases line with
  | nil => cases others <;> cases closed <;> simp [Terminator.chars, List.intercalate_cons_cons]
  | cons c line =>
      have inner : isBoundary c = false := plain c (by simp)
      have other : c ≠ '\n' := by
        rintro rfl
        simp [isBoundary] at inner
      cases others <;> simp [List.intercalate_cons_cons, other]

/-- The lines of joined characters. Where the last line is empty and nothing ends it, it is missing
from them. -/
theorem getD_splitLines_intercalate (terminator : Terminator) (closed : Bool)
    {lines : List (List Char)} (plain : ∀ line ∈ lines, ∀ c ∈ line, isBoundary c = false)
    (i : Nat) :
    (splitLines (normaliseNewlines (terminator.chars.intercalate lines ++
      if closed then terminator.chars else []))).getD i [] = lines.getD i [] := by
  have ending : splitLines (normaliseNewlines terminator.chars) = [[]] := by
    cases terminator <;> simp [Terminator.chars, normaliseNewlines, splitLines, isBoundary]
  induction lines generalizing i with
  | nil =>
      cases closed with
      | false => simp [normaliseNewlines, splitLines]
      | true => cases i <;> simp [ending]
  | cons line others ih =>
      have first : ∀ c ∈ line, isBoundary c = false := plain line (by simp)
      have later : ∀ l ∈ others, ∀ c ∈ l, isBoundary c = false := fun l member =>
        plain l (List.mem_cons_of_mem line member)
      cases others with
      | nil =>
          rw [List.intercalate_singleton, normaliseNewlines_append first]
          cases closed with
          | false =>
              by_cases empty : line = []
              · cases i <;> simp [empty, normaliseNewlines, splitLines]
              · simp [normaliseNewlines, splitLines_of_plain first empty]
          | true =>
              have ended := normaliseNewlines_terminator terminator [] (by simp)
              rw [List.append_nil] at ended
              rw [if_pos rfl, ended, splitLines_append_newline first]
              rfl
      | cons next others =>
          have apart := fun cr : terminator = .carriageReturn =>
            cr ▸ head?_intercalate_ne closed others (later next (by simp))
          rw [List.intercalate_cons_cons, List.append_assoc, List.append_assoc,
            normaliseNewlines_append first, normaliseNewlines_terminator terminator _ apart,
            splitLines_append_newline first]
          cases i with
          | zero => rfl
          | succ i => exact ih later i

/-- **The lines of a joined text are the joined ones,** up to empty ones at the end. -/
theorem getD_lines_joinLines (terminator : Terminator) (closed : Bool) {ls : List String}
    (plain : ∀ line ∈ ls, IsLine line) (i : Nat) :
    (lines (joinLines terminator closed ls)).getD i "" = ls.getD i "" := by
  have chars : ∀ line ∈ ls.map String.toList, ∀ c ∈ line, isBoundary c = false := by
    simpa [IsLine] using plain
  calc (lines (joinLines terminator closed ls)).getD i ""
    _ = String.ofList ((splitLines (normaliseNewlines
          (joinLines terminator closed ls).toList)).getD i []) := List.getD_map ..
    _ = String.ofList ((ls.map String.toList).getD i []) := by
        rw [joinLines, String.toList_ofList, getD_splitLines_intercalate terminator closed chars]
    _ = ls.getD i "" := by
        rw [show [] = "".toList from rfl, List.getD_map, String.ofList_toList]

end Abacus.Text
