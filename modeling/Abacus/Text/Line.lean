import Abacus.Text.Blank

/-!
# Lines of a text

A carriage return, alone or before a newline, counts as a newline. Lines end at newlines and at
eight further boundaries; the end of the text ends the last line too, unless it is empty.

## Main definitions

* `Text.normaliseNewlines` — the text with newlines only.
* `Text.isBoundary` — the characters that end a line.
* `Text.lines` — the lines of a text.
-/

namespace Abacus.Text

/-- The text with `\r\n` and `\r` replaced by `\n`. Reading a file does this before its lines are
looked at. -/
def normaliseNewlines : List Char → List Char
  | [] => []
  | '\r' :: '\n' :: rest => '\n' :: normaliseNewlines rest
  | c :: rest => (if c = '\r' then '\n' else c) :: normaliseNewlines rest

/-- The characters that end a line. -/
def isBoundary (c : Char) : Bool :=
  c == '\n' || c == '\r' || c == '\x0b' || c == '\x0c' || c == '\x1c' || c == '\x1d' ||
    c == '\x1e' || c == '\u0085' || c == '\u2028' || c == '\u2029'

/-- Boundaries are blank, so trimming a line takes them away. -/
theorem isBlank_of_isBoundary {c : Char} (h : isBoundary c = true) : isBlank c = true := by
  simp only [isBoundary, Bool.or_eq_true, beq_iff_eq] at h
  obtain (((((((((rfl | rfl) | rfl) | rfl) | rfl) | rfl) | rfl) | rfl) | rfl) | rfl) := h <;>
    decide +kernel

/-- The pieces of a text that boundaries end. Behind the last boundary there is a piece only if it
has characters. -/
def splitLines : List Char → List (List Char)
  | [] => []
  | c :: rest =>
    if isBoundary c then [] :: splitLines rest
    else
      match splitLines rest with
      | [] => [[c]]
      | line :: others => (c :: line) :: others

/-- The lines of a text. Newlines are normalised when a file is read and lines are split afterwards,
so that a carriage return and a newline together end one line, not two. -/
def lines (text : String) : List String :=
  (splitLines (normaliseNewlines text.toList)).map String.ofList

end Abacus.Text
