import Abacus.Report.Basic
import Abacus.Text.Line
import Abacus.Text.Utf8
import Abacus.Workspace

/-!
# Batches

A batch is a text file with one expression a line. Blank lines and lines that start with `#` are
skipped, but counted, so that every entry of the report points at its line in the file.

## Main definitions

* `Batch.expressionsOfText` — the numbered expressions of a text.
* `Batch.expressions` — the numbered expressions of a file.
* `Batch.run` — the report of a file.
-/

namespace Abacus

namespace Batch

/-- Why a file cannot be read as text: the path leads to none, or its bytes are not UTF-8. That a
file refuses to be read is no case here. -/
inductive FileError where
  | path (error : PathError)
  | bytes (fault : Utf8.DecodeFault)
  deriving DecidableEq, Repr

/-- A line that holds no expression, once trimmed: it is empty or a comment. A comment takes a line
of its own; behind an expression the mark is a character like others. -/
def isSkipped (line : String) : Bool := line.isEmpty || line.toList.head? == some '#'

/-- The expressions of a text, trimmed, each with the number of its line, from 1. Lines that are
skipped count as well, and so do those that end at a boundary other than a newline. -/
def expressionsOfText (text : String) : List (Nat × String) :=
  (((Text.lines text).zipIdx 1).map fun (line, number) => (number, Text.trim line)).filter
    fun item => !isSkipped item.2

/-- The numbered expressions of a file. All of it is read before the first is evaluated, so a fault
in its bytes leaves no expression at all. -/
def expressions (ws : Workspace) (path : Path) : Except FileError (List (Nat × String)) :=
  match ws.read path with
  | .error error => .error (.path error)
  | .ok bytes =>
    match Utf8.decode bytes with
    | .error fault => .error (.bytes fault)
    | .ok text => .ok (expressionsOfText text)

/-- The report of a file, made at a time. Every expression is evaluated by itself: one that fails is
an entry like the others, and none is left out for it. -/
def run (ws : Workspace) (strict : Bool) (path : Path) (timestamp : String) :
    Except FileError Report :=
  (expressions ws path).map fun items =>
    { Report.empty path.text timestamp with
      entries := items.map fun (number, text) => Entry.evaluate strict number text }

end Batch

end Abacus
