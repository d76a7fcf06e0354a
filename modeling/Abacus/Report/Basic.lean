import Abacus.Calculator
import Abacus.Json.Basic

/-!
# Reports

A report lists the evaluated lines of a batch: where each stood, what it said, and how it came out.
Its head and the place and text of its lines are any JSON values, since reports are also read from
files; the reports that this library makes have strings and whole numbers there.

## Main definitions

* `Entry` — an evaluated line.
* `Report` — the source, the time and the entries; `Report.total`, `passed`, `failed`.
* `Report.add`, `Report.remove?` — the report with an entry more or less.

## Main statements

* `Report.passed_add_failed` — the counters add up.
* `Report.remove?_add` — taking out the last entry undoes adding it.
-/

namespace Abacus

/-- An evaluated line: its number in the file, the text that stood there, and how it came out. -/
structure Entry where
  line : Json
  expression : Json
  outcome : Outcome

namespace Entry

/-- The entry of a text that stands on a line. Whatever the text is, there is an entry: a fault is
an outcome like any other. -/
def evaluate (strict : Bool) (line : Int) (text : String) : Entry :=
  ⟨.int line, .str text, Calculator.outcomeOfText strict text⟩

end Entry

/-- The evaluated lines of a batch, in the order in which they stood, with the name of the file and
the time at which it was read. Counters are no fields: they are always those of the entries. -/
structure Report where
  source : Json
  timestamp : Json
  entries : List Entry

namespace Report

/-- The report of a source without any entries. -/
def empty (source timestamp : String) : Report := ⟨.str source, .str timestamp, []⟩

/-- The number of entries. -/
def total (report : Report) : Nat := report.entries.length

/-- The number of entries that have a value. -/
def passed (report : Report) : Nat := report.entries.countP fun entry => entry.outcome.isValue

/-- The number of entries that have none. It is what the number of all leaves, so that the counters
add up whatever an entry is. -/
def failed (report : Report) : Nat := report.total - report.passed

/-- The report with an entry at its end. -/
def add (report : Report) (entry : Entry) : Report :=
  { report with entries := report.entries ++ [entry] }

theorem passed_le_total (report : Report) : report.passed ≤ report.total :=
  List.countP_le_length

/-- Every entry is counted once, as passed or as failed. -/
theorem passed_add_failed (report : Report) : report.passed + report.failed = report.total :=
  Nat.add_sub_of_le report.passed_le_total

/-- The report without the entry at an index. Entries are an ordinary list, so they can be taken out
again, and the counters go along. A negative index counts from the end; there is no such report if
the index is out of range. -/
def remove? (report : Report) (index : Int) : Option Report :=
  let position := if index < 0 then index + report.total else index
  if 0 ≤ position ∧ position < report.total then
    some { report with entries := report.entries.eraseIdx position.toNat }
  else none

/-- Taking out the last entry undoes adding it. -/
theorem remove?_add (report : Report) (entry : Entry) :
    (report.add entry).remove? (-1) = some report := by
  have total : (report.add entry).total = report.entries.length + 1 := List.length_append
  have last : (report.entries ++ [entry]).eraseIdx report.entries.length = report.entries := by
    simp [List.eraseIdx_append_of_length_le]
  have fromEnd : (-1 : Int) < 0 := by decide
  have position : (-1 + ((report.entries.length + 1 : Nat) : Int)) = report.entries.length := by
    omega
  rw [remove?, total, if_pos fromEnd, position, if_pos (by omega), Int.toNat_natCast, add, last]

end Report

end Abacus
