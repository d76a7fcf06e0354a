import Abacus.Proofs.Batch.Entries
import Abacus.Proofs.Render.Showing
import Abacus.Proofs.Report.RoundTrip
import Abacus.Proofs.Text.Size

/-!
# Reports of batches

A batch has a report if its file can be read as text. The report holds strings and line numbers
only, so it can be shown, saved and loaded, whatever the lines say.

## Main definitions

* `Batch.IsSized` — the size of the file at a path has a text.

## Main statements

* `Batch.isTextual_of_run`, `Batch.isFinite_of_run`, `Batch.storable_of_run` — what is known of it.
-/

namespace Abacus.Batch

variable {ws : Workspace} {strict : Bool} {path : Path} {timestamp : String} {report : Report}

theorem isTextual_of_run (h : run ws strict path timestamp = .ok report) : report.IsTextual := by
  obtain ⟨content, text, -, -, rfl⟩ := run_eq_ok_iff.1 h
  refine ⟨⟨_, rfl⟩, ?_, ?_⟩ <;> simp only [reportOf, List.forall_mem_map]
  · exact fun item _ => ⟨_, rfl⟩
  · exact fun item _ => ⟨_, rfl⟩

theorem isFinite_of_run (h : run ws strict path timestamp = .ok report) : report.IsFinite := by
  obtain ⟨content, text, -, -, rfl⟩ := run_eq_ok_iff.1 h
  refine ⟨rfl, rfl, ?_⟩
  simp only [reportOf, List.forall_mem_map]
  exact fun item _ => ⟨rfl, rfl⟩

theorem length_expressionsOfText_le (text : String) :
    (expressionsOfText text).length ≤ (Text.lines text).length := by
  rw [expressionsOfText]
  refine (List.length_filter_le _ _).trans ?_
  rw [List.length_map, List.length_zipIdx]

/-- Lines are numbered up to their number. -/
theorem le_length_lines {text : String} {item : Nat × String} (h : item ∈ expressionsOfText text) :
    item.1 ≤ (Text.lines text).length := by
  obtain ⟨i, holds, rfl⟩ := mem_expressionsOfText_iff.1 h
  by_contra beyond
  rw [List.getD_eq_default _ _ (by omega)] at holds
  exact not_holds_empty holds

/-- The size of the file at the path, if there is one, has a text: the file has fewer than
`10 ^ Numeral.maxIntegerDigits` bytes. -/
def IsSized (ws : Workspace) (path : Path) : Prop :=
  ∀ content, ws.read path = .ok content →
    Decimal.digitCount content.length ≤ Numeral.maxIntegerDigits

/-- The report of a file is within the limits of a reader, since its numbers are not larger than the
file. -/
theorem storable_of_run (h : run ws strict path timestamp = .ok report)
    (sized : IsSized ws path) : report.Storable := by
  obtain ⟨content, text, read, decoded, rfl⟩ := run_eq_ok_iff.1 h
  -- Line numbers and counters are not larger than the number of lines, nor is that than the size.
  have within {n : Nat} (le : n ≤ (Text.lines text).length) :
      Decimal.digitCount n ≤ Numeral.maxIntegerDigits :=
    (Decimal.digitCount_le_of_le (le.trans (Text.length_lines_le_of_decode decoded))).trans
      (sized content read)
  refine ⟨.str _, .str _, ?_, ?_⟩
  · rw [Report.total, reportOf, List.length_map]
    exact within (length_expressionsOfText_le text)
  · simp only [reportOf, List.forall_mem_map]
    exact fun item member => ⟨.int (within (le_length_lines member)), .str _⟩

end Abacus.Batch
