import Abacus.Proofs.Json.Reading
import Abacus.Proofs.Json.Writing
import Abacus.Proofs.Workspace.Access
import Abacus.Report.Storage

/-!
# Reports that are saved and loaded

A saved report is loaded as it was: every result, infinite or NaN ones among them, every message,
the empty one among them, and the JSON values that stand around them. The file is strict JSON in
ASCII.

## Main definitions

* `Report.IsFinite` — the numbers outside the results are finite.
* `Report.Storable` — the values of the report are within the limits of a reader.

## Main statements

* `Report.ofJson_toJson` — a report is what its object holds.
* `Report.save_of_writable` — what saving does at a path that can be written.
* `Report.exists_save_iff` — which reports are saved where.
* `Report.load_of_read` — what is loaded where the text of a report stands.
* `Report.load_save` — what is loaded after saving.
-/

namespace Abacus

/-! ### Outcomes and entries -/

/-- The word for a number that is not finite is read back. -/
theorem Numeral.real?_literal {x : Binary64} (h : x.isFinite = false) :
    Numeral.real? x.literal = some x := by
  cases x with
  | nan => decide
  | infinite negative => cases negative <;> decide
  | finite => cases h

/-- The number that a result is written as. -/
theorem Outcome.numberOfJson_result (x : Binary64) :
    numberOfJson (if x.isFinite then .float x else .str x.literal) = .ok x := by
  cases h : x.isFinite with
  | true => rfl
  | false =>
      rw [if_neg (by simp), numberOfJson, Numeral.real?_literal h]

namespace Entry

/-- An entry is what its object holds. -/
theorem ofJson_toJson (entry : Entry) : ofJson entry.toJson = .ok entry := by
  obtain ⟨line, expression, outcome⟩ := entry
  cases outcome with
  | value x =>
      have outcome : Outcome.ofMembers [("line", line), ("expression", expression),
          ("result", if x.isFinite then .float x else .str x.literal)] = .ok (.value x) :=
        congrArg (Except.map Outcome.value) (Outcome.numberOfJson_result x)
      rw [toJson, Outcome.toMembers, ofJson, outcome]
      rfl
  | failure message => rfl

theorem mapM_ofJson_toJson (entries : List Entry) :
    (entries.map toJson).mapM ofJson = .ok entries := by
  induction entries with
  | nil => rfl
  | cons entry entries ih =>
      rw [List.map_cons, List.mapM_cons, ofJson_toJson, ih]
      rfl

/-- Whatever a result is, it is written as a finite number or as a string. -/
theorem isFinite_toJson (entry : Entry) :
    entry.toJson.isFinite = true ↔
      entry.line.isFinite = true ∧ entry.expression.isFinite = true := by
  have outcome : Json.allMembersFinite entry.outcome.toMembers = true := by
    cases entry.outcome with
    | value x => cases h : x.isFinite <;> simp [Outcome.toMembers, Json.allMembersFinite, h,
        Json.isFinite]
    | failure message => rfl
  simp [toJson, Json.isFinite, Json.allMembersFinite, outcome]

/-- The object of an entry is one level deeper than its values. -/
theorem fits_toJson {depth : Nat} {entry : Entry} (line : Json.Fits depth entry.line)
    (expression : Json.Fits depth entry.expression) : Json.Fits (depth + 1) entry.toJson := by
  have outcome : ∀ member ∈ entry.outcome.toMembers, Json.Fits depth member.2 := by
    cases entry.outcome with
    | value x =>
        cases h : x.isFinite <;> simp [Outcome.toMembers, h, Json.Fits.float, Json.Fits.str]
    | failure message => simp [Outcome.toMembers, Json.Fits.str]
  have distinct : (("line", entry.line) :: ("expression", entry.expression) ::
      entry.outcome.toMembers).map Prod.fst |>.Nodup := by
    cases entry.outcome with
    | value x => exact (by decide : ["line", "expression", "result"].Nodup)
    | failure message => exact (by decide : ["line", "expression", "error"].Nodup)
  exact .obj distinct (List.forall_mem_cons.2 ⟨line, List.forall_mem_cons.2 ⟨expression, outcome⟩⟩)

end Entry

namespace Report

variable {report : Report} {ws : Workspace} {path : Path}

/-- **A report is what its object holds.** Results that are not finite are strings in it, and are
read back from these. -/
theorem ofJson_toJson (report : Report) : ofJson report.toJson = .ok report := by
  obtain ⟨source, timestamp, entries⟩ := report
  have listed : Entry.listOfJson (.arr (entries.map Entry.toJson)) = .ok entries :=
    Entry.mapM_ofJson_toJson entries
  calc ofJson (toJson ⟨source, timestamp, entries⟩)
    _ = (do
          let entries ← Entry.listOfJson (.arr (entries.map Entry.toJson))
          return ⟨source, timestamp, entries⟩) := rfl
    _ = .ok ⟨source, timestamp, entries⟩ := by
        rw [listed]
        rfl

/-- The numbers outside the results are finite. Results are written as strings where they are not,
so they are free. -/
def IsFinite (report : Report) : Prop :=
  report.source.isFinite = true ∧ report.timestamp.isFinite = true ∧
    ∀ entry ∈ report.entries, entry.line.isFinite = true ∧ entry.expression.isFinite = true

theorem isFinite_toJson : report.toJson.isFinite = true ↔ report.IsFinite := by
  have entries : Json.allFinite (report.entries.map Entry.toJson) = true ↔
      ∀ entry ∈ report.entries, entry.line.isFinite = true ∧ entry.expression.isFinite = true := by
    simp [Json.allFinite_iff, Entry.isFinite_toJson]
  simp [toJson, Json.isFinite, Json.allMembersFinite, entries, IsFinite]

/-- The JSON values of a report are within the limits of a reader, at the depth where they are
written. So is the number of entries, which is written too. -/
structure Storable (report : Report) : Prop where
  source : Json.Fits (Json.nestingLimit - 1) report.source
  timestamp : Json.Fits (Json.nestingLimit - 1) report.timestamp
  total : Decimal.digitCount report.total ≤ Numeral.maxIntegerDigits
  entries : ∀ entry ∈ report.entries, Json.Fits (Json.nestingLimit - 3) entry.line ∧
    Json.Fits (Json.nestingLimit - 3) entry.expression

theorem Storable.fits_toJson (h : report.Storable) :
    Json.Fits Json.nestingLimit report.toJson := by
  have counter {n : Nat} (le : n ≤ report.total) :
      Json.Fits (Json.nestingLimit - 1) (.int n) :=
    .int ((Decimal.digitCount_le_of_le le).trans h.total)
  -- The report, the list and the entry are each one level around a value of an entry.
  have entries :
      Json.Fits (Json.nestingLimit - 2 + 1) (.arr (report.entries.map Entry.toJson)) := by
    refine .arr fun v member => ?_
    obtain ⟨entry, there, rfl⟩ := List.mem_map.1 member
    have values := h.entries entry there
    exact Entry.fits_toJson values.1 values.2
  have distinct : List.Nodup ["source", "timestamp", "total", "passed", "failed", "entries"] := by
    decide
  refine .obj distinct ?_
  simp only [List.forall_mem_cons]
  exact ⟨h.source, h.timestamp, counter le_rfl, counter report.passed_le_total,
    counter (Nat.sub_le _ _), entries, List.forall_mem_nil _⟩

/-- What saving does at a path that can be written: the text is strict JSON in ASCII, and is what
stands in the file. Without a text the file is left alone. -/
theorem save_of_writable (h : ws.Writable path) (report : Report) :
    (report.IsFinite → ∃ written, report.save ws path = (written, none) ∧
      written.read path = .ok (Utf8.encode report.toJson.write)) ∧
    (¬ report.IsFinite → (report.save ws path).2 = some .notFinite) := by
  obtain ⟨made, written, directories, wrote, content⟩ :=
    h.exists_write (Utf8.encode report.toJson.write)
  constructor
  · intro finite
    have text : report.toJson.write? = some report.toJson.write := if_pos (isFinite_toJson.2 finite)
    refine ⟨written, ?_, content⟩
    simp only [save, directories, text, wrote]
  · intro notFinite
    have nothing : report.toJson.write? = none := if_neg fun h => notFinite (isFinite_toJson.1 h)
    simp only [save, directories, nothing]

/-- **Which reports are saved where:** those whose numbers outside the results are finite, at the
paths that can be written. -/
theorem exists_save_iff :
    (∃ written, report.save ws path = (written, none)) ↔ report.IsFinite ∧ ws.Writable path := by
  constructor
  · rintro ⟨left, saved⟩
    unfold save at saved
    split at saved
    · cases saved
    next made directories =>
    split at saved
    · cases saved
    next text texted =>
    split at saved
    · next written wrote =>
        obtain ⟨place, located, free, -⟩ := Workspace.write_eq_ok_iff.1 wrote
        refine ⟨?_, made, place, directories, located, free⟩
        by_contra notFinite
        have nothing : report.toJson.write? = none :=
          if_neg fun h => notFinite (isFinite_toJson.1 h)
        cases nothing.symm.trans texted
    · cases saved
  · rintro ⟨finite, writable⟩
    obtain ⟨written, saved, -⟩ := (save_of_writable writable report).1 finite
    exact ⟨written, saved⟩

/-- Where the text of a JSON value stands, what is loaded is the report that the value holds. -/
theorem load_of_write {v : Json} (fits : Json.Fits Json.nestingLimit v) (finite : v.isFinite = true)
    (held : ofJson v = .ok report) (content : ws.read path = .ok (Utf8.encode v.write)) :
    load ws path = .ok (some report) := by
  have text := Json.isText_write fits finite
  rw [load, content]
  simp only [ofBytes, Utf8.decode_encode, Json.read_of_isText text fits, held]

/-- Where the text of a report stands, the report is loaded. It does not matter how the text came
there. -/
theorem load_of_read (finite : report.IsFinite) (storable : report.Storable)
    (content : ws.read path = .ok (Utf8.encode report.toJson.write)) :
    load ws path = .ok (some report) :=
  load_of_write storable.fits_toJson (isFinite_toJson.2 finite) (ofJson_toJson report) content

/-- **A saved report is loaded as it was.** At a path that can be written, a report whose numbers
outside the results are finite is saved as strict JSON in ASCII, and if its values are within the
limits of a reader, the file holds the report again, with its results and messages as they were. A
report with another number outside the results is not saved. -/
theorem load_save (h : ws.Writable path) (report : Report) :
    (report.IsFinite → report.Storable → ∃ written, report.save ws path = (written, none) ∧
      written.read path = .ok (Utf8.encode report.toJson.write) ∧
      Json.IsText report.toJson report.toJson.write ∧
      Json.IsAscii report.toJson.write.toList ∧ load written path = .ok (some report)) ∧
    (¬ report.IsFinite → ∃ made, report.save ws path = (made, some .notFinite)) := by
  have saving := save_of_writable h report
  refine ⟨fun finite storable => ?_, fun notFinite => ⟨_, Prod.ext rfl (saving.2 notFinite)⟩⟩
  obtain ⟨written, saved, content⟩ := saving.1 finite
  have text := Json.isText_write storable.fits_toJson (isFinite_toJson.2 finite)
  have ascii : Json.IsAscii report.toJson.write.toList := by
    rw [Json.write, String.toList_ofList]
    exact Json.isAscii_writeAt 0 report.toJson
  exact ⟨written, saved, content, text, ascii, load_of_read finite storable content⟩

/-- A report of infinite, undefined and failed lines, in a directory that is not there yet. -/
theorem load_save_undefined :
    let report : Report := ⟨.str "sums", .null, [⟨.int 1, .str "1", .value (.infinite true)⟩,
      ⟨.int 2, .bool true, .value .nan⟩, ⟨.arr [], .obj [], .failure ""⟩]⟩
    ∃ written, report.save .empty ⟨"", ["out", "report"]⟩ = (written, none) ∧
      load written ⟨"", ["out", "report"]⟩ = .ok (some report) := by
  intro report
  have writable : Workspace.empty.Writable ⟨"", ["out", "report"]⟩ :=
    ⟨⟨[(["out"], .directory)]⟩, ["out", "report"], rfl, rfl, by decide⟩
  have finite : report.IsFinite := by
    simp [report, IsFinite, Json.isFinite, Json.allFinite, Json.allMembersFinite]
  have digit {n : Nat} (small : n < 10) : Decimal.digitCount n ≤ Numeral.maxIntegerDigits := by
    rw [Decimal.digitCount, Decimal.digits, Nat.toDigits_of_lt_base small, List.length_singleton]
    decide
  have storable : report.Storable := by
    have total : report.total < 10 := (show 3 < 10 by decide)
    refine ⟨.str _, .null, digit total, ?_⟩
    simp only [report, List.forall_mem_cons]
    exact ⟨⟨.int (digit (by decide)), .str _⟩, ⟨.int (digit (by decide)), .bool _⟩,
      ⟨.arr (List.forall_mem_nil _), .obj .nil (List.forall_mem_nil _)⟩, List.forall_mem_nil _⟩
  obtain ⟨written, saved, -, -, -, loaded⟩ := (load_save writable report).1 finite storable
  exact ⟨written, saved, loaded⟩

end Report

end Abacus
