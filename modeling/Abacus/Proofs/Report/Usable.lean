import Abacus.Proofs.Display.Escape
import Abacus.Proofs.Json.Strings
import Abacus.Proofs.Render.Showing
import Abacus.Proofs.Report.Reloading

/-!
# Loaded reports that can be used

A report is loaded whatever JSON values its source, its time, and the lines and expressions of its
entries are. It can be used, which is to say shown and saved, if and only if the source and the
expressions are strings, the time is finite, and the lines are finite and can be taken as markup.
The last depends on how the display reads tags: `[b]1[/bold]` is a line if both spellings have one
name, and `[/bold]` is none.

## Main definitions

* `Report.IsUsable` — a report that can be shown and saved.
* `Json.IsShownLine` — a value that can be the line of an entry.
* `Report.Shaped` — the members of an object that make a usable report.
* `Report.IsExact` — a file of which nothing is lost or left open.

## Main statements

* `Report.isUsable_iff` — which reports can be used.
* `Report.isUsable_iff_of_load` — which loaded reports can be used, as their files say.

## Design notes

Files with a lone surrogate in a string are not judged. A reader of texts cannot keep it and puts
U+FFFD in its place, which can be shown, while a console that prints UTF-8 fails on the surrogate.
Nor are lines judged with a tag for which the display has no style: it fails when it comes to show
what stands inside, and does not if nothing is shown there.

The equivalence would be true of the definitions here without these conditions. They stand in it
because it would say too much about a reader that keeps surrogates, and about a display that makes
styles late.

That saving is without limits does not matter to loaded reports, whose values are within those of a
reader (`Report.storable_of_load`).
-/

namespace Abacus

open Display Display.Markup

/-- The value is a string. Of a source or an expression nothing else can be shown. -/
def Json.IsString (v : Json) : Prop := ∃ s, v = .str s

theorem Json.IsString.isFinite {v : Json} (h : v.IsString) : v.isFinite = true := by
  obtain ⟨s, rfl⟩ := h
  rfl

/-- A file can be put somewhere. -/
theorem Report.exists_writable : ∃ ws path, Workspace.Writable ws path :=
  ⟨.empty, ⟨"", ["report"]⟩, .empty, ["report"], rfl, rfl, by decide⟩

namespace Report

variable {report : Report} {ws : Workspace} {path : Path}

/-- The text that was encoded is the one that is held. -/
theorem HoldsText.eq_of_read {s t : String} (h : HoldsText ws path t)
    (content : ws.read path = .ok (Utf8.encode s)) : t = s := by
  obtain ⟨bytes, read, decoded⟩ := h
  cases read.symm.trans content
  exact (Except.ok.inj ((Utf8.decode_encode s).symm.trans decoded)).symm

end Report

section Usable

variable [TagReading]

/-! ### Reports -/

/-- The value can be shown as the line of an entry, and saved. The text of a line is taken as
markup: each of its tags has to be one that the display can open, or close. -/
structure Json.IsShownLine (v : Json) : Prop where
  finite : v.isFinite = true
  renders : Renders [] (pieces v.plainText.toList)

/-- The number of a line can be shown. -/
theorem Json.isShownLine_int (n : Int) : (Json.int n).IsShownLine :=
  ⟨rfl, (inert_of_isPlain (isPlain_toString_int n)).renders []⟩

/-- The entry can be shown and saved. Its outcome is no concern, since every outcome can be shown
and saved. -/
structure Entry.IsUsable (entry : Entry) : Prop where
  line : entry.line.IsShownLine
  expression : entry.expression.IsString

namespace Report

/-- The report can be shown on every console, with every number of digits in range, and can be saved
at every path that can be written. -/
structure IsUsable (report : Report) : Prop where
  shown : ∀ console digits, Render.InRange digits →
    ∃ output, Render.report console digits report = .ok output
  saved : ∀ ws path, Workspace.Writable ws path →
    ∃ written, report.save ws path = (written, none)

variable {report : Report}

/-- **Which reports can be used:** both conditions come down to conditions on the values, which can
be looked up in the file. -/
theorem isUsable_iff :
    report.IsUsable ↔ report.source.IsString ∧ report.timestamp.isFinite = true ∧
      ∀ entry ∈ report.entries, entry.IsUsable := by
  constructor
  · rintro ⟨shown, saved⟩
    obtain ⟨ws, path, writable⟩ := exists_writable
    obtain ⟨source, entries⟩ := Render.exists_report_iff.1 (shown ⟨80, false⟩ none
      Render.inRange_none)
    obtain ⟨⟨-, timestamp, finite⟩, -⟩ := exists_save_iff.1 (saved ws path writable)
    refine ⟨source, timestamp, fun entry member => ?_⟩
    have showable := entries entry member
    exact ⟨⟨(finite entry member).1, showable.line⟩, showable.expression⟩
  · rintro ⟨source, timestamp, entries⟩
    constructor
    · intro console digits range
      refine Render.exists_report_iff.2 ⟨source, fun entry member => ?_⟩
      obtain ⟨line, expression⟩ := entries entry member
      exact ⟨line.renders, expression, range.showable entry.outcome⟩
    · intro ws path writable
      refine exists_save_iff.2 ⟨⟨source.isFinite, timestamp, fun entry member => ?_⟩, writable⟩
      obtain ⟨line, expression⟩ := entries entry member
      exact ⟨line.finite, expression.isFinite⟩

end Report

/-! ### Files -/

/-- The display has a style for every tag that the text of the value opens. A line without tags
always has them, and so has every line on a display that takes unknown styles for plain ones. -/
def Json.HasStyles (v : Json) : Prop :=
  ∀ inside ∈ Markup.tags (pieces v.plainText.toList), inside.head? ≠ some '/' →
    ∀ tag ∈ Tag.read? inside, (TagReading.style? tag).isSome = true

/-- Nothing of the text of a report is lost when it is read, since no string has a lone surrogate,
and nothing of its lines is left open by the display, since every tag has a style. -/
structure Report.IsExact (text : String) (report : Report) : Prop where
  paired : Json.IsPaired text
  styled : ∀ entry ∈ report.entries, entry.line.HasStyles

/-- The members of an object that make a usable entry, if they make one. A member that is missing is
no obstacle, for its default is fine. -/
structure Entry.Shaped (members : List (String × Json)) : Prop where
  line : Json.Member "line" Json.IsShownLine members
  expression : Json.Member "expression" Json.IsString members

/-- The members of an object that make a usable report, if they make one. Entries that are no list
have no say: there are none then, or nothing is loaded. -/
structure Report.Shaped (members : List (String × Json)) : Prop where
  source : Json.Member "source" Json.IsString members
  timestamp : Json.Member "timestamp" (fun v => v.isFinite = true) members
  entries : ∀ items, Json.member? "entries" members = some (.arr items) →
    ∀ entry, .obj entry ∈ items → Entry.Shaped entry

namespace Entry

/-- Which entries can be used, as their objects say. -/
theorem isUsable_iff_of_ofJson {v : Json} {entry : Entry} (h : ofJson v = .ok entry) :
    ∃ members, v = .obj members ∧ (entry.IsUsable ↔ Shaped members) := by
  obtain ⟨members, outcome, rfl, -, rfl⟩ := ofJson_eq_ok_iff.1 h
  have line := Json.member_iff (Json.isShownLine_int 0) "line" members
  have expression := Json.member_iff (p := Json.IsString) ⟨"", rfl⟩ "expression" members
  exact ⟨members, rfl, fun usable => ⟨line.1 usable.line, expression.1 usable.expression⟩,
    fun shaped => ⟨line.2 shaped.line, expression.2 shaped.expression⟩⟩

/-- Which lists have only entries that can be used. What is no list has none. -/
theorem forall_isUsable_iff_of_listOfJson {v : Json} {entries : List Entry}
    (h : listOfJson v = .ok entries) :
    (∀ entry ∈ entries, entry.IsUsable) ↔
      ∀ items, v = .arr items → ∀ members, .obj members ∈ items → Shaped members := by
  cases v with
  | arr items =>
      have read : ∀ item ∈ items, ∃ entry, ofJson item = .ok entry :=
        Render.exists_mapM_eq_ok_iff.1 ⟨entries, h⟩
      rw [forall_mem_iff_of_mapM h]
      simp only [Json.arr.injEq, forall_eq']
      constructor
      · intro usable members member
        obtain ⟨entry, made, this⟩ := usable _ member
        obtain ⟨_, same, shaped⟩ := isUsable_iff_of_ofJson made
        cases same
        exact shaped.1 this
      · intro shaped item member
        obtain ⟨entry, made⟩ := read item member
        obtain ⟨members, rfl, usable⟩ := isUsable_iff_of_ofJson made
        exact ⟨entry, made, usable.2 (shaped members member)⟩
  | _ => simp [Report.eq_nil_of_listOfJson (by simp) h]

end Entry

namespace Report

variable {report : Report}

/-- Which reports can be used, as their objects say. -/
theorem isUsable_iff_of_ofJson {v : Json} (h : ofJson v = .ok report) :
    ∃ members, v = .obj members ∧ (report.IsUsable ↔ Shaped members) := by
  obtain ⟨members, entries, rfl, listed, rfl⟩ := ofJson_eq_ok_iff.1 h
  have source := Json.member_iff (p := Json.IsString) ⟨"", rfl⟩ "source" members
  have timestamp := @Json.member_iff (fun v => v.isFinite = true) (.str "") rfl "timestamp" members
  -- Where there is no list, the entries are those of the empty one.
  have items : (∀ entry ∈ entries, entry.IsUsable) ↔
      ∀ items, Json.member? "entries" members = some (.arr items) →
        ∀ entry, .obj entry ∈ items → Entry.Shaped entry := by
    rw [Entry.forall_isUsable_iff_of_listOfJson listed]
    cases there : Json.member? "entries" members <;> simp
  refine ⟨members, rfl, isUsable_iff.trans ?_⟩
  constructor
  · rintro ⟨text, finite, usable⟩
    exact ⟨source.1 text, timestamp.1 finite, items.1 usable⟩
  · rintro ⟨text, finite, shaped⟩
    exact ⟨source.2 text, timestamp.2 finite, items.2 shaped⟩

variable {ws : Workspace} {path : Path}

/-- **Which loaded reports can be used.** A file from which a report is loaded holds the text of an
object. If nothing of it is lost or left open, the report can be shown and saved if and only if its
source and its expressions, where they are there, are strings, its time is finite, and its lines are
finite and have no tag on which the display fails: a closing tag with the name of no open one, a
name that cannot be read, or a handler that is closed and cannot be evaluated. -/
theorem isUsable_iff_of_load (loaded : load ws path = .ok (some report)) :
    ∃ text members, HoldsText ws path text ∧ Json.read text = .ok (.obj members) ∧
      (IsExact text report → (report.IsUsable ↔ Shaped members)) := by
  obtain ⟨text, v, holds, read, held⟩ := exists_of_load_eq_some loaded
  obtain ⟨members, rfl, usable⟩ := isUsable_iff_of_ofJson held
  exact ⟨text, members, holds, read, fun _ => usable⟩

end Report

end Usable

namespace Report

/-- Two spellings of one name open and close the style of a line. -/
theorem isShownLine_bold : Json.IsShownLine (.str "[b]1[/bold]") := by
  have opening : IsTag ['b'] := ⟨'b', [], rfl, rfl, by simp⟩
  have closing : IsTag ['/', 'b', 'o', 'l', 'd'] :=
    ⟨'/', ['b', 'o', 'l', 'd'], rfl, rfl, by simp⟩
  have tags : tags (pieces "[b]1[/bold]".toList) = [['b'], ['/', 'b', 'o', 'l', 'd']] := by
    have parts : "[b]1[/bold]".toList =
        bracket ['b'] ++ (['1'] ++ (bracket ['/', 'b', 'o', 'l', 'd'] ++ [])) := rfl
    rw [parts, tags_bracket_append opening, tags_plain_append (by decide),
      tags_bracket_append closing, pieces_nil, tags_nil]
  refine ⟨rfl, renders_iff_foldlM_tags.2 ⟨[], ?_⟩⟩
  change (Markup.tags (pieces "[b]1[/bold]".toList)).foldlM Open.apply [] = .ok []
  rw [tags]
  decide

/-- A line whose tags are two spellings of one name can be shown and saved. -/
theorem isUsable_of_load_styled_line :
    ∃ report, load ⟨[(["report"], .file (Utf8.encode (Json.write (.obj [("entries", .arr [.obj
      [("line", .str "[b]1[/bold]"), ("error", .str "")]])]))))]⟩ ⟨"", ["report"]⟩ =
        .ok (some report) ∧ report.IsUsable := by
  set entry : List (String × Json) := [("line", .str "[b]1[/bold]"), ("error", .str "")]
  set members : List (String × Json) := [("entries", .arr [.obj entry])]
  have distinct : (entry.map Prod.fst).Nodup := by decide
  have values : ∀ member ∈ entry, Json.Fits (Json.nestingLimit - 3) member.2 := by
    simp [entry, Json.Fits.str]
  have fits : Json.Fits (Json.nestingLimit - 3 + 1 + 1 + 1) (.obj members) :=
    .obj (List.nodup_singleton _) (List.forall_mem_singleton.2
      (.arr (List.forall_mem_singleton.2 (.obj distinct values))))
  have loaded : load ⟨[(["report"], .file (Utf8.encode (Json.write (.obj members))))]⟩
      ⟨"", ["report"]⟩ =
        .ok (some ⟨.str "", .str "", [⟨.str "[b]1[/bold]", .str "", .failure ""⟩]⟩) :=
    load_of_write fits rfl rfl rfl
  obtain ⟨text, members', holds, read, usable⟩ := isUsable_iff_of_load loaded
  obtain rfl := holds.eq_of_read rfl
  obtain rfl : members' = members := by
    rw [Json.read_of_isText (Json.isText_write fits rfl) fits] at read
    exact (Json.obj.inj (Except.ok.inj read)).symm
  have whole : IsExact (Json.write (.obj members))
      ⟨.str "", .str "", [⟨.str "[b]1[/bold]", .str "", .failure ""⟩]⟩ :=
    ⟨Json.isPaired_write _, fun _ _ _ _ _ _ _ => rfl⟩
  refine ⟨_, loaded, (usable whole).2 ⟨?_, ?_, ?_⟩⟩
  · simp [Json.Member, Json.member?, members]
  · simp [Json.Member, Json.member?, members]
  · intro items there entry' member
    have list : items = [.obj entry] := by simpa [Json.member?, members, eq_comm] using there
    obtain rfl : entry' = entry := by simpa [list] using member
    refine ⟨?_, ?_⟩ <;> simp [Json.Member, Json.member?, entry, isShownLine_bold]

/-- A number is no source. -/
theorem exists_load_numeral_source :
    ∃ report, load ⟨[(["report"], .file (Utf8.encode (Json.write (.obj
      [("source", .int 5)]))))]⟩ ⟨"", ["report"]⟩ = .ok (some report) ∧ ¬ report.IsUsable := by
  have digit : Decimal.digitCount 5 ≤ Numeral.maxIntegerDigits := by
    rw [Decimal.digitCount, Decimal.digits, Nat.toDigits_of_lt_base (by decide)]
    decide
  have fits : Json.Fits Json.nestingLimit (.obj [("source", .int 5)]) :=
    .obj (List.nodup_singleton _) (List.forall_mem_singleton.2 (.int digit))
  refine ⟨⟨.int 5, .str "", []⟩, load_of_write fits rfl rfl rfl, fun usable => ?_⟩
  obtain ⟨⟨s, isString⟩, -⟩ := isUsable_iff.1 usable
  cases isString

end Report

end Abacus
