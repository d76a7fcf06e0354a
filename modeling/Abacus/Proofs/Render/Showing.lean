import Abacus.Proofs.Binary64.Literal
import Abacus.Proofs.Display.Markup
import Abacus.Render

/-!
# What can be shown

Printing fails on a number of digits out of range, on JSON values that are no text, and on markup
that closes what is not open. Of a report only the lines are taken as markup; its source,
expressions and messages are escaped, so that it does not matter what they say.

## Main definitions

* `Render.InRange` — a number of digits that a text has, or none.
* `Render.Showable` — an outcome that can be shown with a number of digits.
* `Entry.IsShowable` — an entry that can be shown in a table.
* `Report.IsTextual` — the source and the expressions are strings, the lines are integers.

## Main statements

* `Render.exists_print_iff` — which markup can be printed.
* `Render.exists_outcome_iff`, `Render.exists_tokens` — which outcomes and tokens can be shown.
* `Render.exists_report_iff` — which reports can be shown.
* `Render.report_eq_ok` — what a report shows.
-/

namespace Abacus

open Display Display.Markup

/-! ### Plain texts -/

theorem isPlain_of_isNumeralChar {cs : List Char} (h : ∀ c ∈ cs, Numeral.IsNumeralChar c) :
    IsPlain cs := by
  intro c member
  have other {d : Char} (apart : ¬ Numeral.IsNumeralChar d) : c ≠ d := by
    rintro rfl
    exact apart (h c member)
  refine ⟨other ?_, other ?_, other ?_⟩ <;> simp [Numeral.IsNumeralChar, Numeral.IsMark]

theorem isPlain_digits (n : Nat) : IsPlain (Decimal.digits n) :=
  isPlain_of_isNumeralChar (Decimal.isDigits_digits n).chars

theorem isPlain_toString_nat (n : Nat) : IsPlain (toString n).toList := by
  rw [Nat.toString_eq_ofList_toDigits, String.toList_ofList]
  exact isPlain_digits n

theorem isPlain_toString_int (n : Int) : IsPlain (toString n).toList := by
  cases n with
  | ofNat n => exact isPlain_toString_nat n
  | negSucc n =>
      have text : toString (Int.negSucc n) = "-" ++ toString (n + 1) := rfl
      rw [text, String.toList_append, isPlain_append]
      exact ⟨by decide, isPlain_toString_nat (n + 1)⟩

theorem isPlain_writeSign (negative : Bool) : IsPlain (Binary64.writeSign negative) := by
  cases negative <;> decide

theorem isPlain_write {layout : Decimal.Layout}
    (mark : layout.wholeMark = [] ∨ layout.wholeMark = ['.', '0']) (d : Decimal) :
    IsPlain (d.write layout) := by
  obtain ⟨d', spelled, -⟩ := Decimal.spells_write mark d
  exact isPlain_of_isNumeralChar spelled.chars

theorem isPlain_writeWith {magnitude : Nat → List Char} (h : ∀ quanta, IsPlain (magnitude quanta))
    (x : Binary64) : IsPlain (x.writeWith magnitude).toList := by
  cases x with
  | nan => exact (by decide : IsPlain "nan".toList)
  | infinite negative =>
      rw [Binary64.writeWith, String.toList_ofList, isPlain_append]
      exact ⟨isPlain_writeSign negative, by decide⟩
  | finite negative quanta _ =>
      rw [Binary64.writeWith, String.toList_ofList, isPlain_append]
      exact ⟨isPlain_writeSign negative, h quanta⟩

namespace Render

/-- A number of digits that a text has, or none. Out of this range no number has a text but negative
zero. -/
def InRange (digits : Option Int) : Prop := ∀ n ∈ digits, 0 ≤ n ∧ n ≤ Binary64.maxDigits

/-- Every number has a text of a number of digits in range, and it is plain. -/
theorem exists_display? {digits : Option Int} (range : InRange digits) (x : Binary64) :
    ∃ text, x.display? digits = some text ∧ IsPlain text.toList := by
  have literal : IsPlain x.literal.toList :=
    isPlain_writeWith (fun _ => isPlain_write (.inr rfl) _) x
  unfold Binary64.display?
  split
  · exact ⟨"-0", rfl, by decide⟩
  cases digits with
  | some count =>
      dsimp only
      rw [if_pos (range count rfl)]
      exact ⟨_, rfl, isPlain_writeWith (fun _ => isPlain_write (.inl rfl) _) x⟩
  | none =>
      cases whole : x.toInt? with
      | none => exact ⟨_, rfl, literal⟩
      | some n =>
          dsimp only
          split
          · refine ⟨_, rfl, ?_⟩
            rw [String.toList_ofList, isPlain_append]
            exact ⟨isPlain_writeSign _, isPlain_digits _⟩
          · exact ⟨_, rfl, literal⟩

/-- An outcome that can be shown: any failure, and any number if the number of digits is in range.
Negative zero is shown the same with every number of digits. -/
def Showable (digits : Option Int) : Outcome → Prop
  | .value x => InRange digits ∨ x = Binary64.zero true
  | .failure _ => True

variable {digits : Option Int}

theorem inRange_none : InRange none := by
  intro n member
  cases member

theorem InRange.showable (h : InRange digits) (outcome : Outcome) : Showable digits outcome := by
  cases outcome with
  | value x => exact .inl h
  | failure message => trivial

theorem display?_eq_none {x : Binary64} (range : ¬ InRange digits)
    (other : x ≠ Binary64.zero true) : x.display? digits = none := by
  have apart : ¬ (x.isZero && x.isNegative) = true := by
    intro same
    rw [Bool.and_eq_true] at same
    obtain ⟨zero, negative⟩ := same
    cases x with
    | finite sign quanta _ =>
        obtain rfl : quanta = 0 := by simpa [Binary64.isZero] using zero
        obtain rfl : sign = true := negative
        exact other rfl
    | nan | infinite => cases zero
  cases digits with
  | none => exact absurd inRange_none range
  | some count =>
      have out : ¬ (0 ≤ count ∧ count ≤ Binary64.maxDigits) := by
        intro within
        refine range fun n member => ?_
        cases member
        exact within
      rw [Binary64.display?, if_neg apart]
      exact if_neg out

/-- The text of a value that can be shown is plain. -/
theorem exists_valueText {x : Binary64} (h : Showable digits (.value x)) :
    ∃ text, valueText digits x = .ok text ∧ IsPlain text := by
  rcases h with range | rfl
  · obtain ⟨text, shown, plain⟩ := exists_display? range x
    exact ⟨text.toList, by rw [valueText, shown], plain⟩
  · exact ⟨"-0".toList, rfl, by decide⟩

theorem valueText_eq_error {x : Binary64} (h : ¬ Showable digits (.value x)) :
    valueText digits x = .error .digitsOutOfRange := by
  obtain ⟨range, other⟩ := not_or.1 h
  rw [valueText, display?_eq_none range other]

theorem outcomeMarkup_eq_error {outcome : Outcome} (h : ¬ Showable digits outcome) :
    outcomeMarkup digits outcome = .error .digitsOutOfRange := by
  cases outcome with
  | value x =>
      rw [outcomeMarkup, valueText_eq_error h]
      rfl
  | failure message => exact absurd trivial h

theorem exists_textOf_iff {v : Json} : (∃ s, textOf v = .ok s) ↔ ∃ s, v = .str s := by
  cases v <;> simp [textOf]

theorem isPlain_name (kind : TokenKind) : IsPlain kind.name.toList := by
  cases kind <;> decide

/-! ### Lists of parts -/

/-- All parts have a result with a property if each has. -/
theorem exists_mapM_iff {α β ε : Type} {f : α → Except ε β} {p : β → Prop} {xs : List α} :
    (∃ ys, xs.mapM f = .ok ys ∧ ∀ y ∈ ys, p y) ↔ ∀ x ∈ xs, ∃ y, f x = .ok y ∧ p y := by
  induction xs with
  | nil => simp [pure, Except.pure]
  | cons x xs ih =>
      rw [List.forall_mem_cons, ← ih, List.mapM_cons]
      cases first : f x with
      | error error => simp [bind, Except.bind]
      | ok y =>
          cases others : xs.mapM f with
          | error error => simp [bind, Except.bind]
          | ok ys => simp [bind, Except.bind, pure, Except.pure]

theorem exists_mapM_eq_ok_iff {α β ε : Type} {f : α → Except ε β} {xs : List α} :
    (∃ ys, xs.mapM f = .ok ys) ↔ ∀ x ∈ xs, ∃ y, f x = .ok y := by
  simpa using @exists_mapM_iff α β ε f (fun _ => True) xs

/-- Each part has its result among those of all. -/
theorem exists_mem_of_mapM {α β ε : Type} {f : α → Except ε β} {xs : List α} {ys : List β}
    (h : xs.mapM f = .ok ys) {x : α} (member : x ∈ xs) : ∃ y ∈ ys, f x = .ok y := by
  obtain ⟨y, found, inside⟩ :=
    (exists_mapM_iff (p := (· ∈ ys))).1 ⟨ys, h, fun y inside => inside⟩ x member
  exact ⟨y, inside, found⟩

/-! ### Markup -/

/-- Text has a line, even if it is empty. -/
theorem wrap_ne_nil (width : Nat) (fold : Bool) (text : StyledText) :
    Wrap.wrap width fold text ≠ [] := by
  have paragraphs : Wrap.paragraphs text ≠ [] := by
    cases text with
    | nil => simp [Wrap.paragraphs]
    | cons c rest =>
        rw [Wrap.paragraphs]
        split
        · exact List.cons_ne_nil _ _
        · split <;> exact List.cons_ne_nil _ _
  obtain ⟨line, member⟩ := List.exists_mem_of_ne_nil _ paragraphs
  intro nothing
  have pieces := List.flatMap_eq_nil_iff.1 nothing line member
  rw [List.map_eq_nil_iff] at pieces
  cases breaks : Wrap.breaks width fold line.chars <;> simp [breaks, Wrap.divideAt] at pieces

variable [TagReading] {console : Console} {markup : List Char}

/-- Markup can be printed if its parts can be rendered. Neither the width nor the colours of the
console have a say. -/
theorem exists_print_iff :
    (∃ output, print console markup = .ok output) ↔ Renders [] (pieces markup) := by
  unfold print Console.showMarkup Markup.render Renders
  cases renderPieces [] (pieces markup) <;> simp [Except.map, Except.mapError]

theorem exists_cell_iff :
    (∃ text, cell markup = .ok text) ↔ Renders [] (pieces markup) := by
  unfold cell Markup.render Renders
  cases renderPieces [] (pieces markup) <;> simp [Except.mapError]

/-- What is printed is never empty, since every line ends with a newline. -/
theorem print_ne_empty {output : String} (h : print console markup = .ok output) :
    output ≠ "" := by
  unfold print Console.showMarkup at h
  cases rendered : Markup.render markup with
  | error fault => simp [rendered, Except.map, Except.mapError] at h
  | ok text =>
      obtain ⟨line, member⟩ := List.exists_mem_of_ne_nil _ (wrap_ne_nil console.width true text)
      rw [rendered] at h
      cases h
      intro empty
      have none := List.flatMap_eq_nil_iff.1 (String.ofList_eq_empty_iff.1 empty) _
        (List.mem_map_of_mem member)
      simp at none

/-- A row of cells can be made if the markup of each can be rendered. -/
theorem exists_cells_iff {row : List (List Char)} :
    (∃ cells, row.mapM cell = .ok cells) ↔ ∀ markup ∈ row, Renders [] (pieces markup) := by
  simp only [exists_mapM_eq_ok_iff, exists_cell_iff]

/-! ### Outcomes and tokens -/

/-- **Which outcomes can be shown:** every failure, and a value with a number of digits in range.
Messages are escaped, so there is no tag in them to fail on. -/
theorem exists_outcome_iff {outcome : Outcome} :
    (∃ output, Render.outcome console digits outcome = .ok output) ↔ Showable digits outcome := by
  cases outcome with
  | value x =>
      constructor
      · rintro ⟨output, shown⟩
        by_contra hidden
        rw [Render.outcome, valueText_eq_error hidden] at shown
        cases shown
      · intro showable
        obtain ⟨text, shown, plain⟩ := exists_valueText showable
        rw [Render.outcome, shown]
        exact exists_print_iff.2 (renders_tagged isStyle_green (inert_of_isPlain plain) [])
  | failure message =>
      refine iff_of_true (exists_print_iff.2 ?_) trivial
      exact renders_tagged_append isStyle_red (inert_of_isPlain (by decide))
        ((inert_escape message.toList).plain_append (w := [' ']) (by decide)).renders

theorem exists_outcomeMarkup {outcome : Outcome} (h : Showable digits outcome) :
    ∃ markup, outcomeMarkup digits outcome = .ok markup ∧ Renders [] (pieces markup) := by
  cases outcome with
  | value x =>
      obtain ⟨text, shown, plain⟩ := exists_valueText h
      refine ⟨Markup.tagged "green" text, by rw [outcomeMarkup, shown]; rfl, ?_⟩
      exact renders_tagged isStyle_green (inert_of_isPlain plain) []
  | failure message =>
      exact ⟨_, rfl, renders_tagged isStyle_red (inert_escape message.toList) []⟩

theorem isStyle_kindColour (kind : TokenKind) : IsStyle (kindColour kind) := by
  cases kind
  · exact isStyle_cyan
  · exact isStyle_yellow
  · exact isStyle_magenta
  · exact isStyle_red

/-- **All tokens can be shown,** whatever characters they have: they are escaped, and everything
around them is fixed. -/
theorem exists_tokens (console : Console) (ts : List String) :
    ∃ output, tokens console ts = .ok output := by
  have cells : ∀ item ∈ ts.zipIdx, ∃ cells,
      (tokenMarkup item.2 item.1).mapM cell = .ok cells := by
    intro item _
    rw [exists_cells_iff]
    simp only [tokenMarkup, List.forall_mem_cons]
    exact ⟨(inert_of_isPlain (isPlain_toString_nat item.2)).renders [],
      (inert_escape item.1.toList).renders [],
      renders_tagged (isStyle_kindColour _) (inert_of_isPlain (isPlain_name _)) [],
      List.forall_mem_nil _⟩
  obtain ⟨rows, made⟩ := exists_mapM_eq_ok_iff.2 cells
  obtain ⟨title, titled⟩ : ∃ title, cell "Tokens".toList = .ok title :=
    exists_cell_iff.2 ((inert_of_isPlain (by decide)).renders [])
  rw [tokens]
  split
  · exact exists_print_iff.2
      (renders_tagged isStyle_yellow (inert_of_isPlain (by decide)) [])
  · simp only [made, titled, bind, Except.bind, pure, Except.pure]
    exact ⟨_, rfl⟩

end Render

/-! ### Reports -/

/-- The source and the expressions are strings, and the lines are integers. Every report of a batch
is of this kind; one that was loaded need not be. -/
structure Report.IsTextual (report : Report) : Prop where
  source : ∃ s, report.source = .str s
  line : ∀ entry ∈ report.entries, ∃ n, entry.line = .int n
  expression : ∀ entry ∈ report.entries, ∃ s, entry.expression = .str s

variable [TagReading]

/-- The entry can be shown in a table: its line is markup, its expression a string. The expression
is escaped and the line is not, so tags in a line are read. -/
structure Entry.IsShowable (digits : Option Int) (entry : Entry) : Prop where
  line : Renders [] (pieces entry.line.plainText.toList)
  expression : ∃ s, entry.expression = .str s
  outcome : Render.Showable digits entry.outcome

namespace Render

variable {digits : Option Int} {console : Console} {r : Report}

/-- Which entries have a row. -/
theorem exists_entryMarkup_iff {entry : Entry} :
    (∃ row, entryMarkup digits entry = .ok row ∧ ∀ markup ∈ row, Renders [] (pieces markup)) ↔
      entry.IsShowable digits := by
  constructor
  · rintro ⟨row, made, renders⟩
    have showable : Showable digits entry.outcome := by
      by_contra hidden
      rw [entryMarkup, outcomeMarkup_eq_error hidden] at made
      cases made
    obtain ⟨outcome, shown, -⟩ := exists_outcomeMarkup showable
    rw [entryMarkup, shown] at made
    cases text : textOf entry.expression with
    | error error =>
        rw [text] at made
        cases made
    | ok s =>
        rw [text] at made
        cases made
        exact ⟨renders _ List.mem_cons_self, exists_textOf_iff.1 ⟨s, text⟩, showable⟩
  · rintro ⟨line, ⟨s, expression⟩, outcome⟩
    obtain ⟨outcome, shown, renders⟩ := exists_outcomeMarkup outcome
    refine ⟨[entry.line.plainText.toList, escaped s, outcome], ?_, ?_⟩
    · rw [entryMarkup, shown, expression]
      rfl
    · simp only [List.forall_mem_cons]
      exact ⟨line, (inert_escape s.toList).renders [], renders, List.forall_mem_nil _⟩

theorem renders_summary (r : Report) : Renders [] (pieces (summary r)) := by
  have count : IsPlain (toString r.passed ++ "/" ++ toString r.total ++ " evaluated").toList := by
    simp only [String.toList_append, isPlain_append, and_assoc]
    exact ⟨isPlain_toString_nat _, by decide, isPlain_toString_nat _, by decide⟩
  have failures : IsPlain (", " ++ toString r.failed ++ " failed").toList := by
    simp only [String.toList_append, isPlain_append, and_assoc]
    exact ⟨by decide, isPlain_toString_nat _, by decide⟩
  have style : IsStyle (if r.failed = 0 then "green" else "yellow") := by
    split
    · exact isStyle_green
    · exact isStyle_yellow
  exact renders_tagged_append style (inert_of_isPlain count)
    (inert_of_isPlain failures).renders

/-- **Which reports can be shown:** those whose source is a string and whose entries can be
shown. -/
theorem exists_report_iff :
    (∃ output, report console digits r = .ok output) ↔
      (∃ s, r.source = .str s) ∧ ∀ entry ∈ r.entries, entry.IsShowable digits := by
  rw [← exists_textOf_iff]
  simp only [← exists_entryMarkup_iff, ← exists_cells_iff]
  rw [← exists_mapM_iff]
  unfold report
  cases text : textOf r.source with
  | error error => simp [bind, Except.bind]
  | ok source =>
      have titled {w : List Char} (plain : IsPlain w) : Inert (w ++ escaped source) :=
        (inert_escape source.toList).plain_append plain
      have nothing : ∃ output, print console
          (Markup.tagged "yellow" ("No expressions found in ".toList ++ escaped source)) =
            .ok output :=
        exists_print_iff.2 (renders_tagged isStyle_yellow (titled (by decide)) [])
      obtain ⟨title, titleShown⟩ := exists_cell_iff.2
        ((titled (w := "Batch: ".toList) (by decide)).renders [])
      obtain ⟨last, lastShown⟩ : ∃ output, print console (summary r) = .ok output :=
        exists_print_iff.2 (renders_summary r)
      simp only [titleShown, lastShown, bind, Except.bind]
      rw [and_iff_right ⟨source, rfl⟩]
      split
      · next empty =>
          rw [List.isEmpty_iff.1 empty]
          exact iff_of_true nothing ⟨[], rfl, List.forall_mem_nil _⟩
      · cases made : r.entries.mapM (entryMarkup digits) with
        | error error => simp
        | ok markups =>
            simp only [Except.ok.injEq, exists_eq_left', ← exists_mapM_eq_ok_iff]
            cases markups.mapM fun row => row.mapM cell <;> simp [pure, Except.pure]

/-- What a report with entries shows. -/
theorem report_eq_ok {output : String} (shown : report console digits r = .ok output)
    (entries : r.entries ≠ []) :
    ∃ s markups rows heading last, r.source = .str s ∧
      r.entries.mapM (entryMarkup digits) = .ok markups ∧
      markups.mapM (fun row => row.mapM cell) = .ok rows ∧
      cell ("Batch: ".toList ++ escaped s) = .ok heading ∧ print console (summary r) = .ok last ∧
      output = Console.emptyLine ++ console.showTable ⟨heading, entryColumns, rows⟩ ++ last ++
        Console.emptyLine := by
  have some : r.entries.isEmpty = false := by simpa using entries
  rw [report] at shown
  -- Each stage has to succeed for the report to be shown.
  cases text : textOf r.source with
  | error error => simp [text, bind, Except.bind] at shown
  | ok s =>
      obtain ⟨s', source⟩ := exists_textOf_iff.1 ⟨s, text⟩
      obtain rfl : s' = s := by simpa [source, textOf] using text
      simp only [text, bind, Except.bind, some, Bool.false_eq_true, if_false] at shown
      cases made : r.entries.mapM (entryMarkup digits) with
      | error error => simp [made] at shown
      | ok markups =>
          simp only [made] at shown
          cases cells : markups.mapM fun row => row.mapM cell with
          | error error => simp [cells] at shown
          | ok rows =>
              simp only [cells] at shown
              cases titled : cell ("Batch: ".toList ++ escaped s') with
              | error error => simp only [titled, reduceCtorEq] at shown
              | ok heading =>
                  simp only [titled] at shown
                  cases summed : print console (summary r) with
                  | error error => simp [summed] at shown
                  | ok last =>
                      simp only [summed, pure, Except.pure] at shown
                      exact ⟨s', markups, rows, heading, last, source, rfl, cells, titled, rfl,
                        (Except.ok.inj shown).symm⟩

/-- A textual report can be shown if its outcomes can. -/
theorem exists_report_iff_of_isTextual (textual : r.IsTextual) :
    (∃ output, report console digits r = .ok output) ↔
      ∀ entry ∈ r.entries, Showable digits entry.outcome := by
  rw [exists_report_iff, and_iff_right textual.source]
  refine forall₂_congr fun entry member => ⟨Entry.IsShowable.outcome, fun outcome => ?_⟩
  obtain ⟨n, line⟩ := textual.line entry member
  have number : IsPlain entry.line.plainText.toList := by
    rw [line]
    exact isPlain_toString_int n
  exact ⟨(inert_of_isPlain number).renders [], textual.expression entry member, outcome⟩

end Render

end Abacus
