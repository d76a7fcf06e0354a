import Abacus.Proofs.Calculator.Text
import Abacus.Proofs.Display.Columns
import Abacus.Proofs.Display.Shown
import Abacus.Proofs.Expression.Completion
import Abacus.Proofs.Render.Showing

/-!
# Messages on a console

The message of a text without a value stands on one line, behind a title, and in a cell of the table
of a report. Both show it as it is unless a backslash stands in it directly before a bracket that
begins no tag, or at its end: there the line shows one backslash as two, and the cell shows several
as half of them.

## Main statements

* `Calculator.isLine_of_outcomeOfText` — a message has no newline and ends in no blank.
* `Render.outcome_failure` — what is printed of a message.
* `Render.exists_row_of_report` — the row that a report has for each of its entries.
* `Render.cell_failure` — what the cell of a message shows.
* `Render.CellShows.exists_line` — where the cell stands on a wide console.
* `Render.shows_message` — both, and the messages that are shown as they are.
-/

namespace Abacus

open Display Display.Markup

/-! ### The characters of a message -/

namespace Expression

/-- A fault of an evaluation names one of the tokens, or none. -/
theorem mem_of_token? {α : Type} {A : Arithmetic α} {limit : Option Nat} {tokens : List String}
    {fault : Fault} (h : evaluate A limit tokens = .error fault) :
    ∀ t ∈ fault.token?, t ∈ tokens := by
  rcases tokens with _ | ⟨first, others⟩
  · cases h
    simp [Fault.token?]
  · rw [evaluate_eq_drive (by simp), drive] at h
    cases ran : run A limit .start (lexemes A (first :: others)) with
    | error fault' =>
        rw [ran] at h
        obtain rfl : fault' = fault := by simpa [Except.bind] using h
        rcases run_eq_error_cases ran with rfl | rfl | ⟨-, rfl | ⟨t, member, rfl | rfl⟩⟩
        · simp [Fault.token?]
        · simp [Fault.token?]
        · simp [Fault.token?]
        · simpa [Fault.token?] using member
        · simpa [Fault.token?] using member
    | ok q =>
        rw [ran] at h
        rcases q with ⟨frame, outer⟩ | ⟨sum, x, _ | ⟨frame, outer⟩⟩
        · cases h
          simp [Fault.token?]
        · cases h
        · cases h
          simp [Fault.token?]

end Expression

namespace Calculator

/-- What a fault of a text names has characters, and none of them is blank. -/
theorem token?_of_outcomeOfText {strict : Bool} {text message : String}
    (failed : outcomeOfText strict text = .failure message) :
    ∃ fault : Fault, fault.message = message ∧
      ∀ t ∈ fault.token?, t.toList ≠ [] ∧ ∀ c ∈ t.toList, Text.isBlank c = false := by
  rw [outcomeOfText_eq] at failed
  cases scanned : Token.scan strict text with
  | error fault =>
      rw [scanned] at failed
      refine ⟨fault, Outcome.failure.inj failed, ?_⟩
      cases strict with
      | false =>
          rw [Token.scan_false] at scanned
          cases scanned
      | true =>
          rw [Token.scan_true] at scanned
          cases stray : Token.firstStray? text with
          | none => simp [stray] at scanned
          | some c =>
              have other : CharClass.of c = .other := by simpa using List.find?_some stray
              obtain rfl : Fault.invalidCharacter c = fault := by simpa [stray] using scanned
              simpa [Fault.token?] using (CharClass.of_eq_other_iff.1 other).1
  | ok tokens =>
      rw [scanned] at failed
      cases evaluated : evaluate tokens with
      | ok x => simp [outcomeOfTokens, evaluated, Outcome.ofExcept] at failed
      | error fault =>
          refine ⟨fault, by simpa [outcomeOfTokens, evaluated, Outcome.ofExcept] using failed, ?_⟩
          intro t named
          have member := Expression.mem_of_token? evaluated t named
          rw [Token.eq_cut_of_scan scanned] at member
          have token := ((Token.writes_cut text).isToken t member).chars
          exact ⟨token.1, token.2.1⟩

end Calculator

/-! ### Messages are lines -/

namespace Display.Wrap

theorem isLine_of_visible {cs : List Char} (h : ∀ c ∈ cs, Text.isBlank c = false) : IsLine cs where
  plain c member := by
    rintro rfl
    exact absurd (h _ member) (by decide)
  last c last := h c (List.mem_of_mem_getLast? last)

theorem IsLine.append {front back : List Char} (h : IsLine back) (nonempty : back ≠ [])
    (plain : front.all (· != '\n') = true) : IsLine (front ++ back) where
  plain := List.forall_mem_append.2 ⟨by simpa using plain, h.plain⟩
  last c last := by
    rw [List.getLast?_append, List.getLast?_eq_some_getLast nonempty] at last
    refine h.last c ?_
    rwa [List.getLast?_eq_some_getLast nonempty]

theorem isLine_shownAtEnd {cs : List Char} (h : IsLine cs) : IsLine (shownAtEnd cs) where
  plain c member := by
    rcases mem_shownAtEnd member with member | rfl
    · exact h.plain c member
    · decide
  last c last := by
    rcases getLast?_shownAtEnd last with last | rfl
    · exact h.last c last
    · decide

theorem isLine_shownBefore {inside cs : List Char} (h : IsLine cs)
    (plain : (bracket inside).all (· != '\n') = true) : IsLine (shownBefore inside cs) where
  plain c member := by
    rcases mem_shownBefore member with member | rfl | member
    · exact h.plain c member
    · decide
    · simpa using List.all_eq_true.1 plain c member
  last c last := by
    rcases getLast?_shownBefore last with last | rfl | rfl
    · exact h.last c last
    · decide
    · decide

end Display.Wrap

/-- A message is a line if what it names has visible characters only. -/
theorem Fault.isLine_message {fault : Fault}
    (h : ∀ t ∈ fault.token?, t.toList ≠ [] ∧ ∀ c ∈ t.toList, Text.isBlank c = false) :
    Wrap.IsLine fault.message.toList := by
  have named {w t : String} (plain : w.toList.all (· != '\n') = true) (nonempty : t.toList ≠ [])
      (visible : ∀ c ∈ t.toList, Text.isBlank c = false) : Wrap.IsLine (w ++ t).toList := by
    rw [String.toList_append]
    exact (Wrap.isLine_of_visible visible).append nonempty plain
  cases fault with
  | invalidToken t => exact named (by decide) (h t rfl).1 (h t rfl).2
  | unexpectedToken t => exact named (by decide) (h t rfl).1 (h t rfl).2
  | invalidCharacter c => exact named (by decide) (h _ rfl).1 (h _ rfl).2
  | _ => decide

theorem Fault.message_ne_nil (fault : Fault) : fault.message.toList ≠ [] := by
  have named {w t : String} (nonempty : w.toList ≠ []) : (w ++ t).toList ≠ [] := by
    simp [nonempty]
  cases fault with
  | invalidToken t => exact named (by decide)
  | unexpectedToken t => exact named (by decide)
  | invalidCharacter c => exact named (by decide)
  | _ => decide

/-- **The message of a text without a value is a line.** The token that it may name has no blanks,
and stands at its end. -/
theorem Calculator.isLine_of_outcomeOfText {strict : Bool} {text message : String}
    (failed : outcomeOfText strict text = .failure message) :
    Wrap.IsLine message.toList ∧ message.toList ≠ [] := by
  obtain ⟨fault, rfl, visible⟩ := token?_of_outcomeOfText failed
  exact ⟨fault.isLine_message visible, fault.message_ne_nil⟩

namespace Render

section Shown

variable [TagReading] {console : Console} {digits : Option Int} {message : String}

/-! ### Behind a title -/

/-- **What is printed of a message,** on a console without colours that it fits. -/
theorem outcome_failure (colourless : console.colours = false) (line : Wrap.IsLine message.toList)
    (nonempty : message.toList ≠ [])
    (wide : Text.width ("Error: ".toList ++ shownAtEnd message.toList) ≤ console.width)
    (digits : Option Int) :
    Render.outcome console digits (.failure message) =
      .ok ("Error: " ++ String.ofList (shownAtEnd message.toList) ++ "\n") := by
  have isLine := Wrap.isLine_shownAtEnd line
  have some := shownAtEnd_ne_nil nonempty
  have title : "Error: ".toList = "Error:".toList ++ [' '] := by decide
  have markup : ' ' :: escaped message = [' '] ++ escape message.toList := rfl
  have rendered : Markup.render (tagged "red" "Error:".toList ++ ' ' :: escaped message) =
      .ok (StyledText.ofChars (Open.style [⟨"red", none⟩]) "Error:".toList ++
        StyledText.ofChars (Open.style []) (' ' :: shownAtEnd message.toList)) := by
    rw [Markup.render, renderPieces_tagged_append isStyle_red (by decide), markup,
      renderPieces_plain_append (by decide), renderPieces_escape]
    simp [Except.map, StyledText.ofChars]
  rw [Render.outcome, print, Console.showMarkup, rendered]
  generalize shownAtEnd message.toList = w at isLine some wide
  have chars : StyledText.chars (StyledText.ofChars (Open.style [⟨"red", none⟩]) "Error:".toList ++
      StyledText.ofChars (Open.style []) (' ' :: w)) = "Error: ".toList ++ w := by
    rw [title]
    simp [StyledText.chars, StyledText.ofChars, Function.comp_def]
  have runs : Run.ofText (StyledText.ofChars (Open.style [⟨"red", none⟩]) "Error:".toList ++
      StyledText.ofChars (Open.style []) (' ' :: w)) =
        [⟨"Error:".toList, Open.style [⟨"red", none⟩]⟩, ⟨' ' :: w, Open.style []⟩] := by
    have red : Open.style [⟨"red", none⟩] = (Style.ofColour .red).within .plain :=
      Open.style_colour_cons .red []
    have coloured : (Style.ofColour .red).within .plain ≠ .plain := by decide
    have apart : Open.style [⟨"red", none⟩] ≠ Open.style [] := fun same =>
      coloured (red.symm.trans same)
    rw [Run.ofText_append, Run.ofText_ofChars _ (by decide),
      Run.ofText_ofChars _ (List.cons_ne_nil _ _), List.singleton_append]
    intro c last d first
    rw [StyledText.style_of_mem_ofChars (List.mem_of_mem_getLast? last),
      StyledText.style_of_mem_ofChars (List.mem_of_mem_head? first)]
    exact apart
  have columns : Text.width "Error:".toList + Text.width (' ' :: w) ≤ console.width := by
    refine (Text.width_append_le (by decide) _).trans ?_
    rwa [title, List.append_assoc] at wide
  refine congrArg Except.ok ((Console.showText_eq colourless ?_ ?_ ?_).trans ?_)
  · rw [chars]
    exact isLine.append some (by decide)
  · rw [chars]
    exact wide
  · rw [runs, List.map_cons, List.map_singleton, List.sum_cons, List.sum_singleton]
    exact columns
  · rw [chars, String.ofList_append, String.ofList_append, String.ofList_toList]

/-! ### In a table -/

/-- **What the cell of a message shows,** in a column that it fits. -/
theorem cell_failure (line : Wrap.IsLine message.toList) (digits : Option Int) :
    ∃ markup text, outcomeMarkup digits (.failure message) = .ok markup ∧ cell markup = .ok text ∧
      text.chars = shownBefore ('/' :: "red".toList) message.toList ∧
      ∀ column ∈ entryColumns[2]?, ∀ width, Text.width text.chars + 2 * Table.margin ≤ width →
        (Table.cellLines column column.style width text).map Line.chars =
          [List.replicate (width - Table.margin - Text.width text.chars) ' ' ++ text.chars ++
            List.replicate Table.margin ' '] := by
  have rendered := renderPieces_escape_bracket isStyle_red.closing (isStyle_red.apply_close [])
    message.toList
  have isLine : Wrap.IsLine (shownBefore ('/' :: "red".toList) message.toList) :=
    Wrap.isLine_shownBefore line (by decide)
  refine ⟨_, StyledText.ofChars (Open.style [⟨"red", none⟩])
      (shownBefore ('/' :: "red".toList) message.toList),
    rfl, ?_, StyledText.chars_ofChars _ _, fun column third width fits => ?_⟩
  · rw [cell, Markup.render, tagged, List.append_assoc,
      renderPieces_bracket_append isStyle_red.opening (isStyle_red.apply_open []), escaped]
    exact congrArg (Except.mapError RenderError.markup) rendered
  · have toRight : column.toRight = true := by
      cases third
      rfl
    refine Table.cellLines_toRight toRight _ ?_ fits
    rwa [StyledText.chars_ofChars]

/-- The table of a report has a row for each of its entries. The row is made of the markup of the
entry, cell by cell, and of nothing else. -/
theorem exists_row_of_report {report : Report} {output : String}
    (shown : Render.report console digits report = .ok output) {entry : Entry}
    (member : entry ∈ report.entries) :
    ∃ (heading : StyledText) (rows : List (List StyledText)) (last : String)
      (markups : List (List Char)) (row : List StyledText),
      output = Console.emptyLine ++ console.showTable ⟨heading, entryColumns, rows⟩ ++ last ∧
      row ∈ rows ∧ entryMarkup digits entry = .ok markups ∧ markups.mapM cell = .ok row := by
  obtain ⟨s, markups, rows, heading, last, -, made, cells, -, -, rfl⟩ :=
    report_eq_ok shown (List.ne_nil_of_mem member)
  obtain ⟨markups', inside, made'⟩ := exists_mem_of_mapM made member
  obtain ⟨row, inside', cells'⟩ := exists_mem_of_mapM cells inside
  exact ⟨heading, rows, _, markups', row, String.append_assoc, inside', made', cells'⟩

/-! ### Both -/

/-- `LineShows message shown`: behind a title the message is shown as this text, on every console
without colours that is wide enough for one line. -/
def LineShows (message : String) (shown : List Char) : Prop :=
  ∀ (console : Console) (digits : Option Int), console.colours = false →
    Text.width ("Error: ".toList ++ shown) ≤ console.width →
    Render.outcome console digits (.failure message) =
      .ok ("Error: " ++ String.ofList shown ++ "\n")

/-- `CellShows message shown`: where a report with the message is shown, this text is the last cell
of a row of the table, and it stands on one line at the right if the column is wide enough. On a
console that has room for all columns it is (`CellShows.exists_line`). -/
def CellShows (message : String) (shown : List Char) : Prop :=
  ∀ (console : Console) (digits : Option Int) (report : Report) (output : String) (entry : Entry),
    Render.report console digits report = .ok output → entry ∈ report.entries →
    entry.outcome = .failure message →
    ∃ (heading : StyledText) (rows : List (List StyledText)) (last : String)
      (row : List StyledText) (text : StyledText),
      output = Console.emptyLine ++ console.showTable ⟨heading, entryColumns, rows⟩ ++ last ∧
      row ∈ rows ∧ row[2]? = some text ∧ text.chars = shown ∧
      ∀ column ∈ entryColumns[2]?, ∀ width, Text.width shown + 2 * Table.margin ≤ width →
        (Table.cellLines column column.style width text).map Line.chars =
          [List.replicate (width - Table.margin - Text.width shown) ' ' ++ shown ++
            List.replicate Table.margin ' ']

theorem cellShows_shownBefore (line : Wrap.IsLine message.toList) :
    CellShows message (shownBefore ('/' :: "red".toList) message.toList) := by
  intro console digits report output entry shown member failed
  obtain ⟨heading, rows, last, markups, row, split, inside, made, cells⟩ :=
    exists_row_of_report shown member
  obtain ⟨markup, text, marked, made', chars, lines⟩ := cell_failure line digits
  rw [chars] at lines
  refine ⟨heading, rows, last, row, text, split, inside, ?_, chars, lines⟩
  rw [entryMarkup, failed, marked] at made
  cases expression : textOf entry.expression with
  | error error => simp [expression, bind, Except.bind] at made
  | ok s =>
      obtain rfl : [entry.line.plainText.toList, escaped s, markup] = markups := by
        simpa [expression, bind, Except.bind, pure, Except.pure] using made
      simp only [List.mapM_cons, List.mapM_nil, made', bind, Except.bind, pure, Except.pure]
        at cells
      cases first : cell entry.line.plainText.toList with
      | error error => simp [first] at cells
      | ok text₀ =>
          cases second : cell (escaped s) with
          | error error => simp [first, second] at cells
          | ok text₁ =>
              simp only [first, second, Except.ok.injEq] at cells
              rw [← cells]
              rfl

/-- **The cell of a message on a wide console.** Where no column of the table is narrowed, what the
cell shows stands in one of its lines, at the right of the column. -/
theorem CellShows.exists_line {shown : List Char} (h : CellShows message shown)
    (plain : ∀ c ∈ shown, c ≠ '\n') {report : Report} {output : String}
    (rendered : Render.report console digits report = .ok output) {entry : Entry}
    (member : entry ∈ report.entries) (failed : entry.outcome = .failure message) :
    ∃ (heading : StyledText) (rows : List (List StyledText)) (last : String),
      output = Console.emptyLine ++ console.showTable ⟨heading, entryColumns, rows⟩ ++ last ∧
      (Table.Fits ⟨heading, entryColumns, rows⟩ console.width →
        ∃ line ∈ Table.lines ⟨heading, entryColumns, rows⟩ console.width, ∃ before blanks after,
          Line.chars line = before ++ '│' :: (List.replicate blanks ' ' ++ shown ++
            List.replicate Table.margin ' ') ++ '│' :: after) := by
  obtain ⟨heading, rows, last, row, text, split, inside, third, chars, cell⟩ :=
    h console digits report output entry rendered member failed
  refine ⟨heading, rows, last, split, fun fits => ?_⟩
  obtain ⟨column, there⟩ : ∃ column, entryColumns[2]? = some column := ⟨_, rfl⟩
  obtain ⟨width, wide, room⟩ := Table.exists_width_of_fits fits inside there third
  rw [Table.textWidth_eq (chars ▸ plain), chars] at room
  have lines := cell column there width room
  obtain ⟨shownLine, only⟩ := List.length_eq_one_iff.1 (by simpa using congrArg List.length lines)
  rw [only, List.map_singleton, List.singleton_inj] at lines
  obtain ⟨line, there', before, after, boxed⟩ :=
    Table.exists_line_of_mem inside there third wide (only ▸ List.mem_singleton_self shownLine)
  rw [lines] at boxed
  exact ⟨line, there', before, _, after, boxed⟩

/-- **How messages are shown.** Behind a title a message is shown as it is unless a backslash in it
stands directly before a bracket that begins no tag, or a single one at its end. In the table of a
report it is shown as it is unless there is such a bracket, or more than one backslash at its
end. -/
theorem shows_message {strict : Bool} {text message : String}
    (failed : Calculator.outcomeOfText strict text = .failure message) :
    LineShows message (shownAtEnd message.toList) ∧
    (shownAtEnd message.toList = message.toList ↔
      ¬ HidesBackslash message.toList ∧ trailing message.toList ≠ 1) ∧
    CellShows message (shownBefore ('/' :: "red".toList) message.toList) ∧
    (shownBefore ('/' :: "red".toList) message.toList = message.toList ↔
      ¬ HidesBackslash message.toList ∧ trailing message.toList < 2) := by
  obtain ⟨line, nonempty⟩ := Calculator.isLine_of_outcomeOfText failed
  exact ⟨fun console digits colourless wide => outcome_failure colourless line nonempty wide digits,
    shownAtEnd_eq_iff, cellShows_shownBefore line, shownBefore_eq_iff⟩

end Shown

/-- A backslash within a word is shown. -/
theorem shows_message_word_with_backslash :
    LineShows "Invalid token: a\\b" "Invalid token: a\\b".toList ∧
      CellShows "Invalid token: a\\b" "Invalid token: a\\b".toList := by
  have failed : Calculator.outcomeOfText false "a\\b" = .failure "Invalid token: a\\b" := by
    decide +kernel
  obtain ⟨line, -, cell, -⟩ := shows_message failed
  have atEnd : shownAtEnd "Invalid token: a\\b".toList = "Invalid token: a\\b".toList := by
    decide +kernel
  have before : shownBefore ('/' :: "red".toList) "Invalid token: a\\b".toList =
      "Invalid token: a\\b".toList := by
    decide +kernel
  rw [atEnd] at line
  rw [before] at cell
  exact ⟨line, cell⟩

/-- The backslash before a bracket is lost. -/
theorem outcome_backslash_bracket :
    Calculator.outcomeOfText false "\\[" = .failure "Invalid token: \\[" ∧
      Text.width ("Error: " ++ "Invalid token: \\[").toList ≤ 80 ∧
      Render.outcome ⟨80, false⟩ none (.failure "Invalid token: \\[") =
        .ok "Error: Invalid token: [\n" ∧
      "Error: Invalid token: [\n" ≠ "Error: " ++ "Invalid token: \\[" ++ "\n" := by
  have shown : shownAtEnd "Invalid token: \\[".toList = "Invalid token: [".toList := by
    decide +kernel
  refine ⟨by decide +kernel, by decide +kernel, ?_, by decide +kernel⟩
  rw [outcome_failure rfl (by decide +kernel) (by decide +kernel) (by decide +kernel), shown]
  decide +kernel

end Render

end Abacus
