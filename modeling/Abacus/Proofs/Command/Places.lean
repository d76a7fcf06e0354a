import Abacus.Proofs.Command.Batch
import Abacus.Proofs.Display.Escape

/-!
# Text that is put into markup

There are ten places in the markup of the library at which a text stands that is not its own: a
message, a token, a path, the source of a report, an expression. At each of them the text is
escaped, and then no tag is found in it; the tags that are found are those of the place, of which
the last one is missing if the text takes away its bracket by the backslashes that it ends in.

## Main definitions

* `Command.Place` — the places, with the markup before and behind the text.
* `Command.Place.tags` — the tags of the place.
* `Command.Place.Holds` — what shows a text shows the markup of the place around it.

## Main statements

* `Command.Place.markup_reads_text` — a text is read as text at each place.
-/

namespace Abacus.Command

open Display Display.Markup

/-- The places in markup at which a text stands that is not the library's own. What stands around it
is, save for what is wrong with a file that is no text, which is escaped as well. -/
inductive Place where
  /-- The message of a text that has no value or no tokens. -/
  | failure
  /-- A token in a table. -/
  | token
  /-- The source of a report over its table. -/
  | title
  /-- An expression in the table of a report. -/
  | expression
  /-- The message of an expression in the table of a report. -/
  | outcome
  /-- The source of a report without entries. -/
  | emptyReport
  /-- What is wrong with the settings. -/
  | settings
  /-- The path of a file that is missing. -/
  | missingFile
  /-- The path of a file that is no text, with what is wrong with its bytes behind it. A file that
  refuses to be read would stand here as well, but a workspace has none. -/
  | unreadableFile (fault : Utf8.DecodeFault)
  /-- The path of a file that was written. -/
  | written

namespace Place

/-- The markup before the text. It has the label and the tags that open. -/
def front : Place → List Char
  | failure => tagged "red" "Error:".toList ++ [' ']
  | token | expression => []
  | title => "Batch: ".toList
  | outcome => bracket "red".toList
  | emptyReport => bracket "yellow".toList ++ "No expressions found in ".toList
  | settings => tagged "red" "Invalid configuration:".toList ++ [' ']
  | missingFile => tagged "red" "Error:".toList ++ ' ' :: "No such file: ".toList
  | unreadableFile _ => tagged "red" "Error:".toList ++ ' ' :: "Cannot read ".toList
  | written => "Results written to ".toList

/-- The markup behind the text. Behind most texts there is none; a tag that opened directly before
the text closes here. -/
def back : Place → List Char
  | outcome => bracket ('/' :: "red".toList)
  | emptyReport => bracket ('/' :: "yellow".toList)
  | unreadableFile fault => ": ".toList ++ Render.escaped fault.message
  | _ => []

/-- The markup of a place with a text. The text is escaped, and what stands around it is not. -/
def markup (place : Place) (s : String) : List Char :=
  place.front ++ Render.escaped s ++ place.back

/-- The tags of a place: one opens a style and another closes it, or there are none. No others are
read, whatever the text is; that is what escaping is for. -/
def tags : Place → List (List Char)
  | token | title | expression | written => []
  | emptyReport => ["yellow".toList, '/' :: "yellow".toList]
  | _ => ["red".toList, '/' :: "red".toList]

theorem toList_escaped (s : String) : (escaped s).toList = Render.escaped s := by
  rw [escaped, String.toList_ofList]

theorem markup_failure (s : String) :
    tagged "red" "Error:".toList ++ ' ' :: Render.escaped s = failure.markup s := by
  dsimp only [markup, front, back]
  rw [List.append_nil, List.append_assoc, List.singleton_append]

/-- The cells of an entry. -/
theorem eq_of_entryMarkup {digits : Option Int} {entry : Entry} {row : List (List Char)}
    (made : Render.entryMarkup digits entry = .ok row) :
    ∃ outcome s, Render.outcomeMarkup digits entry.outcome = .ok outcome ∧
      entry.expression = .str s ∧
      row = [entry.line.plainText.toList, Render.escaped s, outcome] := by
  rw [Render.entryMarkup] at made
  cases shown : Render.outcomeMarkup digits entry.outcome with
  | error error =>
      rw [shown] at made
      cases made
  | ok outcome =>
      rw [shown] at made
      cases text : entry.expression with
      | str s =>
          rw [text] at made
          cases made
          exact ⟨outcome, s, rfl, rfl, rfl⟩
      | _ =>
          rw [text] at made
          cases made

theorem isPlain_back_unreadableFile (fault : Utf8.DecodeFault) :
    IsPlain (unreadableFile fault).back := by
  have said := isPlain_decodeFault fault
  dsimp only [back]
  rw [Render.escaped, escape_of_isPlain said, isPlain_append]
  exact ⟨by decide, said⟩

/-- The markup behind the text completes no tag that the text begins. -/
theorem trails_back (place : Place) : Trails place.back := by
  cases place with
  | outcome => exact trails_bracket _
  | emptyReport => exact trails_bracket _
  | unreadableFile fault =>
      refine trails_of_isPlain (isPlain_back_unreadableFile fault) ?_
      have first : ": ".toList = [':', ' '] := by decide
      dsimp only [back]
      simp [first, startsTag]
  | _ => exact trails_nil

section Shown

variable [TagReading]

/-- What shows a text shows the markup of the place around it. For every place these are the
functions that show it, with all their other arguments left open. -/
def Holds (s : String) : Place → Prop
  | failure =>
    (∀ (screen : Console) (digits : Option Int),
      Render.outcome screen digits (.failure s) = Render.print screen (failure.markup s)) ∧
    ∀ (ws : Workspace) (found : Settings) (text : String) (fault : Fault),
      Token.scan found.strict text = .error fault → fault.message = s →
        tokens ws found text = .message ws 1 (Render.print console (failure.markup s))
  | token => ∀ index : Nat, (Render.tokenMarkup index s)[1]? = some (token.markup s)
  | title =>
    ∀ (screen : Console) (digits : Option Int) (report : Report) (output : String),
      report.source = .str s → report.entries ≠ [] →
      Render.report screen digits report = .ok output →
      ∃ heading rows last, Render.cell (title.markup s) = .ok heading ∧
        output = Console.emptyLine ++ screen.showTable ⟨heading, Render.entryColumns, rows⟩ ++ last
  | expression =>
    ∀ (digits : Option Int) (entry : Entry) (row : List (List Char)),
      entry.expression = .str s → Render.entryMarkup digits entry = .ok row →
        row[1]? = some (expression.markup s)
  | outcome =>
    ∀ (digits : Option Int) (entry : Entry) (row : List (List Char)),
      entry.outcome = .failure s → Render.entryMarkup digits entry = .ok row →
        row[2]? = some (outcome.markup s)
  | emptyReport =>
    ∀ (screen : Console) (digits : Option Int) (report : Report),
      report.source = .str s → report.entries = [] →
        Render.report screen digits report = Render.print screen (emptyReport.markup s)
  | settings =>
    ∀ (environment : List (String × String)) (ws : Workspace) (timestamp : String)
      (invocation : Invocation) (error : Settings.SettingError),
      Settings.ofEnvironment environment = .error error → error.message = s →
        run environment ws timestamp invocation =
          .message ws 2 (Render.print console (settings.markup s))
  | missingFile =>
    ∀ (ws : Workspace) (found : Settings) (timestamp : String) (path : Path) (json : Option Path)
      (error : PathError),
      Batch.run ws found.strict path timestamp = .error (.path error) → path.text = s →
        batch ws found timestamp path json =
          .message ws 2 (Render.print console (missingFile.markup s))
  | unreadableFile fault =>
    ∀ (ws : Workspace) (found : Settings) (timestamp : String) (path : Path) (json : Option Path),
      Batch.run ws found.strict path timestamp = .error (.bytes fault) → path.text = s →
        batch ws found timestamp path json =
          .message ws 2 (Render.print console ((unreadableFile fault).markup s))
  | written =>
    ∀ (ws left : Workspace) (report : Report) (path : Path) (output errors : String),
      report.save ws path = (left, none) → path.text = s →
      Render.print console (written.markup s) = .ok errors →
        (finish ws report (some path) output).errors = errors

/-! ### The markup that is shown -/

/-- A message under a title is shown as the markup of a place. -/
theorem titled_eq {title text : String} {place : Place} {s : String}
    (h : tagged "red" title.toList ++ ' ' :: text.toList = place.markup s) :
    titled title text = Render.print console (place.markup s) := by
  rw [titled, h]

theorem holds_failure (s : String) : failure.Holds s := by
  refine ⟨fun screen digits => ?_, fun ws found text fault stopped message => ?_⟩
  · rw [Render.outcome, markup_failure]
  · rw [tokens, stopped, ← message]
    refine congrArg (Ending.message ws 1) (titled_eq ?_)
    rw [toList_escaped, markup_failure]

theorem holds_token (s : String) : token.Holds s := by
  intro index
  dsimp only [markup, front, back]
  rw [List.append_nil, List.nil_append]
  rfl

theorem holds_settings (s : String) : settings.Holds s := by
  intro environment ws timestamp invocation error stopped message
  rw [run, stopped, ← message]
  refine congrArg (Ending.message ws 2) (titled_eq ?_)
  dsimp only [markup, front, back]
  rw [toList_escaped, List.append_nil, List.append_assoc, List.singleton_append]

theorem holds_missingFile (s : String) : missingFile.Holds s := by
  intro ws found timestamp path json error stopped text
  rw [batch, stopped, ← text]
  refine congrArg (Ending.message ws 2) (titled_eq ?_)
  dsimp only [markup, front, back]
  rw [String.toList_append, toList_escaped, List.append_nil, List.append_assoc, List.cons_append]

theorem holds_unreadableFile (fault : Utf8.DecodeFault) (s : String) :
    (unreadableFile fault).Holds s := by
  intro ws found timestamp path json stopped text
  rw [batch, stopped, ← text]
  refine congrArg (Ending.message ws 2) (titled_eq ?_)
  dsimp only [markup, front, back]
  simp only [String.toList_append, toList_escaped, List.append_assoc, List.cons_append]

theorem holds_written (s : String) : written.Holds s := by
  intro ws left report path output errors saved text told
  have same : ("Results written to " ++ escaped path.text).toList = written.markup s := by
    dsimp only [markup, front, back]
    rw [String.toList_append, toList_escaped, text, List.append_nil]
  simp only [finish, saved, same, told]

theorem holds_expression (s : String) : expression.Holds s := by
  intro digits entry row text made
  obtain ⟨outcome, s', -, text', rfl⟩ := eq_of_entryMarkup made
  obtain rfl : s' = s := Json.str.inj (text'.symm.trans text)
  dsimp only [markup, front, back]
  rw [List.append_nil, List.nil_append]
  rfl

theorem holds_outcome (s : String) : outcome.Holds s := by
  intro digits entry row failed made
  obtain ⟨cell, s', shown, -, rfl⟩ := eq_of_entryMarkup made
  rw [failed] at shown
  cases shown
  rfl

theorem holds_emptyReport (s : String) : emptyReport.Holds s := by
  intro screen digits report source entries
  have same : tagged "yellow" ("No expressions found in ".toList ++ Render.escaped s) =
      emptyReport.markup s := by
    dsimp only [markup, front, back]
    simp only [tagged, List.append_assoc]
  rw [← same, Render.report, source, entries]
  rfl

theorem holds_title (s : String) : title.Holds s := by
  intro screen digits report output source entries shown
  obtain ⟨s', markups, rows, heading, last, source', -, -, titled, -, rfl⟩ :=
    Render.report_eq_ok shown entries
  obtain rfl : s' = s := Json.str.inj (source'.symm.trans source)
  refine ⟨heading, rows, last ++ Console.emptyLine, ?_, String.append_assoc⟩
  dsimp only [markup, front, back]
  rwa [List.append_nil]

/-- **What the library shows at a place is the markup of the place around the text.** So the places
are no list made up for the statement: each is a branch of a command. -/
theorem holds (place : Place) (s : String) : place.Holds s := by
  cases place with
  | failure => exact holds_failure s
  | token => exact holds_token s
  | title => exact holds_title s
  | expression => exact holds_expression s
  | outcome => exact holds_outcome s
  | emptyReport => exact holds_emptyReport s
  | settings => exact holds_settings s
  | missingFile => exact holds_missingFile s
  | unreadableFile fault => exact holds_unreadableFile fault s
  | written => exact holds_written s

/-! ### The tags of a place -/

/-- The parts of the markup before the text are read as they are, whatever the text is. -/
theorem complete_front (place : Place) : Complete place.front := by
  have plain {w : List Char} (h : IsPlain w) : Complete w := complete_of_isPlain h
  have red {w v : List Char} (h : IsPlain w) (h' : IsPlain v) : Complete (tagged "red" w ++ v) :=
    (complete_tagged isStyle_red h).append (plain h')
  cases place with
  | failure => exact red (by decide) (by decide)
  | token => exact complete_nil
  | title => exact plain (by decide)
  | expression => exact complete_nil
  | outcome => exact complete_bracket isStyle_red.opening
  | emptyReport => exact (complete_bracket isStyle_yellow.opening).append (plain (by decide))
  | settings => exact red (by decide) (by decide)
  | missingFile => exact red (by decide) (by decide)
  | unreadableFile fault => exact red (by decide) (by decide)
  | written => exact plain (by decide)

/-- The tags that stand before and behind a text, which may end in backslashes, are tags of the
place. -/
theorem tags_isPrefix (place : Place) (n : Nat) :
    Markup.tags (pieces place.front) ++
      Markup.tags (pieces (List.replicate n '\\' ++ place.back)) <+: place.tags := by
  -- Three shapes of places: without tags, with a title in a style, and with the text in a style.
  have nothing (w : List Char) (h : IsPlain w) (v : List Char) (h' : IsPlain v) :
      Markup.tags (pieces w) ++ Markup.tags (pieces (List.replicate n '\\' ++ v)) <+: [] := by
    rw [tags_plain h, tags_backslashes_plain h']
    exact List.prefix_rfl
  have title (w : List Char) (h : IsPlain w) (v : List Char) (h' : IsPlain v)
      (u : List Char) (h'' : IsPlain u) :
      Markup.tags (pieces (tagged "red" w ++ v)) ++
        Markup.tags (pieces (List.replicate n '\\' ++ u)) <+:
      ["red".toList, '/' :: "red".toList] := by
    rw [tagged, List.append_assoc, List.append_assoc, tags_bracket_append isStyle_red.opening,
      tags_plain_append h, tags_bracket_append isStyle_red.closing, tags_plain h',
      tags_backslashes_plain h'']
    exact List.prefix_rfl
  have within {name : String} (style : IsStyle name) (w : List Char) (h : IsPlain w) :
      Markup.tags (pieces (bracket name.toList ++ w)) ++
        Markup.tags (pieces (List.replicate n '\\' ++ bracket ('/' :: name.toList))) <+:
          [name.toList, '/' :: name.toList] := by
    rw [tags_bracket_append style.opening, tags_plain h, tags_backslashes_bracket style.closing]
    split
    · exact List.prefix_rfl
    · exact List.prefix_append [name.toList] [_]
  have empty : IsPlain [] := by decide
  cases place with
  | failure => exact title _ (by decide) _ (by decide) _ empty
  | token => exact nothing _ empty _ empty
  | title => exact nothing _ (by decide) _ empty
  | expression => exact nothing _ empty _ empty
  | outcome =>
      have tags := within isStyle_red [] empty
      rwa [List.append_nil] at tags
  | emptyReport => exact within isStyle_yellow _ (by decide)
  | settings => exact title _ (by decide) _ (by decide) _ empty
  | missingFile => exact title _ (by decide) _ (by decide) _ empty
  | unreadableFile fault =>
      exact title _ (by decide) _ (by decide) _ (isPlain_back_unreadableFile fault)
  | written => exact nothing _ (by decide) _ empty

/-- A style that is opened and closed again leaves the styles as they were. -/
theorem foldlM_apply_style {name : String} (style : IsStyle name) :
    [name.toList, '/' :: name.toList].foldlM Open.apply [] = .ok [] := by
  simp only [List.foldlM_cons, style.apply_open, bind, Except.bind, style.apply_close]
  rfl

/-- The tags of a place, as many of them as there are, close nothing that is not open. -/
theorem renders_of_tags_isPrefix {place : Place} {parts : List Piece}
    (h : Markup.tags parts <+: place.tags) : Renders [] parts := by
  have closed : place.tags.foldlM Open.apply [] = .ok [] := by
    cases place with
    | token | title | expression | written => rfl
    | emptyReport => exact foldlM_apply_style isStyle_yellow
    | _ => exact foldlM_apply_style isStyle_red
  obtain ⟨others, split⟩ := h
  rw [← split, List.foldlM_append] at closed
  rw [renders_iff_foldlM_tags]
  cases applied : (Markup.tags parts).foldlM Open.apply [] with
  | error fault =>
      rw [applied] at closed
      cases closed
  | ok next => exact ⟨next, rfl⟩

/-- **Text is never taken as markup.** At each place, no part that is read from the text is a tag,
the tags that are found are those of the place, and the markup can be rendered. -/
theorem markup_reads_text (place : Place) (s : String) :
    place.Holds s ∧ IsText place.front (Render.escaped s) place.back ∧
      Markup.tags (pieces (place.markup s)) <+: place.tags ∧
      ∃ text, Markup.render (place.markup s) = .ok text := by
  have reads : IsText place.front (Render.escaped s) place.back :=
    isText_escape place.complete_front place.trails_back s.toList
  have tags : Markup.tags (pieces (place.markup s)) <+: place.tags := by
    obtain ⟨body, n, parts, -, none⟩ := reads
    rw [markup, parts, tags_append, tags_append, none, List.append_nil]
    exact place.tags_isPrefix n
  exact ⟨place.holds s, reads, tags, renders_of_tags_isPrefix tags⟩

end Shown

end Place

end Abacus.Command
