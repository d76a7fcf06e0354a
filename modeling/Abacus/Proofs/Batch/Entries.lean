import Abacus.Batch
import Abacus.Proofs.Calculator.Emptiness
import Abacus.Proofs.Text.Line
import Abacus.Proofs.Workspace.Access

/-!
# The entries of a batch

A batch is a file of lines with one terminator. Its report has one entry for each line that holds an
expression, in the order of the lines and under the number of the line, whatever stands between
them.

## Main definitions

* `Batch.Holds` — a line that holds an expression: it is neither blank nor a comment.
* `Batch.entryOf` — the entry of a line, and `Batch.reportOf`, the report of a text.
* `Batch.NotText` — the file at a path holds bytes that are no text.

## Main statements

* `Batch.mem_expressionsOfText_iff`, `Batch.pairwise_expressionsOfText` — what is found in a text,
  and in which order.
* `Batch.run_eq_ok_iff`, `Batch.exists_run_eq_error_iff` — which files have a report.
* `Batch.exists_run_of_holds` — the report of a file of one line.
* `Batch.run_joinLines` — the report of a file of lines.
-/

namespace Abacus.Batch

/-- A line that holds an expression: trimmed, it is not empty and does not begin with `#`. All other
lines are skipped, and are counted all the same. -/
def Holds (line : String) : Prop :=
  Text.trim line ≠ "" ∧ (Text.trim line).toList.head? ≠ some '#'

/-- The entry of the line at an index, which is numbered from one. The expression is kept without
the blanks around it, which do not matter to its outcome. -/
def entryOf (strict : Bool) (i : Nat) (line : String) : Entry where
  line := .int (i + 1 : Nat)
  expression := .str (Text.trim line)
  outcome := Calculator.outcomeOfText strict line

theorem isSkipped_trim_eq_false_iff {line : String} :
    isSkipped (Text.trim line) = false ↔ Holds line := by
  simp [isSkipped, Holds]

theorem not_holds_empty : ¬ Holds "" := fun h => h.1 rfl

/-- What is found in a text: the trimmed lines that hold an expression, each with the number of its
line. -/
theorem mem_expressionsOfText_iff {text : String} {item : Nat × String} :
    item ∈ expressionsOfText text ↔
      ∃ i, Holds ((Text.lines text).getD i "") ∧
        item = (i + 1, Text.trim ((Text.lines text).getD i "")) := by
  simp only [expressionsOfText, List.mem_filter, List.mem_map, Prod.exists,
    List.mk_mem_zipIdx_iff_le_and_getElem?_sub, Bool.not_eq_true']
  constructor
  · rintro ⟨⟨line, number, ⟨counted, found⟩, rfl⟩, kept⟩
    have here : (Text.lines text).getD (number - 1) "" = line := by
      rw [List.getD_eq_getElem?_getD, found, Option.getD_some]
    refine ⟨number - 1, ?_, ?_⟩
    · rw [here]
      exact isSkipped_trim_eq_false_iff.1 kept
    · rw [here, Nat.sub_add_cancel counted]
  · rintro ⟨i, holds, rfl⟩
    cases found : (Text.lines text)[i]? with
    | none =>
        rw [List.getD_eq_getElem?_getD, found, Option.getD_none] at holds
        exact absurd holds not_holds_empty
    | some line =>
        have here : (Text.lines text).getD i "" = line := by
          rw [List.getD_eq_getElem?_getD, found, Option.getD_some]
        rw [here] at holds ⊢
        exact ⟨⟨line, i + 1, ⟨Nat.le_add_left 1 i, found⟩, rfl⟩,
          isSkipped_trim_eq_false_iff.2 holds⟩

/-- Line numbers increase. So no line has two entries, and entries stand in the order of their
lines. -/
theorem pairwise_expressionsOfText (text : String) :
    (expressionsOfText text).Pairwise fun a b => a.1 < b.1 := by
  have numbers : (((Text.lines text).zipIdx 1).map Prod.snd).Pairwise (· < ·) := by
    rw [List.zipIdx_map_snd]
    exact List.pairwise_lt_range'
  rw [List.pairwise_map] at numbers
  rw [expressionsOfText]
  refine List.Pairwise.filter _ ?_
  rw [List.pairwise_map]
  exact numbers

/-- The entry of a line does not depend on the blanks at its ends. -/
theorem evaluate_trim (strict : Bool) (i : Nat) (line : String) :
    Entry.evaluate strict (i + 1 : Nat) (Text.trim line) = entryOf strict i line := by
  have same : Calculator.outcomeOfText strict (Text.trim line) =
      Calculator.outcomeOfText strict line := by
    rw [Calculator.outcomeOfText_eq, Calculator.outcomeOfText_eq, Token.scan_trim]
  rw [Entry.evaluate, entryOf, same]

/-! ### Reports of files -/

variable {ws : Workspace} {path : Path}

/-- The file at the path holds bytes that are no text. This is a matter of the bytes alone; whether
their lines are expressions is never asked. -/
def NotText (ws : Workspace) (path : Path) : Prop :=
  ∃ content fault, ws.read path = .ok content ∧ Utf8.decode content = .error fault

/-- The report of the text of a file. It depends on the text through its expressions only, on the
path for its name, and on the time for nothing but itself. -/
def reportOf (strict : Bool) (path : Path) (timestamp text : String) : Report where
  source := .str path.text
  timestamp := .str timestamp
  entries := (expressionsOfText text).map fun item => Entry.evaluate strict item.1 item.2

theorem run_eq_ok_iff {strict : Bool} {timestamp : String} {report : Report} :
    run ws strict path timestamp = .ok report ↔
      ∃ content text, ws.read path = .ok content ∧ Utf8.decode content = .ok text ∧
        report = reportOf strict path timestamp text := by
  unfold run expressions
  cases ws.read path with
  | error error => simp [Except.map]
  | ok content =>
      cases decoded : Utf8.decode content with
      | error fault => simp [decoded, Except.map]
      | ok text => simp [decoded, Except.map, reportOf, Report.empty, eq_comm]

/-- **There is no report of what is no file or holds no text.** No line of a text prevents one,
since a line that fails has an entry. -/
theorem exists_run_eq_error_iff {strict : Bool} {timestamp : String} :
    (∃ error, run ws strict path timestamp = .error error) ↔
      ws.isFile path = false ∨ NotText ws path := by
  rw [← Workspace.exists_read_eq_error_iff]
  unfold run expressions NotText
  cases ws.read path with
  | error error => simp [Except.map]
  | ok content =>
      cases decoded : Utf8.decode content with
      | error fault => simp [decoded, Except.map]
      | ok text => simp [decoded, Except.map]

/-- The only line of a text is its only expression, if it holds one. -/
theorem expressionsOfText_of_holds {text : String} (plain : Text.IsLine text)
    (holds : Holds text) : expressionsOfText text = [(1, Text.trim text)] := by
  have nonempty : text ≠ "" := by
    rintro rfl
    exact not_holds_empty holds
  rw [expressionsOfText, Text.lines_of_isLine plain nonempty]
  simp [isSkipped_trim_eq_false_iff.2 holds]

/-- **The report of a file of one line** has the entry of the line. -/
theorem exists_run_of_holds {text : String} (plain : Text.IsLine text) (holds : Holds text)
    (content : ws.read path = .ok (Utf8.encode text)) (strict : Bool) (timestamp : String) :
    ∃ report, run ws strict path timestamp = .ok report ∧
      report.entries = [entryOf strict 0 text] := by
  refine ⟨_, run_eq_ok_iff.2 ⟨_, text, content, Utf8.decode_encode text, rfl⟩, ?_⟩
  rw [reportOf, expressionsOfText_of_holds plain holds, List.map_singleton]
  exact congrArg (fun entry => [entry]) (evaluate_trim strict 0 text)

/-- **The report of a file of lines.** Lines without boundaries are written with one terminator
between them, and one at the end or not. Each line that holds an expression has its entry, under the
number of the line, and no other entries are made; their numbers increase, so no line is reported
twice or in another's place. No entry is an empty expression. -/
theorem run_joinLines (terminator : Text.Terminator) (closed : Bool) {ls : List String}
    (plain : ∀ line ∈ ls, Text.IsLine line)
    (content : ws.read path = .ok (Utf8.encode (Text.joinLines terminator closed ls)))
    (strict : Bool) (timestamp : String) :
    ∃ report, run ws strict path timestamp = .ok report ∧
      (∀ entry, entry ∈ report.entries ↔
        ∃ i line, ls[i]? = some line ∧ Holds line ∧ entry = entryOf strict i line) ∧
      (report.entries.Pairwise fun a b =>
        ∃ m n : Int, a.line = .int m ∧ b.line = .int n ∧ m < n) ∧
      ∀ entry ∈ report.entries, entry.outcome ≠ .failure "Empty expression" := by
  set text := Text.joinLines terminator closed ls
  have members : ∀ entry, entry ∈ (reportOf strict path timestamp text).entries ↔
      ∃ i line, ls[i]? = some line ∧ Holds line ∧ entry = entryOf strict i line := by
    intro entry
    simp only [reportOf, List.mem_map, mem_expressionsOfText_iff,
      Text.getD_lines_joinLines terminator closed plain, text]
    constructor
    · rintro ⟨_, ⟨i, holds, rfl⟩, rfl⟩
      cases there : ls[i]? with
      | none =>
          rw [List.getD_eq_getElem?_getD, there, Option.getD_none] at holds
          exact absurd holds not_holds_empty
      | some line =>
          rw [List.getD_eq_getElem?_getD, there, Option.getD_some] at holds ⊢
          exact ⟨i, line, there, holds, evaluate_trim strict i line⟩
    · rintro ⟨i, line, there, holds, rfl⟩
      have here : ls.getD i "" = line := by
        rw [List.getD_eq_getElem?_getD, there, Option.getD_some]
      exact ⟨_, ⟨i, here.symm ▸ holds, rfl⟩, here.symm ▸ evaluate_trim strict i line⟩
  refine ⟨_, run_eq_ok_iff.2 ⟨_, text, content, Utf8.decode_encode text, rfl⟩, members, ?_, ?_⟩
  · rw [reportOf, List.pairwise_map]
    refine (pairwise_expressionsOfText text).imp fun {a b} less => ?_
    exact ⟨a.1, b.1, rfl, rfl, Int.ofNat_lt.2 less⟩
  · intro entry member
    obtain ⟨i, line, -, holds, rfl⟩ := (members entry).1 member
    rw [entryOf, ne_eq, Calculator.outcomeOfText_eq_emptyExpression_iff]
    exact holds.1

/-- Of four lines the first and the last hold an expression, and keep their numbers. -/
theorem run_skips_blank_and_comment :
    ∃ report, run ⟨[(["sums"], .file (Utf8.encode "1+2\r\n\r\n # one\r\n 3 "))]⟩ true
        (Path.ofText "sums") "now" = .ok report ∧
      entryOf true 0 "1+2" ∈ report.entries ∧ entryOf true 3 " 3 " ∈ report.entries ∧
      ∀ entry ∈ report.entries, entry.line ≠ .int 3 := by
  have plain : ∀ line ∈ ["1+2", "", " # one", " 3 "], Text.IsLine line := by
    simp only [List.mem_cons, List.not_mem_nil, or_false, Text.IsLine]
    rintro line (rfl | rfl | rfl | rfl) <;> simp [Text.isBoundary]
  have content : Workspace.read
      ⟨[(["sums"], .file (Utf8.encode "1+2\r\n\r\n # one\r\n 3 "))]⟩ (Path.ofText "sums") =
        .ok (Utf8.encode (Text.joinLines .returnNewline false ["1+2", "", " # one", " 3 "])) := by
    rfl
  obtain ⟨report, found, members, -, -⟩ :=
    run_joinLines .returnNewline false plain content true "now"
  refine ⟨report, found, (members _).2 ⟨0, "1+2", rfl, ?_, rfl⟩,
    (members _).2 ⟨3, " 3 ", rfl, ?_, rfl⟩, fun entry member => ?_⟩
  · exact isSkipped_trim_eq_false_iff.1 (by decide)
  · exact isSkipped_trim_eq_false_iff.1 (by decide)
  · obtain ⟨i, line, there, holds, rfl⟩ := (members entry).1 member
    rintro third
    have number : i = 2 := by
      have := Json.int.inj third
      omega
    obtain rfl : " # one" = line := by simpa [number] using there
    exact absurd (isSkipped_trim_eq_false_iff.2 holds) (by decide)

end Abacus.Batch
