import Abacus.Proofs.Command.Endings

/-!
# The commands agree

A text comes to the calculator on three ways: as it is, when its tokens are shown; trimmed, when it
is evaluated; and as the line of a file, in a batch. On the same settings it makes no difference. A
text without tokens has no value either, and both runs end the same; and a file that holds just the
text ends as its evaluation does, with the outcome of that in its report.

## Main statements

* `Command.eval_of_scan_eq_error` — what cannot be cut into tokens ends the same in two commands.
* `Command.batch_agrees_with_eval` — a file with one expression ends as the evaluation of that.
* `Command.run_agrees` — runs of the three commands on one text.
-/

namespace Abacus

/-! ### Reports with one entry -/

/-- Nothing failed in a report with one entry if and only if that has a value. -/
theorem Report.failed_eq_zero_iff_of_singleton {report : Report} {entry : Entry}
    (h : report.entries = [entry]) : report.failed = 0 ↔ entry.outcome.isValue = true := by
  rw [Report.failed, Report.total, Report.passed, h, List.countP_singleton]
  cases entry.outcome.isValue <;> simp

namespace Command

variable {environment : List (String × String)} {ws : Workspace} {settings found : Settings}
  {timestamp text : String} {outcome : Outcome} {path : Path} {json : Option Path} {report : Report}

/-- A report with one entry, for the first line, is within the limits of a reader. -/
theorem storable_of_singleton (ran : Batch.run ws settings.strict path timestamp = .ok report)
    (single : report.entries = [⟨.int 1, .str text, outcome⟩]) : report.Storable := by
  obtain ⟨content, source, -, -, rfl⟩ := Batch.run_eq_ok_iff.1 ran
  have one : Decimal.digitCount 1 ≤ Numeral.maxIntegerDigits := by
    rw [Decimal.digitCount, Decimal.digits, Nat.toDigits_of_lt_base (by decide)]
    decide
  refine ⟨.str _, .str _, ?_, ?_⟩
  · rw [Report.total, single]
    exact one
  · rw [single, List.forall_mem_singleton]
    exact ⟨.int one, .str _⟩

/-- A command line has a number of digits in range, unless it is too large. -/
theorem inRange_of_parse {args : List String} {invocation : Invocation}
    (known : Settings.ofEnvironment environment = .ok found)
    (parsed : Arguments.parse args = .run invocation)
    (most : ∀ n ∈ (invocation.settings found).digits, n ≤ Binary64.maxDigits) :
    Render.InRange (invocation.settings found).digits :=
  fun n member =>
    ⟨nonneg_of_override known _ (Arguments.nonneg_of_parse parsed) n member, most n member⟩

section Runs

variable [Display.TagReading]

/-! ### Texts and their tokens -/

/-- A text has no tokens if and only if showing them exits with one. -/
theorem exitCode_tokens_iff :
    (tokens ws settings text).exitCode = 1 ↔
      ∃ fault, Token.scan settings.strict text = .error fault := by
  have concludes : (tokens ws settings text).Concludes settings ws "" (.tokens text none) :=
    tokens_concludes text none
  constructor
  · intro exitCode
    by_contra found
    obtain ⟨-, successful⟩ := concludes.succeeded id found
    cases exitCode.symm.trans successful
  · intro fails
    obtain ⟨-, exitCode, -⟩ := concludes.failed id fails
    exact exitCode

/-- **What cannot be cut into tokens** ends the same when it is evaluated: trimming, which only the
evaluation does, does not change what a scan meets first. -/
theorem eval_of_scan_eq_error {shown : Settings} {fault : Fault}
    (strict : shown.strict = settings.strict)
    (h : Token.scan settings.strict text = .error fault) :
    eval ws settings text = tokens ws shown text := by
  have failed : Calculator.outcomeOfText settings.strict text = .failure fault.message := by
    rw [Calculator.outcomeOfText_eq, h]
  have message : Render.outcome console none (.failure fault.message) =
      titled "Error:" (escaped fault.message) := by
    simp only [Render.outcome, titled, escaped, String.toList_ofList]
  rw [eval, failed, tokens, strict, h]
  exact congrArg (Ending.message ws 1) message

/-- The evaluation of a text exits as the outcome of the text has it, if that can be shown. -/
theorem exitCode_eval (h : Calculator.outcomeOfText settings.strict text = outcome)
    (showable : Render.Showable settings.digits outcome) :
    (eval ws settings text).exitCode = (if outcome.isValue then 0 else 1) ∧
      (eval ws settings text).abort = none := by
  cases outcome with
  | value x =>
      obtain ⟨output, ending⟩ : ∃ output, eval ws settings text = ⟨0, output, "", ws, none⟩ :=
        eval_of_value h showable
      rw [ending]
      exact ⟨rfl, rfl⟩
  | failure message =>
      have complains : (eval ws settings text).Complains ws 1 := eval_of_failure h
      exact ⟨complains.exitCode, complains.abort⟩

/-! ### Files with one expression -/

/-- A report with the entry of a text can be shown if the outcome of the text can. -/
theorem exists_report_of_singleton
    (ran : Batch.run ws settings.strict path timestamp = .ok report)
    (single : report.entries = [⟨.int 1, .str text, outcome⟩]) :
    (∃ output, Render.report console settings.digits report = .ok output) ↔
      Render.Showable settings.digits outcome := by
  rw [Render.exists_report_iff_of_isTextual (Batch.isTextual_of_run ran), single,
    List.forall_mem_singleton]

/-- A file with one expression exits as the outcome of that has it, if it can be shown, and leaves
the report where it was asked for. -/
theorem batch_of_showable (ran : Batch.run ws settings.strict path timestamp = .ok report)
    (single : report.entries = [⟨.int 1, .str text, outcome⟩])
    (showable : Render.Showable settings.digits outcome)
    (writable : ∀ target ∈ json, ws.Writable target) :
    ∃ output errors left, batch ws settings timestamp path json =
        ⟨if outcome.isValue then 0 else 1, output, errors, left, none⟩ ∧
      Render.report console settings.digits report = .ok output ∧
      ∀ target ∈ json, Report.load left target = .ok (some report) := by
  have finite := Batch.isFinite_of_run ran
  obtain ⟨output, shown⟩ := (exists_report_of_singleton ran single).2 showable
  obtain ⟨errors, left, finished, content⟩ := finish_of_writable finite writable output
  refine ⟨output, errors, left, ?_, shown, fun target member => ?_⟩
  · rw [batch_of_shown json ran shown, finished]
    simp only [Report.failed_eq_zero_iff_of_singleton single]
  · exact Report.load_of_read finite (storable_of_singleton ran single) (content target member)

/-- A file with one expression is not shown if the outcome of that cannot be. -/
theorem batch_of_not_showable (json : Option Path)
    (ran : Batch.run ws settings.strict path timestamp = .ok report)
    (single : report.entries = [⟨.int 1, .str text, outcome⟩])
    (hidden : ¬ Render.Showable settings.digits outcome) :
    ∃ error, batch ws settings timestamp path json = ⟨1, "", "", ws, some (.render error)⟩ := by
  cases shown : Render.report console settings.digits report with
  | ok output => exact absurd ((exists_report_of_singleton ran single).1 ⟨output, shown⟩) hidden
  | error error => exact ⟨error, batch_of_error json ran shown⟩

/-- **A line that holds an expression,** as a file and as a text: both runs exit the same, and if
they are not aborted, the report that is shown and saved has the outcome of the text for its first
line. -/
theorem batch_agrees_with_eval (valued : Calculator.outcomeOfText settings.strict text = outcome)
    (plain : Text.IsLine text) (holds : Batch.Holds text)
    (content : ws.read path = .ok (Utf8.encode text)) (timestamp : String)
    (writable : ∀ target ∈ json, ws.Writable target) :
    (batch ws settings timestamp path json).exitCode = (eval ws settings text).exitCode ∧
      ((batch ws settings timestamp path json).abort = none ↔
        (eval ws settings text).abort = none) ∧
      ∃ report, Batch.run ws settings.strict path timestamp = .ok report ∧
        report.entries = [⟨.int 1, .str (Text.trim text), outcome⟩] ∧
        ((batch ws settings timestamp path json).abort = none →
          Render.report console settings.digits report =
            .ok (batch ws settings timestamp path json).output ∧
          ∀ target ∈ json,
            Report.load (batch ws settings timestamp path json).workspace target =
              .ok (some report)) := by
  obtain ⟨report, ran, single⟩ :=
    Batch.exists_run_of_holds plain holds content settings.strict timestamp
  rw [Batch.entryOf, valued] at single
  by_cases showable : Render.Showable settings.digits outcome
  · obtain ⟨output, errors, left, ended, shown, loaded⟩ :=
      batch_of_showable ran single showable writable
    obtain ⟨exitCode, done⟩ : (eval ws settings text).exitCode =
        (if outcome.isValue then 0 else 1) ∧ (eval ws settings text).abort = none :=
      exitCode_eval valued showable
    rw [ended]
    exact ⟨exitCode.symm, iff_of_true rfl done, report, ran, single, fun _ => ⟨shown, loaded⟩⟩
  · obtain ⟨error, stopped⟩ := batch_of_not_showable json ran single showable
    obtain ⟨error', aborted⟩ : ∃ error, eval ws settings text =
        ⟨1, "", "", ws, some (.render error)⟩ := eval_of_not_showable valued showable
    rw [stopped, aborted]
    exact ⟨rfl, iff_of_false (Option.some_ne_none _) (Option.some_ne_none _), report, ran, single,
      fun done => absurd done (Option.some_ne_none _)⟩

/-! ### Runs on one text -/

/-- **The commands agree.** In one environment, with the same effective settings: if showing the
tokens of a text exits with one, evaluating the text ends the same, with the same message. With no
more digits than can be shown, evaluating the text exits with zero if and only if the text has a
value, and complains of nothing then; otherwise it exits with one and puts nothing out. If the text
is a line that holds an expression, the batch of a file that holds just the text exits as the
evaluation does, and is aborted if that is. The report of the file has one entry, for its first
line, with the outcome of the text, and it is this report that is shown and saved. -/
theorem run_agrees (known : Settings.ofEnvironment environment = .ok found)
    (ws : Workspace) (timestamp text : String) (strict : Option Bool) (digits : Option Int) :
    let evaluation := Invocation.eval text strict digits
    let settings := evaluation.settings found
    let ending := run environment ws timestamp evaluation
    (∀ option, ((Invocation.tokens text option).settings found).strict = settings.strict →
      (run environment ws timestamp (.tokens text option)).exitCode = 1 →
      ending = run environment ws timestamp (.tokens text option)) ∧
    (∀ args, Arguments.parse args = .run evaluation →
      (∀ n ∈ settings.digits, n ≤ Binary64.maxDigits) →
      (ending.exitCode = 0 ↔ ∃ x, Calculator.outcomeOfText settings.strict text = .value x) ∧
      (ending.exitCode = 0 → ending.errors = "") ∧
      (ending.exitCode ≠ 0 → ending.exitCode = 1 ∧ ending.output = "") ∧ ending.abort = none) ∧
    ∀ file json option count, (Invocation.batch file json option count).settings found = settings →
      ws.read (Path.ofText file) = .ok (Utf8.encode text) →
      Batch.Holds text → Text.IsLine text →
      (∀ target ∈ json, ws.Writable (Path.ofText target)) →
      let batched := run environment ws timestamp (.batch file json option count)
      batched.exitCode = ending.exitCode ∧ (batched.abort = none ↔ ending.abort = none) ∧
      ∃ report, Batch.run ws settings.strict (Path.ofText file) timestamp = .ok report ∧
        report.entries =
          [⟨.int 1, .str (Text.trim text), Calculator.outcomeOfText settings.strict text⟩] ∧
        (batched.abort = none → Render.report console settings.digits report = .ok batched.output ∧
          ∀ target ∈ json,
            Report.load batched.workspace (Path.ofText target) = .ok (some report)) := by
  intro evaluation settings ending
  have evaluated : ending = eval ws settings text := run_eval known text strict digits
  -- The three agreements in turn: with the tokens, with the outcome, and with the file.
  refine ⟨fun option same exitCode => ?_, fun args parsed most => ?_, ?_⟩
  · rw [run_tokens known] at exitCode ⊢
    obtain ⟨fault, failed⟩ := exitCode_tokens_iff.1 exitCode
    exact evaluated.trans (eval_of_scan_eq_error same (same ▸ failed))
  · have range := inRange_of_parse known parsed most
    rw [evaluated]
    cases outcome : Calculator.outcomeOfText settings.strict text with
    | value x =>
        obtain ⟨output, printed⟩ : ∃ output, eval ws settings text = ⟨0, output, "", ws, none⟩ :=
          eval_of_value outcome (range.showable _)
        simp [printed]
    | failure message =>
        have complains : (eval ws settings text).Complains ws 1 := eval_of_failure outcome
        simp [complains.exitCode, complains.output, complains.abort]
  · intro file json option count same content holds plain writable batched
    have targets : ∀ target ∈ json.map Path.ofText, ws.Writable target := by
      simpa using writable
    have ofFile : batched = batch ws settings timestamp (Path.ofText file)
        (json.map Path.ofText) := same ▸ run_batch known json
    rw [ofFile, evaluated]
    obtain ⟨exitCode, abort, report, ran, single, done⟩ :=
      batch_agrees_with_eval rfl plain holds content timestamp targets
    refine ⟨exitCode, abort, report, ran, single, fun free => ?_⟩
    obtain ⟨shown, saved⟩ := done free
    exact ⟨shown, fun target member => saved _ (Option.mem_map_of_mem Path.ofText member)⟩

end Runs

/-- A letter among digits fails in all three commands, with three digits and strict scanning. -/
theorem run_agrees_on_letter :
    let environment := [(Settings.strictVariable, "yes"), (Settings.digitsVariable, "3")]
    let ws : Workspace := ⟨[(["sums"], .file (Utf8.encode "1+a"))]⟩
    let ending := run environment ws "now" (.eval "1+a" none none)
    ending = run environment ws "now" (.tokens "1+a" none) ∧ ending.exitCode = 1 ∧
      ending.output = "" ∧
      (run environment ws "now" (.batch "sums" (some "out/report") none none)).exitCode = 1 := by
  intro environment ws ending
  have known : Settings.ofEnvironment environment = .ok ⟨true, some 3⟩ := by decide +kernel
  have parsed : Arguments.parse ["eval", "1+a"] = .run (.eval "1+a" none none) := by
    decide +kernel
  have most : ∀ n ∈ (Settings.override ⟨true, some 3⟩ none none).digits,
      n ≤ Binary64.maxDigits := by
    decide +kernel
  have writable : ∀ target ∈ some "out/report", ws.Writable (Path.ofText target) := by
    rintro target ⟨⟩
    exact ⟨⟨(["out"], .directory) :: ws.nodes⟩, ["out", "report"], rfl, rfl, by decide +kernel⟩
  have plain : Text.IsLine "1+a" := by
    simp [Text.IsLine, Text.isBoundary]
  have failed : ending.exitCode ≠ 0 := by decide +kernel
  obtain ⟨tokens, evaluates, batch⟩ := run_agrees known ws "now" "1+a" none none
  obtain ⟨-, -, fails, -⟩ := evaluates _ parsed most
  obtain ⟨exitCode, output⟩ := fails failed
  obtain ⟨same, -⟩ := batch "sums" (some "out/report") none none rfl rfl
    (Batch.isSkipped_trim_eq_false_iff.1 (by decide +kernel)) plain writable
  exact ⟨tokens none rfl (by decide +kernel), exitCode, output, same.trans exitCode⟩

end Command

end Abacus
