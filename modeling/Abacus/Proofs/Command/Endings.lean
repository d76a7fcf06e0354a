import Abacus.Proofs.Command.Batch

/-!
# How runs end

A run ends with zero, one or two, and tells of what failed, unless it is aborted. There are two
reasons for that: a number is to be shown with more digits than a text has, or the file for the
report cannot be written. Nothing else aborts a run, whatever the environment, the workspace and the
invocation say.

## Main definitions

* `Command.Invocation.Refused`, `Invocation.Fails`, `Invocation.Obstructed` — the ways in which an
  invocation does not succeed.
* `Command.Ending.Complains` — a run that does nothing but say what is wrong.
* `Command.Invocation.Tells` — a run that tells what failed.

## Main statements

* `Command.eval_concludes`, `Command.tokens_concludes`, `Command.batch_concludes` — runs of the
  three commands with given settings.
* `Command.run_ends` — runs of any invocation.
-/

namespace Abacus.Command

open Display Display.Markup

/-! ### Invocations -/

namespace Invocation

/-- The settings of an invocation: its options over the settings that were found. Each of the two
options counts on its own. -/
def settings (invocation : Invocation) (found : Settings) : Settings :=
  found.override invocation.overrides.1 invocation.overrides.2

/-- The settings, or the file of a batch or its bytes, cannot be used. Then the run says so and does
nothing else. -/
def Refused (environment : List (String × String)) (ws : Workspace) : Invocation → Prop
  | batch file .. => Unusable environment ws (Path.ofText file)
  | _ => ∃ error, Settings.ofEnvironment environment = .error error

/-- An expression, or a line of a batch, has no value, or a text has no tokens. The run gets to its
end all the same; only its exit code tells. -/
def Fails (settings : Settings) (ws : Workspace) (timestamp : String) : Invocation → Prop
  | eval expression .. => ∃ message, Calculator.outcomeOfText settings.strict expression =
      .failure message
  | tokens expression _ => ∃ fault, Token.scan settings.strict expression = .error fault
  | batch file .. => ∃ report,
      Batch.run ws settings.strict (Path.ofText file) timestamp = .ok report ∧ report.failed ≠ 0

/-- A number is to be shown that has no text of so many digits, or a report is to be written where
no file can be put. -/
def Obstructed (settings : Settings) (ws : Workspace) (timestamp : String) : Invocation → Prop
  | eval expression .. =>
      ¬ Render.Showable settings.digits (Calculator.outcomeOfText settings.strict expression)
  | tokens .. => False
  | batch file json .. => ∃ report,
      Batch.run ws settings.strict (Path.ofText file) timestamp = .ok report ∧
      ((∃ entry ∈ report.entries, ¬ Render.Showable settings.digits entry.outcome) ∨
        ∃ target ∈ json, ¬ ws.Writable (Path.ofText target))

end Invocation

/-! ### Endings -/

variable {environment : List (String × String)} {ws : Workspace} {settings : Settings}
  {timestamp : String}

/-- The run does nothing but say what is wrong: nothing is printed but a message, and nothing
changes. -/
structure Ending.Complains (ending : Ending) (ws : Workspace) (exitCode : Nat) : Prop where
  exitCode : ending.exitCode = exitCode
  output : ending.output = ""
  errors : ending.errors ≠ ""
  workspace : ending.workspace = ws
  abort : ending.abort = none

section Runs

variable [TagReading]

/-- The run tells of what failed: an expression by a message, and the lines of a batch in its
report. -/
def Invocation.Tells (ending : Ending) (settings : Settings) (ws : Workspace)
    (timestamp : String) : Invocation → Prop
  | batch file .. => ∃ report,
      Batch.run ws settings.strict (Path.ofText file) timestamp = .ok report ∧
      Render.report console settings.digits report = .ok ending.output
  | _ => ending.Complains ws 1

/-- A run with settings, on a file that has a report if it is a batch. It is aborted if it is
obstructed, and otherwise says by the exit code whether something failed. -/
structure Ending.Concludes (ending : Ending) (settings : Settings) (ws : Workspace)
    (timestamp : String) (invocation : Invocation) : Prop where
  aborted : invocation.Obstructed settings ws timestamp → ending.abort ≠ none
  failed : ¬ invocation.Obstructed settings ws timestamp →
    invocation.Fails settings ws timestamp →
      ending.abort = none ∧ ending.exitCode = 1 ∧ invocation.Tells ending settings ws timestamp
  succeeded : ¬ invocation.Obstructed settings ws timestamp →
    ¬ invocation.Fails settings ws timestamp → ending.abort = none ∧ ending.exitCode = 0

/-- A message that can be printed is not empty. -/
theorem complains_message {markup : List Char}
    (h : ∃ errors, Render.print console markup = .ok errors) (exitCode : Nat) :
    (Ending.message ws exitCode (Render.print console markup)).Complains ws exitCode := by
  obtain ⟨errors, printed⟩ := h
  rw [printed]
  exact ⟨rfl, rfl, Render.print_ne_empty printed, rfl, rfl⟩

theorem complains_titled {title text : String} (plain : IsPlain title.toList)
    (h : Inert text.toList) (exitCode : Nat) :
    (Ending.message ws exitCode (titled title text)).Complains ws exitCode :=
  complains_message (exists_titled plain h) exitCode

/-! ### Runs with settings -/

/-- A text without a value fails with a message. -/
theorem eval_of_failure {text message : String}
    (h : Calculator.outcomeOfText settings.strict text = .failure message) :
    (eval ws settings text).Complains ws 1 := by
  have showable : Render.Showable none (.failure message) := trivial
  rw [eval, h]
  exact complains_message (Render.exists_outcome_iff.2 showable) 1

/-- A value that can be shown is printed, and nothing else is. -/
theorem eval_of_value {text : String} {x : Binary64}
    (h : Calculator.outcomeOfText settings.strict text = .value x)
    (showable : Render.Showable settings.digits (.value x)) :
    ∃ output, eval ws settings text = ⟨0, output, "", ws, none⟩ := by
  obtain ⟨output, shown⟩ := Render.exists_outcome_iff.2 showable
  refine ⟨output, ?_⟩
  rw [eval, h]
  exact congrArg (Ending.result ws 0) shown

/-- An outcome that cannot be shown aborts the run. -/
theorem eval_of_not_showable {text : String} {outcome : Outcome}
    (h : Calculator.outcomeOfText settings.strict text = outcome)
    (hidden : ¬ Render.Showable settings.digits outcome) :
    ∃ error, eval ws settings text = ⟨1, "", "", ws, some (.render error)⟩ := by
  cases outcome with
  | failure message => exact absurd trivial hidden
  | value x =>
      rw [eval, h]
      cases shown : Render.outcome console settings.digits (.value x) with
      | ok output => exact absurd (Render.exists_outcome_iff.1 ⟨output, shown⟩) hidden
      | error error => exact ⟨error, congrArg (Ending.result ws 0) shown⟩

/-- Runs that evaluate an expression. They are obstructed if the value cannot be shown in so many
digits. -/
theorem eval_concludes (expression : String) (strict : Option Bool) (digits : Option Int) :
    (eval ws settings expression).Concludes settings ws timestamp
      (.eval expression strict digits) := by
  have obstructed : Invocation.Obstructed settings ws timestamp (.eval expression strict digits) ↔
      ¬ Render.Showable settings.digits (Calculator.outcomeOfText settings.strict expression) :=
    Iff.rfl
  cases outcome : Calculator.outcomeOfText settings.strict expression with
  | failure message =>
      have free : Render.Showable settings.digits (.failure message) := trivial
      have failing : (eval ws settings expression).Complains ws 1 := eval_of_failure outcome
      rw [outcome] at obstructed
      exact ⟨fun hidden => absurd free (obstructed.1 hidden),
        fun _ _ => ⟨failing.abort, failing.exitCode, failing⟩,
        fun _ successful => absurd ⟨message, outcome⟩ successful⟩
  | value x =>
      have valued : ¬ Invocation.Fails settings ws timestamp (.eval expression strict digits) := by
        rintro ⟨message, failed⟩
        cases outcome.symm.trans failed
      rw [outcome] at obstructed
      by_cases showable : Render.Showable settings.digits (.value x)
      · obtain ⟨output, ending⟩ : ∃ output, eval ws settings expression =
            ⟨0, output, "", ws, none⟩ := eval_of_value outcome showable
        rw [ending]
        exact ⟨fun hidden => absurd showable (obstructed.1 hidden),
          fun _ failing => absurd failing valued, fun _ _ => ⟨rfl, rfl⟩⟩
      · obtain ⟨error, ending⟩ : ∃ error, eval ws settings expression =
            ⟨1, "", "", ws, some (.render error)⟩ := eval_of_not_showable outcome showable
        rw [ending]
        exact ⟨fun _ => Option.some_ne_none _, fun free => absurd (obstructed.2 showable) free,
          fun free => absurd (obstructed.2 showable) free⟩

/-- Runs that show tokens. Nothing obstructs them, as no number is shown. -/
theorem tokens_concludes (expression : String) (strict : Option Bool) :
    (tokens ws settings expression).Concludes settings ws timestamp
      (.tokens expression strict) := by
  unfold tokens
  cases scanned : Token.scan settings.strict expression with
  | error fault =>
      have failing : (Ending.message ws 1
          (titled "Error:" (escaped fault.message))).Complains ws 1 :=
        complains_titled (by decide) (inert_escaped fault.message) 1
      exact ⟨False.elim, fun _ _ => ⟨failing.abort, failing.exitCode, failing⟩,
        fun _ successful => absurd ⟨fault, scanned⟩ successful⟩
  | ok ts =>
      have found : ¬ Invocation.Fails settings ws timestamp (.tokens expression strict) := by
        rintro ⟨fault, failed⟩
        cases scanned.symm.trans failed
      obtain ⟨output, shown⟩ := Render.exists_tokens console ts
      dsimp only
      rw [shown]
      exact ⟨False.elim, fun _ failing => absurd failing found, fun _ _ => ⟨rfl, rfl⟩⟩

/-- A batch without a report says so. -/
theorem batch_complains {path : Path} {error : Batch.FileError} (json : Option Path)
    (ran : Batch.run ws settings.strict path timestamp = .error error) :
    (batch ws settings timestamp path json).Complains ws 2 := by
  obtain ⟨exitCode, output, workspace, abort⟩ := batch_refuses json ran
  refine ⟨exitCode, output, ?_, workspace, abort⟩
  obtain ⟨message, ending⟩ : ∃ message, batch ws settings timestamp path json =
      .message ws 2 (titled "Error:" message) := by
    cases error <;> exact ⟨_, by rw [batch, ran]⟩
  rw [ending] at abort ⊢
  cases said : titled "Error:" message with
  | ok errors => exact Render.print_ne_empty said
  | error error =>
      rw [said] at abort
      cases abort

/-- What follows after a report was shown. -/
theorem finish_cases {report : Report} (finite : report.IsFinite) (json : Option Path)
    (output : String) :
    ((finish ws report json output).abort ≠ none ↔ ∃ target ∈ json, ¬ ws.Writable target) ∧
    ((finish ws report json output).abort = none →
      (finish ws report json output).exitCode = (if report.failed = 0 then 0 else 1) ∧
      (finish ws report json output).output = output) := by
  cases json with
  | none => simp [finish]
  | some target =>
      have saving : (∃ left, report.save ws target = (left, none)) ↔ ws.Writable target :=
        Report.exists_save_iff.trans (and_iff_right finite)
      obtain ⟨errors, told⟩ := exists_written target
      simp only [Option.mem_some_iff, exists_eq_left', ← saving]
      rcases saved : report.save ws target with ⟨left, _ | error⟩
      · have ending : finish ws report (some target) output =
            ⟨if report.failed = 0 then 0 else 1, output, errors, left, none⟩ := by
          simp only [finish, saved, told]
        simp [ending]
      · simp [finish, saved]

/-- Runs on a file that has a report. They are obstructed if a value cannot be shown or the report
cannot be saved. -/
theorem batch_concludes {file : String} {report : Report} (json : Option String)
    (strict : Option Bool) (digits : Option Int)
    (ran : Batch.run ws settings.strict (Path.ofText file) timestamp = .ok report) :
    (batch ws settings timestamp (Path.ofText file) (json.map Path.ofText)).Concludes settings ws
      timestamp (.batch file json strict digits) := by
  have obstructed : Invocation.Obstructed settings ws timestamp
      (.batch file json strict digits) ↔
        (¬ ∃ output, Render.report console settings.digits report = .ok output) ∨
          ∃ target ∈ json.map Path.ofText, ¬ ws.Writable target := by
    rw [Render.exists_report_iff_of_isTextual (Batch.isTextual_of_run ran)]
    simp [Invocation.Obstructed, ran]
  have failing : Invocation.Fails settings ws timestamp (.batch file json strict digits) ↔
      report.failed ≠ 0 := by
    simp [Invocation.Fails, ran]
  cases shown : Render.report console settings.digits report with
  | error error =>
      have obstruction := obstructed.2 (.inl (by simp [shown]))
      rw [batch_of_error (json.map Path.ofText) ran shown]
      exact ⟨fun _ => Option.some_ne_none _, fun free => absurd obstruction free,
        fun free => absurd obstruction free⟩
  | ok output =>
      obtain ⟨aborted, finished⟩ := finish_cases (Batch.isFinite_of_run ran)
        (json.map Path.ofText) output
      rw [← batch_of_shown (json.map Path.ofText) ran shown] at aborted finished
      replace aborted := aborted.trans
        (obstructed.trans (or_iff_right (not_not.2 ⟨output, shown⟩))).symm
      refine ⟨aborted.2, fun free failed => ?_, fun free successful => ?_⟩
      · have done := not_not.1 (aborted.not.2 free)
        obtain ⟨exitCode, same⟩ := finished done
        rw [if_neg (failing.1 failed)] at exitCode
        exact ⟨done, exitCode, report, ran, by rw [shown, same]⟩
      · have done := not_not.1 (aborted.not.2 free)
        obtain ⟨exitCode, -⟩ := finished done
        rw [if_pos (not_not.1 (failing.not.1 successful))] at exitCode
        exact ⟨done, exitCode⟩

/-! ### Runs of any invocation -/

/-- A conclusion is an abortion, a failure that is told, or a success. -/
theorem Ending.Concludes.cases {ending : Ending} {invocation : Invocation}
    (h : ending.Concludes settings ws timestamp invocation) :
    (ending.abort ≠ none ↔ invocation.Obstructed settings ws timestamp) ∧
    (ending.abort = none →
      ending.exitCode = 1 ∧ invocation.Fails settings ws timestamp ∧
        invocation.Tells ending settings ws timestamp ∨
      ending.exitCode = 0 ∧ ¬ invocation.Fails settings ws timestamp) := by
  by_cases obstructed : invocation.Obstructed settings ws timestamp
  · have aborted := h.aborted obstructed
    exact ⟨iff_of_true aborted obstructed, fun done => absurd done aborted⟩
  · by_cases fails : invocation.Fails settings ws timestamp
    · obtain ⟨done, exitCode, tells⟩ := h.failed obstructed fails
      exact ⟨iff_of_false (not_not.2 done) obstructed, fun _ => .inl ⟨exitCode, fails, tells⟩⟩
    · obtain ⟨done, exitCode⟩ := h.succeeded obstructed fails
      exact ⟨iff_of_false (not_not.2 done) obstructed, fun _ => .inr ⟨exitCode, fails⟩⟩

/-- With settings, the run of an evaluation is that of its expression. -/
theorem run_eval {found : Settings} (known : Settings.ofEnvironment environment = .ok found)
    (expression : String) (strict : Option Bool) (digits : Option Int) :
    run environment ws timestamp (.eval expression strict digits) =
      eval ws ((Invocation.eval expression strict digits).settings found) expression := by
  unfold run
  rw [known]
  rfl

/-- With settings, the run that shows tokens is that of its expression. -/
theorem run_tokens {found : Settings} (known : Settings.ofEnvironment environment = .ok found)
    (expression : String) (strict : Option Bool) :
    run environment ws timestamp (.tokens expression strict) =
      tokens ws ((Invocation.tokens expression strict).settings found) expression := by
  unfold run
  rw [known]
  rfl

/-- A run with settings is refused, or concludes. -/
theorem run_complains_or_concludes {found : Settings}
    (known : Settings.ofEnvironment environment = .ok found) (ws : Workspace) (timestamp : String)
    (invocation : Invocation) :
    (invocation.Refused environment ws ∧
        ¬ invocation.Obstructed (invocation.settings found) ws timestamp ∧
        ¬ invocation.Fails (invocation.settings found) ws timestamp ∧
        (run environment ws timestamp invocation).Complains ws 2) ∨
      ¬ invocation.Refused environment ws ∧
        (run environment ws timestamp invocation).Concludes (invocation.settings found) ws timestamp
          invocation := by
  have noError : ¬ ∃ error, Settings.ofEnvironment environment = .error error := by simp [known]
  cases invocation with
  | eval expression strict digits =>
      refine .inr ⟨noError, ?_⟩
      rw [run_eval known]
      exact eval_concludes expression strict digits
  | tokens expression strict =>
      refine .inr ⟨noError, ?_⟩
      rw [run_tokens known]
      exact tokens_concludes expression strict
  | batch file json strict digits =>
      rw [run_batch known, Invocation.Refused,
        unusable_iff known (found.override strict digits).strict _ timestamp]
      cases ran : Batch.run ws (found.override strict digits).strict (Path.ofText file)
          timestamp with
      | error error =>
          refine .inl ⟨⟨error, rfl⟩, ?_, ?_, batch_complains _ ran⟩ <;> rintro ⟨report, made, -⟩
          · cases ran.symm.trans made
          · cases ran.symm.trans made
      | ok report => exact .inr ⟨by simp, batch_concludes json strict digits ran⟩

/-- **How runs end.** A run is aborted if and only if there are settings, and a number is to be
shown with more digits than its text can have, or the file for the report cannot be written. Every
other run ends with zero, one or two: with two if and only if the settings, the file of a batch or
its bytes cannot be used, and with one if and only if an expression or a line has failed. What is
wrong is said by a message, where nothing else is printed and nothing changes, or in the report of a
batch. -/
theorem run_ends (environment : List (String × String)) (ws : Workspace) (timestamp : String)
    (invocation : Invocation) :
    let ending := run environment ws timestamp invocation
    (ending.abort ≠ none ↔ ∃ found, Settings.ofEnvironment environment = .ok found ∧
      invocation.Obstructed (invocation.settings found) ws timestamp) ∧
    (ending.abort = none →
      (ending.exitCode = 0 ∨ ending.exitCode = 1 ∨ ending.exitCode = 2) ∧
      (ending.exitCode = 2 ↔ invocation.Refused environment ws) ∧
      (ending.exitCode = 2 → ending.Complains ws 2) ∧
      (ending.exitCode = 1 ↔ ∃ found, Settings.ofEnvironment environment = .ok found ∧
        invocation.Fails (invocation.settings found) ws timestamp) ∧
      (ending.exitCode = 1 → ∃ found, Settings.ofEnvironment environment = .ok found ∧
        invocation.Tells ending (invocation.settings found) ws timestamp)) := by
  intro ending
  cases known : Settings.ofEnvironment environment with
  | error error =>
      have complains : ending.Complains ws 2 := by
        simp only [ending, run, known]
        exact complains_titled (by decide) (inert_escaped error.message) 2
      have refused : invocation.Refused environment ws := by
        cases invocation with
        | batch => exact .inl ⟨error, known⟩
        | eval | tokens => exact ⟨error, known⟩
      simp [complains.abort, complains.exitCode, refused, complains]
  | ok found =>
      simp only [Except.ok.injEq, exists_eq_left']
      rcases run_complains_or_concludes known ws timestamp invocation with
        ⟨refused, free, fine, complains⟩ | ⟨accepted, concludes⟩
      · simp [ending, complains.abort, complains.exitCode, refused, free, fine, complains]
      · obtain ⟨aborted, done⟩ := concludes.cases
        refine ⟨aborted, fun ended => ?_⟩
        rcases done ended with ⟨exitCode, fails, tells⟩ | ⟨exitCode, successful⟩
        · simp [ending, exitCode, accepted, fails, tells]
        · simp [ending, exitCode, accepted, successful]

end Runs

/-- A half with one digit more than texts have, and a report in the place of a directory. -/
theorem abort_digits_and_directory :
    (Arguments.parse ["eval", "0.5", "--digits", "2147483648"] =
        .run (.eval "0.5" none (some 2147483648)) ∧
      (run [] .empty "now" (.eval "0.5" none (some 2147483648))).abort =
        some (.render .digitsOutOfRange)) ∧
    (Arguments.parse ["batch", "sums", "--json", "out"] =
        .run (.batch "sums" (some "out") none none) ∧
      (run [] ⟨[(["sums"], .file (Utf8.encode "1\n")), (["out"], .directory)]⟩ "now"
        (.batch "sums" (some "out") none none)).abort = some (.save (.path .isDirectory))) := by
  refine ⟨⟨?_, ?_⟩, ?_, ?_⟩ <;> decide +kernel

end Abacus.Command
