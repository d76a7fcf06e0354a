import Abacus.Proofs.Batch.Reports
import Abacus.Proofs.Command.Digits

/-!
# Runs on a file

A run on a file is refused if the settings, the file or its bytes cannot be used, and then changes
nothing. Otherwise the report is shown and saved, and the exit code tells whether a line failed.

## Main definitions

* `Command.Ending.Refuses` — a run that does nothing but say why.
* `Command.Ending.Saves` — a run that leaves a report in a file.

## Main statements

* `Command.exists_titled` — messages can be shown.
* `Command.batch_refuses`, `Command.batch_saves` — runs on a file with given settings.
* `Command.exitCode_batch` — runs of a command line on a file.
-/

namespace Abacus

open Display Display.Markup

/-! ### Messages -/

theorem isPlain_hexByte (byte : UInt8) : IsPlain (Utf8.hexByte byte).toList := by
  have digits : ∀ n < 16, IsPlain [n.digitChar] := by decide
  have small := byte.toNat_lt
  rw [Utf8.hexByte, String.toList_ofList, ← List.singleton_append, isPlain_append]
  exact ⟨digits _ (by omega), digits _ (by omega)⟩

theorem isPlain_decodeFault (fault : Utf8.DecodeFault) : IsPlain fault.message.toList := by
  have reason : IsPlain fault.reason.message.toList := by
    cases fault.reason <;> decide
  unfold Utf8.DecodeFault.message
  dsimp only
  split <;> simp only [String.toList_append, isPlain_append, and_assoc]
  · exact ⟨by decide, by decide, isPlain_hexByte _, by decide,
      isPlain_toString_nat _, by decide, reason⟩
  · exact ⟨by decide, by decide, isPlain_toString_nat _, by decide,
      isPlain_toString_nat _, by decide, reason⟩

namespace Command

/-! ### Endings -/

/-- The run does nothing but say why: nothing is printed but a message, and nothing changes. -/
structure Ending.Refuses (ending : Ending) (ws : Workspace) : Prop where
  exitCode : ending.exitCode = 2
  output : ending.output = ""
  workspace : ending.workspace = ws
  abort : ending.abort = none

/-- The run leaves the text of a report in a file, and tells whether a line failed. What else it
prints does not matter here. -/
structure Ending.Saves (ending : Ending) (report : Report) (path : Path) : Prop where
  exitCode : ending.exitCode = if report.failed = 0 then 0 else 1
  written : ending.workspace.read path = .ok (Utf8.encode report.toJson.write)
  abort : ending.abort = none

theorem Ending.Saves.exitCode_ne {ending : Ending} {report : Report} {path : Path}
    (h : ending.Saves report path) : ending.exitCode ≠ 2 := by
  rw [h.exitCode]
  split <;> decide

theorem refuses_message {ws : Workspace} {message : Except Render.RenderError String}
    (h : ∃ text, message = .ok text) : (Ending.message ws 2 message).Refuses ws := by
  obtain ⟨text, rfl⟩ := h
  exact ⟨rfl, rfl, rfl, rfl⟩

/-- The settings, the file or its bytes cannot be used. There is no fourth way to be refused:
expressions that fail are part of the report. -/
def Unusable (environment : List (String × String)) (ws : Workspace) (path : Path) : Prop :=
  (∃ error, Settings.ofEnvironment environment = .error error) ∨ ws.isFile path = false ∨
    Batch.NotText ws path

/-- With settings, what is left to refuse a file is that it has no report. -/
theorem unusable_iff {environment : List (String × String)} {ws : Workspace}
    {settings : Settings} (found : Settings.ofEnvironment environment = .ok settings)
    (strict : Bool) (path : Path) (timestamp : String) :
    Unusable environment ws path ↔
      ∃ error, Batch.run ws strict path timestamp = .error error := by
  have known : ¬ ∃ error, Settings.ofEnvironment environment = .error error := by simp [found]
  rw [Unusable, or_iff_right known]
  exact Batch.exists_run_eq_error_iff.symm

/-! ### Runs with settings -/

section Runs

variable [TagReading] {ws : Workspace} {settings : Settings} {timestamp : String} {path out : Path}

theorem inert_escaped (text : String) : Inert (escaped text).toList := by
  rw [escaped, String.toList_ofList]
  exact inert_escape text.toList

/-- **Messages can be shown,** if what they say is inert. So a run that is refused always says
why. -/
theorem exists_titled {title text : String} (plain : IsPlain title.toList)
    (h : Inert text.toList) : ∃ message, titled title text = .ok message :=
  Render.exists_print_iff.2 <| renders_tagged_append isStyle_red (inert_of_isPlain plain)
    (h.plain_append (w := [' ']) (by decide)).renders

/-- A file without a report is refused. The message is escaped where it names the file, so it can
always be shown. -/
theorem batch_refuses {error : Batch.FileError} (json : Option Path)
    (ran : Batch.run ws settings.strict path timestamp = .error error) :
    (batch ws settings timestamp path json).Refuses ws := by
  have plain : IsPlain "Error:".toList := by decide
  cases error with
  | path _ =>
      rw [batch, ran]
      refine refuses_message (exists_titled plain ?_)
      rw [String.toList_append]
      exact (inert_escaped path.text).plain_append (by decide)
  | bytes fault =>
      -- A wording behind an escaped path has to be plain: an inert one could close a tag that the
      -- path begins.
      have said := isPlain_decodeFault fault
      have shown : (escaped fault.message).toList = fault.message.toList := by
        rw [escaped, String.toList_ofList, Render.escaped, escape_of_isPlain said]
      rw [batch, ran]
      refine refuses_message (exists_titled plain ?_)
      simp only [String.toList_append, shown, List.append_assoc]
      refine Inert.plain_append ?_ (by decide)
      have behind : IsPlain ([':', ' '] ++ fault.message.toList) :=
        isPlain_append.2 ⟨by decide, said⟩
      exact (inert_escaped path.text).append_plain behind rfl

/-- It can be told where the report was written. -/
theorem exists_written (out : Path) : ∃ errors,
    Render.print console ("Results written to " ++ escaped out.text).toList = .ok errors := by
  rw [Render.exists_print_iff, String.toList_append]
  exact ((inert_escaped out.text).plain_append (by decide)).renders []

/-- After a report that can be shown, what is left to do follows. -/
theorem batch_of_shown {report : Report} {output : String} (json : Option Path)
    (ran : Batch.run ws settings.strict path timestamp = .ok report)
    (shown : Render.report console settings.digits report = .ok output) :
    batch ws settings timestamp path json = finish ws report json output := by
  simp only [batch, ran, shown]

/-- A report that cannot be shown aborts the run. -/
theorem batch_of_error {report : Report} {error : Render.RenderError} (json : Option Path)
    (ran : Batch.run ws settings.strict path timestamp = .ok report)
    (stopped : Render.report console settings.digits report = .error error) :
    batch ws settings timestamp path json = ⟨1, "", "", ws, some (.render error)⟩ := by
  simp only [batch, ran, stopped]

/-- After a report was shown, it stands in the file that is given, if it can be written. -/
theorem finish_of_writable {report : Report} (finite : report.IsFinite) {json : Option Path}
    (writable : ∀ target ∈ json, ws.Writable target) (output : String) :
    ∃ errors left, finish ws report json output =
        ⟨if report.failed = 0 then 0 else 1, output, errors, left, none⟩ ∧
      ∀ target ∈ json, left.read target = .ok (Utf8.encode report.toJson.write) := by
  cases json with
  | none => exact ⟨"", ws, rfl, by simp⟩
  | some target =>
      obtain ⟨left, saved, content⟩ :=
        (Report.save_of_writable (writable target rfl) report).1 finite
      obtain ⟨errors, told⟩ := exists_written target
      exact ⟨errors, left, by simp only [finish, saved, told], by simpa using content⟩

/-- The report of a file is saved where it can be. It has strings and integers in its fields, so
neither showing nor saving it can fail. -/
theorem batch_saves {report : Report}
    (ran : Batch.run ws settings.strict path timestamp = .ok report)
    (range : Render.InRange settings.digits) (writable : ws.Writable out) :
    (batch ws settings timestamp path (some out)).Saves report out := by
  obtain ⟨output, shown⟩ : ∃ output, Render.report console settings.digits report = .ok output :=
    (Render.exists_report_iff_of_isTextual (Batch.isTextual_of_run ran)).2 fun entry _ =>
      range.showable entry.outcome
  have places : ∀ target ∈ some out, ws.Writable target := by simpa using writable
  obtain ⟨errors, left, finished, content⟩ :=
    finish_of_writable (Batch.isFinite_of_run ran) places output
  rw [batch_of_shown (some out) ran shown, finished]
  exact ⟨rfl, content out rfl, rfl⟩

/-! ### Command lines -/

variable {args : List String} {file target : String} {strict : Option Bool} {digits : Option Int}
  {environment : List (String × String)}

/-- With settings, the run of a batch is that of its file. -/
theorem run_batch (found : Settings.ofEnvironment environment = .ok settings)
    (json : Option String) :
    run environment ws timestamp (.batch file json strict digits) =
      batch ws (settings.override strict digits) timestamp (Path.ofText file)
        (json.map Path.ofText) := by
  unfold run
  rw [found]
  rfl

/-- A run on a file is refused, or saves the report. -/
theorem run_refuses_or_saves (timestamp : String)
    (parsed : Arguments.parse args = .run (.batch file (some target) strict digits))
    (writable : ws.Writable (Path.ofText target))
    (range : ∀ settings, Settings.ofEnvironment environment = .ok settings →
      ∀ n ∈ (settings.override strict digits).digits, n ≤ Binary64.maxDigits) :
    Unusable environment ws (Path.ofText file) ∧
        (run environment ws timestamp (.batch file (some target) strict digits)).Refuses ws ∨
      ¬ Unusable environment ws (Path.ofText file) ∧
        ∃ settings report, Settings.ofEnvironment environment = .ok settings ∧
          Batch.run ws (strict.getD settings.strict) (Path.ofText file) timestamp = .ok report ∧
          (run environment ws timestamp (.batch file (some target) strict digits)).Saves report
            (Path.ofText target) := by
  cases found : Settings.ofEnvironment environment with
  | error error =>
      refine .inl ⟨.inl ⟨error, found⟩, ?_⟩
      unfold run
      rw [found]
      exact refuses_message (exists_titled (by decide) (inert_escaped error.message))
  | ok settings =>
      have nonneg := nonneg_of_override found strict (Arguments.nonneg_of_parse parsed)
      rw [run_batch found, unusable_iff found (strict.getD settings.strict) _ timestamp]
      cases ran : Batch.run ws (strict.getD settings.strict) (Path.ofText file) timestamp with
      | error error => exact .inl ⟨⟨error, rfl⟩, batch_refuses _ ran⟩
      | ok report =>
          have digits : Render.InRange (settings.override strict digits).digits :=
            fun n member => ⟨nonneg n member, range settings found n member⟩
          exact .inr ⟨by simp, settings, report, rfl, ran, batch_saves ran digits writable⟩

/-- **Runs of a command line on a file.** The file to write can be written, and the number of digits
of the run is not too large. Then the exit code is two if and only if the settings, the file or its
bytes cannot be used; nothing is printed but a message then, and nothing changes. Otherwise the
report of the file is saved in full, and the exit code is one if a line failed and zero if none did.
What is saved is loaded as the report, since no file is so large that its size has no text. -/
theorem exitCode_batch (timestamp : String)
    (parsed : Arguments.parse args = .run (.batch file (some target) strict digits))
    (writable : ws.Writable (Path.ofText target))
    (range : ∀ settings, Settings.ofEnvironment environment = .ok settings →
      ∀ n ∈ (settings.override strict digits).digits, n ≤ Binary64.maxDigits) :
    let ending := run environment ws timestamp (.batch file (some target) strict digits)
    (ending.exitCode = 2 ↔ Unusable environment ws (Path.ofText file)) ∧
      (ending.exitCode = 2 → ending.Refuses ws) ∧
      (ending.exitCode ≠ 2 → ∃ settings report, Settings.ofEnvironment environment = .ok settings ∧
        Batch.run ws (strict.getD settings.strict) (Path.ofText file) timestamp = .ok report ∧
        ending.Saves report (Path.ofText target) ∧
        (Batch.IsSized ws (Path.ofText file) →
          Report.load ending.workspace (Path.ofText target) = .ok (some report))) := by
  intro ending
  rcases run_refuses_or_saves timestamp parsed writable range with
    ⟨unusable, refuses⟩ | ⟨usable, settings, report, found, ran, saves⟩
  · exact ⟨iff_of_true refuses.exitCode unusable, fun _ => refuses,
      fun other => absurd refuses.exitCode other⟩
  · refine ⟨iff_of_false saves.exitCode_ne usable,
      fun refused => absurd refused saves.exitCode_ne,
      fun _ => ⟨settings, report, found, ran, saves, fun sized => ?_⟩⟩
    exact Report.load_of_read (Batch.isFinite_of_run ran) (Batch.storable_of_run ran sized)
      saves.written

end Runs

/-- One of two expressions fails, so the exit code is one; the report is in a new directory. -/
theorem exitCode_batch_failed_line :
    let ws : Workspace := ⟨[(["sums"], .file (Utf8.encode "# sums\n1+1\n1/0\n"))]⟩
    let ending := run [(Settings.digitsVariable, "3")] ws "now"
      (.batch "sums" (some "out/report") (some true) none)
    ending.exitCode = 1 ∧ ∃ report, report.failed = 1 ∧
      Report.load ending.workspace (Path.ofText "out/report") = .ok (some report) := by
  intro ws ending
  have parsed : Arguments.parse ["batch", "sums", "--strict", "--json=out/report"] =
      .run (.batch "sums" (some "out/report") (some true) none) := by
    decide +kernel
  have writable : ws.Writable (Path.ofText "out/report") :=
    ⟨⟨(["out"], .directory) :: ws.nodes⟩, ["out", "report"], rfl, rfl, by decide +kernel⟩
  have sized : Batch.IsSized ws (Path.ofText "sums") := by
    intro content read
    have same : ws.read (Path.ofText "sums") = .ok (Utf8.encode "# sums\n1+1\n1/0\n") := rfl
    rw [same] at read
    cases read
    rw [Decimal.digitCount_le_iff (by decide)]
    calc (Utf8.encode "# sums\n1+1\n1/0\n").length
      _ < 10 ^ 2 := by decide +kernel
      _ ≤ 10 ^ Numeral.maxIntegerDigits := Nat.pow_le_pow_right (by decide) (by decide)
  have found : Settings.ofEnvironment [(Settings.digitsVariable, "3")] = .ok ⟨false, some 3⟩ := by
    decide +kernel
  have range : ∀ settings, Settings.ofEnvironment [(Settings.digitsVariable, "3")] = .ok settings →
      ∀ n ∈ (settings.override (some true) none).digits, n ≤ Binary64.maxDigits := by
    intro settings same n member
    cases found.symm.trans same
    cases member
    decide
  have failing : (Batch.run ws true (Path.ofText "sums") "now").map Report.failed = .ok 1 := by
    decide +kernel
  obtain ⟨code, -, saving⟩ := exitCode_batch "now" parsed writable range
  have usable : ending.exitCode ≠ 2 := by
    rw [ne_eq, code]
    rintro (⟨_, wrong⟩ | unread)
    · cases found.symm.trans wrong
    · have refused : ∃ error, Batch.run ws true (Path.ofText "sums") "now" = .error error :=
        Batch.exists_run_eq_error_iff.2 unread
      obtain ⟨error, refused⟩ := refused
      rw [refused] at failing
      cases failing
  obtain ⟨settings, report, same, ran, saves, loading⟩ := saving usable
  have failed : report.failed = 1 := by
    rw [Option.getD_some] at ran
    rw [ran] at failing
    exact Except.ok.inj failing
  refine ⟨?_, report, failed, loading sized⟩
  rw [saves.exitCode, failed]
  rfl

end Command

end Abacus
