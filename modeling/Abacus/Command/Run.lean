import Abacus.Batch
import Abacus.Command.Arguments
import Abacus.Render
import Abacus.Report.Storage
import Abacus.Settings

/-!
# Running commands

A command reads the settings, does its work in a workspace, and ends with what it printed, an exit
code, and the workspace it leaves. Results go to the output and messages to the errors.

## Main definitions

* `Command.Ending` — how a run ends.
* `Command.run` — the run of a command.

## Design notes

The exit code is 0 for success, 1 where an expression failed, and 2 where the settings or the file
cannot be used. A run can also be aborted, by a number of digits that no text has or by a report
that cannot be saved; then it keeps what it has printed so far.
-/

namespace Abacus.Command

open Display

/-- Why a run is aborted, with no message of its own: something cannot be shown, or a report cannot
be saved. -/
inductive Abort where
  | render (error : Render.RenderError)
  | save (error : Report.SaveError)
  deriving DecidableEq, Repr

/-- How a run ends: what it printed, the workspace that it leaves, and the exit code. An aborted run
has the exit code 1, and the output of what was shown before. -/
structure Ending where
  exitCode : Nat
  output : String
  errors : String
  workspace : Workspace
  abort : Option Abort := none

namespace Ending

/-- An ending with a message on the errors. Where the message cannot be shown, the run is aborted
instead. -/
def message (ws : Workspace) (exitCode : Nat) : Except Render.RenderError String → Ending
  | .ok errors => ⟨exitCode, "", errors, ws, none⟩
  | .error error => ⟨1, "", "", ws, some (.render error)⟩

/-- An ending with a result on the output. Where the result cannot be shown, the run is aborted
instead, and nothing is printed. -/
def result (ws : Workspace) (exitCode : Nat) : Except Render.RenderError String → Ending
  | .ok output => ⟨exitCode, output, "", ws, none⟩
  | .error error => ⟨1, "", "", ws, some (.render error)⟩

end Ending

/-- The console that runs print on: 80 columns without colours, which is what is taken where the
output is no terminal. -/
def console : Console := ⟨80, false⟩

variable [TagReading]

/-- A message under a red title. The text is markup; what is not the program's own in it has to be
escaped before. -/
def titled (title text : String) : Except Render.RenderError String :=
  Render.print console (Markup.tagged "red" title.toList ++ ' ' :: text.toList)

/-- A text that stands in a message as it is. -/
def escaped (text : String) : String := String.ofList (Render.escaped text)

/-- Shows the value of an expression on the output, or its failure on the errors. The number of
digits is looked at only where there is a value. -/
def eval (ws : Workspace) (settings : Settings) (expression : String) : Ending :=
  match Calculator.outcomeOfText settings.strict expression with
  | .failure text => .message ws 1 (Render.outcome console none (.failure text))
  | .value x => .result ws 0 (Render.outcome console settings.digits (.value x))

/-- Shows the tokens of an expression. They are not evaluated; the only failure is a character that
a strict scan refuses. -/
def tokens (ws : Workspace) (settings : Settings) (expression : String) : Ending :=
  match Token.scan settings.strict expression with
  | .error fault => .message ws 1 (titled "Error:" (escaped fault.message))
  | .ok ts => .result ws 0 (Render.tokens console ts)

/-- What is left to do after a report was shown: it is written to a file if one is given, and tells
by the exit code whether a line failed. -/
def finish (ws : Workspace) (report : Report) (json : Option Path) (output : String) : Ending :=
  let exitCode := if report.failed = 0 then 0 else 1
  match json with
  | none => ⟨exitCode, output, "", ws, none⟩
  | some path =>
    match report.save ws path with
    | (left, some error) => ⟨1, output, "", left, some (.save error)⟩
    | (left, none) =>
      match Render.print console ("Results written to " ++ escaped path.text).toList with
      | .ok errors => ⟨exitCode, output, errors, left, none⟩
      | .error error => ⟨1, output, "", left, some (.render error)⟩

/-- Evaluates a file, shows the report, and writes it to another file if one is given. Wherever the
path leads to no file, none is said to be there. A file that is there can be read in a workspace, so
it is only said to be unreadable if its bytes are no text. -/
def batch (ws : Workspace) (settings : Settings) (timestamp : String) (path : Path)
    (json : Option Path) : Ending :=
  match Batch.run ws settings.strict path timestamp with
  | .error (.path _) => .message ws 2 (titled "Error:" ("No such file: " ++ escaped path.text))
  | .error (.bytes fault) =>
    .message ws 2
      (titled "Error:" ("Cannot read " ++ escaped path.text ++ ": " ++ escaped fault.message))
  | .ok report =>
    match Render.report console settings.digits report with
    | .error error => ⟨1, "", "", ws, some (.render error)⟩
    | .ok output => finish ws report json output

/-- The options of an invocation that override settings. Where tokens are listed, there are no
numbers to round. -/
def Invocation.overrides : Invocation → Option Bool × Option Int
  | .eval _ strict digits | .batch _ _ strict digits => (strict, digits)
  | .tokens _ strict => (strict, none)

/-- The run of a command at a time, in an environment and a workspace. These are all that it depends
on: nothing is kept from one run to the next but what stands in the workspace. -/
def run (environment : List (String × String)) (ws : Workspace) (timestamp : String)
    (invocation : Invocation) : Ending :=
  match Settings.ofEnvironment environment with
  | .error error => .message ws 2 (titled "Invalid configuration:" (escaped error.message))
  | .ok found =>
    let (strict, digits) := invocation.overrides
    let settings := found.override strict digits
    match invocation with
    | .eval expression .. => eval ws settings expression
    | .tokens expression _ => tokens ws settings expression
    | .batch path json .. =>
      batch ws settings timestamp (Path.ofText path) (json.map Path.ofText)

end Abacus.Command
