import Abacus.Json.Read
import Abacus.Json.Write
import Abacus.Report.Codec
import Abacus.Text.Utf8
import Abacus.Workspace

/-!
# Reports in files

A report is saved as JSON text. The directories on the way are made first; then the text is made,
so that a report without JSON text leaves the file as it was. A file that holds no report is the
same as none.

Reading has limits that writing has not: integers of too many digits are no integers for a reader,
and nesting that is too deep makes it fail. A report within these limits is `Report.Storable`, and
every report that is loaded is one.

## Main definitions

* `Report.save` — writes a report to a file.
* `Report.load` — the report in a file, if there is one.
-/

namespace Abacus.Report

/-- Why a report cannot be saved. Whichever it is, no file has changed. -/
inductive SaveError where
  | path (error : PathError)
  /-- A number outside the results is not finite. -/
  | notFinite
  deriving DecidableEq, Repr

/-- The workspace after saving a report, with the error that prevented it, if any. What is not
`Report.Storable` is written all the same, where a writer with the limits of the reader fails. -/
def save (report : Report) (ws : Workspace) (path : Path) : Workspace × Option SaveError :=
  match ws.makeDirectories path.parent with
  | (made, some error) => (made, some (.path error))
  | (made, none) =>
    match report.toJson.write? with
    | none => (made, some .notFinite)
    | some text =>
      match made.write path (Utf8.encode text) with
      | .ok written => (written, none)
      | .error error => (made, some (.path error))

/-- Why a file cannot be loaded although it may be a report. -/
inductive LoadError where
  /-- The JSON text is nested too deep. -/
  | tooDeep
  /-- A result is an integer beyond the binary64 numbers. -/
  | numberTooLarge
  deriving DecidableEq, Repr

/-- The report that bytes hold, if they hold one. Of a string with a lone surrogate it has U+FFFD in
its place. -/
def ofBytes (bytes : List UInt8) : Except LoadError (Option Report) :=
  match Utf8.decode bytes with
  | .error _ => .ok none
  | .ok text =>
    match Json.read text with
    | .error .tooDeep => .error .tooDeep
    | .error _ => .ok none
    | .ok json =>
      match ofJson json with
      | .error .numberTooLarge => .error .numberTooLarge
      | .error _ => .ok none
      | .ok report => .ok (some report)

/-- The report in a file, if there is a file and it holds one. The values in it are not checked: a
source may be a number. Which loaded reports are of use is `Report.isUsable_iff_of_load`. -/
def load (ws : Workspace) (path : Path) : Except LoadError (Option Report) :=
  match ws.read path with
  | .error _ => .ok none
  | .ok bytes => ofBytes bytes

end Abacus.Report
