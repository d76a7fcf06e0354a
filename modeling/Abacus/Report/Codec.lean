import Abacus.Binary64.Text
import Abacus.Json.Literal
import Abacus.Numeral.Free
import Abacus.Report.Basic

/-!
# Reports as JSON

An outcome is one member, `result` or `error`. A result that is not finite is written as a string,
so that the text stays JSON. Reading takes more than writing makes: missing members have defaults,
the counters and all further members are ignored, an error that is there and not null wins over a
result, an error is turned into text, and a result may be a boolean, an integer or a string that
spells a number.

## Main definitions

* `Json.ShapeError` — why a JSON value is no report.
* `Outcome.toMembers`, `Entry.toJson`, `Report.toJson` — writing.
* `Outcome.ofJson`, `Entry.ofJson`, `Report.ofJson` — reading.
-/

namespace Abacus

/-- Why a JSON value is no outcome, entry or report. -/
inductive Json.ShapeError where
  /-- A report or an entry is no object. -/
  | notAnObject
  /-- The entries are no list. -/
  | notAList
  /-- An entry has neither a result nor an error. -/
  | noOutcome
  /-- A result is a list or an object. -/
  | notANumber
  /-- A result is a string that spells no number. -/
  | unreadableNumber
  /-- A result is an integer beyond the binary64 numbers. -/
  | numberTooLarge
  deriving DecidableEq, Repr

/-- What is wrong with an entry that has no outcome. -/
def Json.ShapeError.noOutcomeMessage : String := "result entry has neither result nor error"

namespace Outcome

/-- The one member that an outcome is written as. A number that is not finite is written as a
string, which is read as the number again. -/
def toMembers : Outcome → List (String × Json)
  | value x => [("result", if x.isFinite then .float x else .str x.literal)]
  | failure message => [("error", .str message)]

/-- The number that a JSON value denotes as a result. An integer is rounded, and one that rounds to
no finite number is an error of its own kind: it ends loading, where others make a file hold no
report. -/
def numberOfJson : Json → Except Json.ShapeError Binary64
  | .null => .error .noOutcome
  | .bool b => .ok (.ofInt b.toInt)
  | .int n =>
    let x := Binary64.ofInt n
    if x.isFinite then .ok x else .error .numberTooLarge
  | .float x => .ok x
  | .str s =>
    match Numeral.real? s with
    | some x => .ok x
    | none => .error .unreadableNumber
  | .arr _ | .obj _ => .error .notANumber

/-- The outcome that the members of an object hold. An error wins over a result, which is not looked
at then. -/
def ofMembers (members : List (String × Json)) : Except Json.ShapeError Outcome :=
  match (Json.member? "error" members).getD .null with
  | .null => (numberOfJson ((Json.member? "result" members).getD .null)).map value
  | error => .ok (failure error.plainText)

/-- The outcome that a JSON value holds. -/
def ofJson : Json → Except Json.ShapeError Outcome
  | .obj members => ofMembers members
  | _ => .error .notAnObject

end Outcome

namespace Entry

/-- The object that an entry is written as. -/
def toJson (entry : Entry) : Json :=
  .obj (("line", entry.line) :: ("expression", entry.expression) :: entry.outcome.toMembers)

/-- The entry that a JSON value holds. -/
def ofJson : Json → Except Json.ShapeError Entry
  | .obj members => do
    let outcome ← Outcome.ofMembers members
    return ⟨(Json.member? "line" members).getD (.int 0),
      (Json.member? "expression" members).getD (.str ""), outcome⟩
  | _ => .error .notAnObject

/-- The entries that a JSON value holds. An empty string and an empty object hold none, like an
empty list; the parts of other strings and objects are strings and so no entries. -/
def listOfJson : Json → Except Json.ShapeError (List Entry)
  | .arr items => items.mapM ofJson
  | .str s => if s.isEmpty then .ok [] else .error .notAnObject
  | .obj members => if members.isEmpty then .ok [] else .error .notAnObject
  | .null | .bool _ | .int _ | .float _ => .error .notAList

end Entry

namespace Report

/-- The object that a report is written as. -/
def toJson (report : Report) : Json :=
  .obj [("source", report.source), ("timestamp", report.timestamp),
    ("total", .int report.total), ("passed", .int report.passed),
    ("failed", .int report.failed), ("entries", .arr (report.entries.map Entry.toJson))]

/-- The report that a JSON value holds. The counters are those of the entries, whatever its members
say. Of source, time, lines and expressions any value is taken as it is; only outcomes are
checked. -/
def ofJson : Json → Except Json.ShapeError Report
  | .obj members => do
    let entries ← Entry.listOfJson ((Json.member? "entries" members).getD (.arr []))
    return ⟨(Json.member? "source" members).getD (.str ""),
      (Json.member? "timestamp" members).getD (.str ""), entries⟩
  | _ => .error .notAnObject

end Report

end Abacus
