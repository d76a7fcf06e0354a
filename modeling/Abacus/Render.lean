import Abacus.Binary64.Text
import Abacus.Display.Console
import Abacus.Json.Literal
import Abacus.Report.Basic

/-!
# Outcomes, tokens and reports on a console

## Main definitions

* `Render.outcome` — a value in green, or an error.
* `Render.tokens` — a table of tokens and their kinds.
* `Render.report` — a table of the entries of a report, and a summary.
* `Render.RenderError` — why something cannot be shown.
-/

namespace Abacus.Render

open Display

/-- Why something cannot be shown. None of these is met by what the calculator makes itself; they
come of digits that are asked for and of reports that are loaded. -/
inductive RenderError where
  /-- The number of significant digits is out of range. -/
  | digitsOutOfRange
  /-- The source or an expression of a report is no string. -/
  | notText
  /-- Text that is taken as markup is none. -/
  | markup (fault : Markup.Fault)
  deriving DecidableEq, Repr

/-- Text that is meant to be shown as it is. Tags in it have no effect; what becomes of backslashes
in front of other brackets and at the end is another matter, and depends on what follows. -/
def escaped (s : String) : List Char := Markup.escape s.toList

variable [TagReading]

/-- What printing markup shows. -/
def print (console : Console) (markup : List Char) : Except RenderError String :=
  (console.showMarkup markup).mapError .markup

/-- The text of a value that is shown. -/
def valueText (digits : Option Int) (x : Binary64) : Except RenderError (List Char) :=
  match x.display? digits with
  | some text => .ok text.toList
  | none => .error .digitsOutOfRange

/-- The string that a JSON value has to be for it to be shown. Sources and expressions are shown
through this, and lines are not. -/
def textOf : Json → Except RenderError String
  | .str s => .ok s
  | _ => .error .notText

/-- What an outcome shows: a value in green, or a title in red and the message behind it. The
message itself has no colour. -/
def outcome (console : Console) (digits : Option Int) : Outcome → Except RenderError String
  | .value x => do print console (Markup.tagged "green" (← valueText digits x))
  | .failure message =>
    print console (Markup.tagged "red" "Error:".toList ++ ' ' :: escaped message)

/-- The cell that markup makes. Its width is that of what is shown, without the tags. -/
def cell (markup : List Char) : Except RenderError StyledText :=
  (Markup.render markup).mapError .markup

/-- The name of the colour of a kind of tokens. -/
def kindColour : TokenKind → String
  | .number => "cyan"
  | .operator => "yellow"
  | .paren => "magenta"
  | .unknown => "red"

/-- The markup of the cells of a token. -/
def tokenMarkup (index : Nat) (token : String) : List (List Char) :=
  let kind := TokenKind.of token
  [(toString index).toList, escaped token, Markup.tagged (kindColour kind) kind.name.toList]

/-- The columns of the table of tokens. -/
def tokenColumns : List Column :=
  [{ heading := "#", toRight := true, style := { dim := true } },
    { heading := "Token", minWidth := 8 },
    { heading := "Kind" }]

/-- What tokens show. -/
def tokens (console : Console) (ts : List String) : Except RenderError String := do
  if ts.isEmpty then print console (Markup.tagged "yellow" "No tokens.".toList)
  else
    let rows ← ts.zipIdx.mapM fun (token, index) => (tokenMarkup index token).mapM cell
    let table : Table := ⟨← cell "Tokens".toList, tokenColumns, rows⟩
    return Console.emptyLine ++ console.showTable table ++ Console.emptyLine

/-- The columns of the table of entries. -/
def entryColumns : List Column :=
  [{ heading := "Line", toRight := true, style := { dim := true } },
    { heading := "Expression", minWidth := 20 },
    { heading := "Outcome", toRight := true, minWidth := 12 }]

/-- The markup of an outcome in a table. A message is escaped, and a closing tag follows it
directly. -/
def outcomeMarkup (digits : Option Int) : Outcome → Except RenderError (List Char)
  | .value x => (valueText digits x).map (Markup.tagged "green")
  | .failure message => .ok (Markup.tagged "red" (escaped message))

/-- The markup of the cells of an entry. The line is shown as it stands, without escapes. Lines are
numbers in every report that was made here, but not in every one that was loaded. -/
def entryMarkup (digits : Option Int) (entry : Entry) : Except RenderError (List (List Char)) := do
  let outcome ← outcomeMarkup digits entry.outcome
  let expression ← textOf entry.expression
  return [entry.line.plainText.toList, escaped expression, outcome]

/-- The markup of the summary of a report. -/
def summary (report : Report) : List Char :=
  let colour := if report.failed = 0 then "green" else "yellow"
  Markup.tagged colour
      (toString report.passed ++ "/" ++ toString report.total ++ " evaluated").toList ++
    (", " ++ toString report.failed ++ " failed").toList

/-- What a report shows: a table of its entries and a summary below it, or a message if it has none.
If anything in it cannot be shown, there is no output at all. -/
def report (console : Console) (digits : Option Int) (r : Report) :
    Except RenderError String := do
  let source := escaped (← textOf r.source)
  if r.entries.isEmpty then
    print console (Markup.tagged "yellow" ("No expressions found in ".toList ++ source))
  else
    let markups ← r.entries.mapM (entryMarkup digits)
    let rows ← markups.mapM fun row => row.mapM cell
    let table : Table := ⟨← cell ("Batch: ".toList ++ source), entryColumns, rows⟩
    return Console.emptyLine ++ console.showTable table ++ (← print console (summary r)) ++
      Console.emptyLine

end Abacus.Render
