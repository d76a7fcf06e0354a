import Abacus.Display.Markup
import Abacus.Display.Table

/-!
# Consoles

A console is a display of some width, with colours or without. Everything printed ends with a
newline.

## Main definitions

* `Console` — the display.
* `Console.showLines` — lines of runs as the console gets them.
* `Console.showText`, `Console.showMarkup`, `Console.showTable` — what printing shows.
-/

namespace Abacus.Display

/-- A display of some width, which can show every character. Width and colours are settled
beforehand; no terminal is asked for them. -/
structure Console where
  width : Nat
  colours : Bool
  deriving DecidableEq, Repr

namespace Console

/-- The runs at the front of a line that fit a width. The first that does not is cut. What follows
it is not shown at all, although some of it may be narrow enough. -/
def cropLine (width : Nat) : Line → Line
  | [] => []
  | run :: rest =>
    let used := Text.width run.text
    if used ≤ width then run :: cropLine (width - used) rest
    else Run.ofText (Wrap.cut width (.ofChars run.style run.text))

/-- Lines as the console gets them, those too wide for it cropped. Cropping comes last, after any
wrapping. -/
def showLines (console : Console) (lines : List Line) : String :=
  String.ofList <| lines.flatMap fun line =>
    (cropLine console.width line).flatMap (Run.display console.colours) ++ ['\n']

/-- What printing text shows: its lines wrapped to the console, long words folded. -/
def showText (console : Console) (text : StyledText) : String :=
  console.showLines ((Wrap.wrap console.width true text).map fun line =>
    Run.ofText (Wrap.crop console.width line))

/-- What printing markup shows, or the first fault in it; then nothing is printed. -/
def showMarkup [TagReading] (console : Console) (markup : List Char) : Except Markup.Fault String :=
  (Markup.render markup).map console.showText

/-- What printing a table shows. -/
def showTable (console : Console) (table : Table) : String :=
  console.showLines (table.lines console.width)

/-- An empty line. -/
def emptyLine : String := "\n"

end Console

end Abacus.Display
