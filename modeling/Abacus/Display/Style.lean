/-!
# Styles of displayed text

A style is a set of attributes and at most one colour; text carries the style of each character.
On a terminal with colours a run of one style stands between two control sequences.

## Main definitions

* `Style` — attributes and colour, `Style.within` for a style inside another.
* `StyledText` — characters with their styles.
* `Run` — characters of one style, `Run.display` for a terminal.
-/

namespace Abacus.Display

/-- The eight colours that every terminal has. Of these the library uses five; the finer colours of
some terminals are left out. -/
inductive Colour where
  | black
  | red
  | green
  | yellow
  | blue
  | magenta
  | cyan
  | white
  deriving DecidableEq, Repr

namespace Colour

/-- Every colour, in the order of their codes. -/
def all : List Colour := [black, red, green, yellow, blue, magenta, cyan, white]

/-- The name of a colour. -/
def name : Colour → String
  | black => "black"
  | red => "red"
  | green => "green"
  | yellow => "yellow"
  | blue => "blue"
  | magenta => "magenta"
  | cyan => "cyan"
  | white => "white"

/-- The code of a colour. -/
def code (colour : Colour) : Nat := 30 + all.idxOf colour

end Colour

/-- A style of text. Of the attributes only those are kept that the library uses for its tables;
a style has at most one colour, that of the characters. -/
structure Style where
  bold : Bool := false
  dim : Bool := false
  italic : Bool := false
  colour : Option Colour := none
  deriving DecidableEq, Repr

namespace Style

/-- The style of text that has none. -/
def plain : Style := {}

/-- The style of a colour. -/
def ofColour (colour : Colour) : Style := { colour := some colour }

/-- The style with a name; other names stand for no style. It is how the reading that programs are
run with finds styles. -/
def ofName (name : String) : Style :=
  if name == "bold" then { bold := true }
  else if name == "dim" then { dim := true }
  else if name == "italic" then { italic := true }
  else { colour := Colour.all.find? fun colour => colour.name == name }

/-- The style of text that has a style inside text of another. The inner colour wins, and attributes
add up. -/
def within (inner outer : Style) : Style where
  bold := outer.bold || inner.bold
  dim := outer.dim || inner.dim
  italic := outer.italic || inner.italic
  colour := inner.colour.or outer.colour

/-- The codes that select a style. A plain style has none, and is shown without a control
sequence. -/
def codes (style : Style) : List Nat :=
  (if style.bold then [1] else []) ++ (if style.dim then [2] else []) ++
    (if style.italic then [3] else []) ++ (style.colour.map Colour.code).toList

end Style

/-- Characters with their styles. -/
abbrev StyledText := List (Char × Style)

namespace StyledText

/-- The characters of a text in one style. -/
def ofChars (style : Style) (cs : List Char) : StyledText := cs.map fun c => (c, style)

/-- The characters without their styles. -/
def chars (text : StyledText) : List Char := text.map Prod.fst

/-- A number of blanks in a style. -/
def blanks (style : Style) (count : Nat) : StyledText := List.replicate count (' ', style)

/-- The text inside text of another style. -/
def within (text : StyledText) (outer : Style) : StyledText :=
  text.map fun (c, style) => (c, style.within outer)

@[simp]
theorem chars_ofChars (style : Style) (cs : List Char) : (ofChars style cs).chars = cs := by
  simp [chars, ofChars, Function.comp_def]

@[simp]
theorem chars_within (text : StyledText) (outer : Style) :
    (text.within outer).chars = text.chars := by
  simp [chars, within, Function.comp_def]

end StyledText

/-- Neighbouring characters of one style. Lines are made of runs, as a control sequence is written
once for all of a run. -/
structure Run where
  text : List Char
  style : Style
  deriving DecidableEq, Repr

namespace Run

/-- The runs of a text. -/
def ofText (text : StyledText) : List Run :=
  (text.splitBy fun a b => a.2 == b.2).filterMap fun piece =>
    piece.head?.map fun first => ⟨piece.map Prod.fst, first.2⟩

/-- A run of plain text. -/
def plain (text : List Char) : Run := ⟨text, .plain⟩

/-- The control sequence with some codes. -/
def control (codes : List Nat) : List Char :=
  '\x1b' :: '[' :: (";".intercalate (codes.map toString)).toList ++ ['m']

/-- A run as a terminal gets it, with colours or without. Every run resets what it has set, so runs
can be put in any order. -/
def display (colours : Bool) (run : Run) : List Char :=
  if colours && !run.style.codes.isEmpty && !run.text.isEmpty then
    control run.style.codes ++ run.text ++ control [0]
  else run.text

end Run

/-- A line of display, run by run. -/
abbrev Line := List Run

end Abacus.Display
