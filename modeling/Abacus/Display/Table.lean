import Abacus.Display.Wrap
import Abacus.Rounding

/-!
# Tables

Boxed tables with a title. A column is as wide as its widest cell, and a table that is too wide for
the display is narrowed from its widest columns; the cells of a narrowed column wrap at words, and
longer words are cut short by an ellipsis.

## Main definitions

* `Column` — the heading of a column and how its cells stand.
* `Table` — title, columns and rows.
* `Table.widths` — the widths of the columns on a display.
* `Table.lines` — the lines of display.
-/

namespace Abacus.Display

/-- A column of a table. -/
structure Column where
  heading : String
  /-- Cells stand at the right. -/
  toRight : Bool := false
  /-- The style of the cells. -/
  style : Style := .plain
  /-- The least width of the cells. -/
  minWidth : Nat := 0
  deriving Repr

/-- A table: a title over columns of cells. A row may have fewer cells than there are columns, and
then its line is shorter; what it has more is not shown. -/
structure Table where
  title : StyledText
  columns : List Column
  rows : List (List StyledText)

namespace Table

/-- The style of the title. -/
def titleStyle : Style := { italic := true }

/-- The style of the headings. -/
def headingStyle : Style := { bold := true }

/-- The blanks at each side of a cell. -/
def margin : Nat := 1

/-! ## Widths -/

/-- The largest of some numbers, or zero. Widths and heights are taken together by it. -/
def largest (ns : List Nat) : Nat := ns.foldl max 0

/-- The sum of some numbers. -/
def totalOf (ns : List Nat) : Nat := ns.foldl (· + ·) 0

/-- The width of the widest line of a text. This is what a column needs to show the text without
wrapping it. -/
def textWidth (text : StyledText) : Nat :=
  largest ((Wrap.paragraphs text).map fun line => Text.width (StyledText.chars line))

/-- The heading of a column as a cell. -/
def headingText (column : Column) : StyledText := .ofChars .plain column.heading.toList

/-- The width of a column, margins included: that of its widest cell, at most `most`, but no less
than the column's own least width. -/
def columnWidth (most : Nat) (column : Column) (cells : List StyledText) : Nat :=
  let natural := largest ((headingText column :: cells).map textWidth) + 2 * margin
  let least := if column.minWidth = 0 then 0 else column.minWidth + 2 * margin
  if most = 0 then 0 else max least (min most natural)

/-- Takes a total away from numbers, each with the most that may be taken from it. Those from which
something may be taken share what is left of the total evenly, one after the other. -/
def takeEvenly (total shares : Nat) : List (Nat × Nat) → List Nat
  | [] => []
  | (n, most) :: rest =>
    if 0 < most ∧ 0 < shares then
      let part := min most (roundQuotient total shares)
      (n - part) :: takeEvenly (total - part) (shares - 1) rest
    else n :: takeEvenly total shares rest

/-- The numbers with a total taken from them, at most the given amount from each. Every number that
may give gives about the same; what one cannot is left to those behind it. -/
def reduce (total : Nat) (limits : List (Nat × Nat)) : List Nat :=
  takeEvenly total (limits.countP fun limit => 0 < limit.2) limits

/-- The widths narrowed to a sum of `most`: in each round the widest columns lose what they have
over the next widest, or the excess if it is less. A round takes at least one from the sum, so
`rounds` of that number suffice. -/
def narrow (most : Nat) : Nat → List Nat → List Nat
  | 0, widths => widths
  | rounds + 1, widths =>
    let excess := totalOf widths - most
    let widest := largest widths
    let lead := widest - largest (widths.filter (· != widest))
    if excess = 0 ∨ lead = 0 then widths
    else
      let limits := widths.map fun width =>
        (width, if width = widest then min excess lead else 0)
      narrow most rounds (reduce excess limits)

/-- The cells of each column. A row that is too short has no cell for the last columns. -/
def cellsOf (table : Table) : List (Column × List StyledText) :=
  table.columns.zipIdx.map fun (column, i) => (column, table.rows.filterMap fun row => row[i]?)

/-- The width that the box takes beside the columns. There is an edge at both sides and one between
each two columns. -/
def boxWidth (table : Table) : Nat := table.columns.length + 1

/-- The widths of the columns on a display, margins included. Where all cells fit, each column is as
wide as it asks for; otherwise the widest give way first. -/
def widths (table : Table) (display : Nat) : List Nat :=
  let most := display - table.boxWidth
  let natural := table.cellsOf.map fun (column, cells) => max 1 (columnWidth most column cells)
  if totalOf natural ≤ most then natural
  else
    let narrowed := narrow most (totalOf natural) natural
    -- Where rounds end without enough taken, all columns give up the rest evenly.
    let even :=
      if totalOf narrowed ≤ most then narrowed
      else reduce (totalOf narrowed - most) (narrowed.map fun width => (width, width))
    -- A column is no wider than its cells need, and no narrower than its least width.
    (table.cellsOf.zip even).map fun ((column, cells), width) => columnWidth width column cells

/-! ## Lines -/

/-- A line of a cell, with its margins. What does not fit is elided; at the right, blanks at the end
of a line do not push it from the edge. -/
def cellLine (column : Column) (style : Style) (inner : Nat) (text : StyledText) : Line :=
  let aligned :=
    if column.toRight then Wrap.alignRight inner (Wrap.elide inner (Wrap.withoutEnd text))
    else Wrap.alignLeft inner (Wrap.elide inner text)
  let side : Run := ⟨List.replicate margin ' ', style⟩
  side :: Run.ofText (aligned.within style) ++ [side]

/-- The lines of a cell in a column of a width. -/
def cellLines (column : Column) (style : Style) (width : Nat) (text : StyledText) : List Line :=
  let inner := width - 2 * margin
  (Wrap.wrap inner false text).map (cellLine column style inner)

/-- Where the lines of a row's shorter cells stand. -/
inductive Vertical where
  | top
  | bottom
  deriving DecidableEq, Repr

/-- The lines of a cell filled up to the height of its row. Blank lines have the style of the
cell. -/
def fillHeight (vertical : Vertical) (style : Style) (width height : Nat) (lines : List Line) :
    List Line :=
  let blank : Line := [⟨List.replicate width ' ', style⟩]
  let extra := List.replicate (height - lines.length) blank
  match vertical with
  | .top => lines ++ extra
  | .bottom => extra ++ lines

/-- The characters of one line of the box: its left end, its right end and what stands between
two columns. -/
structure Edge where
  left : Char
  between : Char
  right : Char

/-- One line of a row, its cells within an edge. -/
def boxed (edge : Edge) (cells : List Line) : Line :=
  Run.plain [edge.left] :: (cells.intersperse [Run.plain [edge.between]]).flatten ++
    [Run.plain [edge.right]]

/-- A line of the box that separates rows. -/
def rule (edge : Edge) (fill : Char) (widths : List Nat) : Line :=
  boxed edge (widths.map fun width => [Run.plain (List.replicate width fill)])

/-- The lines of a row of cells. A row is as high as its highest cell. -/
def rowLines (edge : Edge) (vertical : Vertical) (styleOf : Column → Style)
    (columns : List (Column × Nat)) (cells : List StyledText) : List Line :=
  let blocks := (columns.zip cells).map fun ((column, width), text) =>
    (column, width, cellLines column (styleOf column) width text)
  let height := largest (blocks.map fun block => block.2.2.length)
  let filled := blocks.map fun (column, width, lines) =>
    fillHeight vertical (styleOf column) width height lines
  (List.range height).map fun i => boxed edge (filled.filterMap fun lines => lines[i]?)

/-- The lines of the title, in the middle over the table. -/
def titleLines (width : Nat) (title : StyledText) : List Line :=
  (Wrap.wrap width true title).map fun line =>
    let centred := Wrap.alignCentre width (Wrap.crop width (Wrap.withoutEnd line))
    Run.ofText (centred.within titleStyle)

/-- The lines of a table on a display of some width: the title, the headings between two rules, the
rows, and a last rule. There is no rule between rows. -/
def lines (table : Table) (display : Nat) : List Line :=
  let widths := table.widths display
  let columns := table.columns.zip widths
  titleLines (totalOf widths + table.boxWidth) table.title ++
    [rule ⟨'┏', '┳', '┓'⟩ '━' widths] ++
    rowLines ⟨'┃', '┃', '┃'⟩ .bottom (fun _ => headingStyle) columns
      (table.columns.map headingText) ++
    [rule ⟨'┡', '╇', '┩'⟩ '━' widths] ++
    table.rows.flatMap (rowLines ⟨'│', '│', '│'⟩ .top Column.style columns) ++
    [rule ⟨'└', '┴', '┘'⟩ '─' widths]

end Table

end Abacus.Display
