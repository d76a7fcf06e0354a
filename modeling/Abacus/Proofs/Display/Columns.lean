import Mathlib
import Abacus.Proofs.Display.OneLine

/-!
# Columns on a wide display

A display that is wide enough narrows no column of a table: each is as wide as the widest of its
heading and its cells, or as its least width if that is more. So every cell has room for its lines,
and each of these stands in a line of the table, between two edges of the box.

## Main definitions

* `Table.naturalWidth` — the width of a column that is not narrowed.
* `Table.Fits` — a display that narrows no column.

## Main statements

* `Table.widths_of_fits` — the widths of the columns on such a display.
* `Table.exists_width_of_fits` — a column has room for each of its cells.
* `Table.exists_line_of_mem` — the lines of a cell stand in the table.
-/

namespace Abacus.Display.Table

variable {table : Table} {display : Nat}

/-! ### Widths -/

theorem le_largest {n : Nat} {ns : List Nat} (h : n ∈ ns) : n ≤ largest ns := by
  rw [largest, List.foldl_max]
  exact le_max_of_le_right (List.le_max?_getD_of_mem h)

theorem totalOf_eq_sum (ns : List Nat) : totalOf ns = ns.sum := List.sum_eq_foldl_nat.symm

/-- The width of a column that is not narrowed, margins included. -/
def naturalWidth (column : Column) (cells : List StyledText) : Nat :=
  max (if column.minWidth = 0 then 0 else column.minWidth + 2 * margin)
    (largest ((headingText column :: cells).map textWidth) + 2 * margin)

/-- The widths of the columns if none is narrowed. Columns are apart from each other: what is in one
does not make another wider. -/
def naturalWidths (table : Table) : List Nat :=
  table.cellsOf.map fun (column, cells) => naturalWidth column cells

/-- The display has room for the columns and the box around them. It can be decided from the table
before anything is laid out. -/
def Fits (table : Table) (display : Nat) : Prop :=
  table.naturalWidths.sum + table.boxWidth ≤ display

instance (table : Table) (display : Nat) : Decidable (table.Fits display) :=
  inferInstanceAs (Decidable (_ ≤ _))

/-- A column whose natural width is not too much has that width. -/
theorem columnWidth_eq {most : Nat} {column : Column} {cells : List StyledText}
    (h : naturalWidth column cells ≤ most) :
    max 1 (columnWidth most column cells) = naturalWidth column cells := by
  have widest : largest ((headingText column :: cells).map textWidth) + 2 * margin ≤ most :=
    (le_max_right _ _).trans h
  have some : 1 ≤ largest ((headingText column :: cells).map textWidth) + 2 * margin := by
    rw [margin]
    omega
  rw [columnWidth, min_eq_right widest, if_neg (by omega)]
  exact max_eq_right (some.trans (le_max_right _ _))

/-- **On a display with room for them no columns are narrowed.** No column is wider than all of them
together, so none meets its own bound either. -/
theorem widths_of_fits (h : table.Fits display) : table.widths display = table.naturalWidths := by
  have room : table.naturalWidths.sum ≤ display - table.boxWidth := Nat.le_sub_of_add_le h
  have natural : (table.cellsOf.map fun (column, cells) =>
      max 1 (columnWidth (display - table.boxWidth) column cells)) = table.naturalWidths := by
    refine List.map_congr_left fun (column, cells) member => columnWidth_eq ?_
    exact (List.le_sum_of_mem (List.mem_map_of_mem member)).trans room
  rw [widths]
  dsimp only
  rw [natural, totalOf_eq_sum]
  exact if_pos room

variable {row : List StyledText} {i : Nat} {column : Column} {text : StyledText}

/-- **A column has room for each of its cells,** margins included. -/
theorem exists_width_of_fits (h : table.Fits display) (inside : row ∈ table.rows)
    (there : table.columns[i]? = some column) (cell : row[i]? = some text) :
    ∃ width, (table.widths display)[i]? = some width ∧ textWidth text + 2 * margin ≤ width := by
  have cells : table.cellsOf[i]? = some (column, table.rows.filterMap fun row => row[i]?) := by
    simp [cellsOf, there]
  have width : (table.widths display)[i]? =
      some (naturalWidth column (table.rows.filterMap fun row => row[i]?)) := by
    rw [widths_of_fits h, naturalWidths, List.getElem?_map, cells]
    rfl
  have among : text ∈ table.rows.filterMap fun row => row[i]? :=
    List.mem_filterMap.2 ⟨row, inside, cell⟩
  refine ⟨_, width, le_max_of_le_right (Nat.add_le_add_right (le_largest ?_) _)⟩
  exact List.mem_map_of_mem (List.mem_cons_of_mem _ among)

/-! ### Lines -/

/-- Text without newlines is as wide as its line. -/
theorem textWidth_eq (plain : ∀ c ∈ text.chars, c ≠ '\n') :
    textWidth text = Text.width text.chars := by
  rw [textWidth, Wrap.paragraphs_eq_singleton plain]
  exact Nat.zero_max _

/-- The characters of a line of a row whose edges are all the same. -/
theorem chars_boxed {edge : Char} {cells : List Line} (some : cells ≠ []) :
    Line.chars (boxed ⟨edge, edge, edge⟩ cells) =
      (cells.flatMap fun cell => edge :: Line.chars cell) ++ [edge] := by
  obtain ⟨cell, cells, rfl⟩ := List.exists_cons_of_ne_nil some
  clear some
  induction cells generalizing cell with
  | nil => simp [boxed, Line.chars, Run.plain]
  | cons next cells ih =>
      have rest := ih next
      simp only [boxed, Line.chars, Run.plain] at rest ⊢
      simpa using rest

/-- A cell stands between two edges. -/
theorem exists_chars_boxed {edge : Char} {cells : List Line} {cell : Line} (h : cell ∈ cells) :
    ∃ before after, Line.chars (boxed ⟨edge, edge, edge⟩ cells) =
      before ++ edge :: Line.chars cell ++ edge :: after := by
  obtain ⟨front, back, rfl⟩ := List.append_of_mem h
  rw [chars_boxed (List.append_ne_nil_of_right_ne_nil _ (List.cons_ne_nil _ _))]
  refine ⟨front.flatMap fun cell => edge :: Line.chars cell, ?_⟩
  cases back with
  | nil => exact ⟨[], by simp⟩
  | cons next back =>
      exact ⟨Line.chars next ++ (back.flatMap fun cell => edge :: Line.chars cell) ++ [edge],
        by simp⟩

/-- The lines of a cell stand in those of its row. -/
theorem exists_mem_rowLines {edge : Char} (styleOf : Column → Style)
    {columns : List (Column × Nat)} {width : Nat} (there : columns[i]? = some (column, width))
    (cell : row[i]? = some text) {shown : Line}
    (among : shown ∈ cellLines column (styleOf column) width text) :
    ∃ line ∈ rowLines ⟨edge, edge, edge⟩ .top styleOf columns row, ∃ before after,
      Line.chars line = before ++ edge :: Line.chars shown ++ edge :: after := by
  obtain ⟨k, place⟩ := List.mem_iff_getElem?.1 among
  obtain ⟨within, -⟩ := List.getElem?_eq_some_iff.1 place
  set blocks := (columns.zip row).map fun part =>
    (part.1.1, part.1.2, cellLines part.1.1 (styleOf part.1.1) part.1.2 part.2)
  set height := largest (blocks.map fun block => block.2.2.length)
  set filled := blocks.map fun block =>
    fillHeight .top (styleOf block.1) block.2.1 height block.2.2
  have block : (column, width, cellLines column (styleOf column) width text) ∈ blocks := by
    have zipped : (columns.zip row)[i]? = some ((column, width), text) :=
      List.getElem?_zip_eq_some.2 ⟨there, cell⟩
    exact List.mem_map.2 ⟨_, List.mem_of_getElem? zipped, rfl⟩
  have low : k < height :=
    within.trans_le (le_largest (List.mem_map.2 ⟨_, block, rfl⟩))
  have found : shown ∈ filled.filterMap fun lines => lines[k]? := by
    refine List.mem_filterMap.2 ⟨_, List.mem_map.2 ⟨_, block, rfl⟩, ?_⟩
    exact (List.getElem?_append_left within).trans place
  exact ⟨_, List.mem_map.2 ⟨k, List.mem_range.2 low, rfl⟩, exists_chars_boxed found⟩

/-- **The lines of a cell stand in the table,** each between two edges. This holds on every display,
with the width that the column has there. -/
theorem exists_line_of_mem (inside : row ∈ table.rows) (there : table.columns[i]? = some column)
    (cell : row[i]? = some text) {width : Nat} (wide : (table.widths display)[i]? = some width)
    {shown : Line} (among : shown ∈ cellLines column column.style width text) :
    ∃ line ∈ table.lines display, ∃ before after,
      Line.chars line = before ++ '│' :: Line.chars shown ++ '│' :: after := by
  have zipped : (table.columns.zip (table.widths display))[i]? = some (column, width) :=
    List.getElem?_zip_eq_some.2 ⟨there, wide⟩
  obtain ⟨line, member, chars⟩ := exists_mem_rowLines Column.style zipped cell among
  have rows := List.mem_flatMap.2 ⟨row, inside, member⟩
  exact ⟨line, List.mem_append_left _ (List.mem_append_right _ rows), chars⟩

end Abacus.Display.Table
