import PocketSql.Query.Statement

/-!
# Grids

A query result as lines of text: the headings, a separator, and one line for each
row, with all cells of a column in one width. A cell is filled up to the width of its
column by the formatter, which takes a width of sixteen bits; a wider column ends the
writing of the grid.
-/

namespace PocketSql

/-- Why there is no grid. -/
inductive GridFault where
  | widthOutOfRange
deriving DecidableEq

def GridFault.message : GridFault → String
  | widthOutOfRange => "Formatting argument out of range"

namespace Grid

/-- A null is an empty cell. -/
def cellText : Option Value → String
  | some value => value.text
  | none => ""

/-- Makes the widths of columns suffice for the cells of a row. A row may have fewer
or more cells than there are columns. -/
def widen : List Nat → List String → List Nat
  | width :: widths, cell :: cells => max width cell.length :: widen widths cells
  | widths, _ => widths

/-- The width of every column: that of its widest cell, the heading included. -/
def widths (headings : List String) (rows : List (List String)) : List Nat :=
  rows.foldl widen (headings.map String.length)

/-- The greatest width that the formatter takes. -/
def maxWidth : Nat := 65535

/-- A cell between two blanks, filled up with blanks to its width. -/
def fill (cell : String) (width : Nat) : String :=
  " " ++ cell ++ String.ofList (List.replicate (width - cell.length) ' ') ++ " "

def padCell (cell : String) (width : Nat) : Except GridFault String :=
  if width ≤ maxWidth then .ok (fill cell width) else .error .widthOutOfRange

def line (widths : List Nat) (cells : List String) : Except GridFault String := do
  let pieces ← (cells.zip widths).mapM fun (cell, width) => padCell cell width
  return "|".intercalate pieces ++ "\n"

def separator (widths : List Nat) : String :=
  "+".intercalate (widths.map fun width => String.ofList (List.replicate (width + 2) '-')) ++ "\n"

/-- The lines of a grid whose columns have the given widths. -/
def lines (widths : List Nat) (headings : List String) (rows : List (List String)) :
    Except GridFault String := do
  let first ← line widths headings
  let others ← rows.mapM (line widths)
  return first ++ separator widths ++ String.join others

/-- A grid of texts. -/
def ofTexts (headings : List String) (rows : List (List String)) : Except GridFault String :=
  lines (widths headings rows) headings rows

end Grid

/-- The grid of a result. A width beyond the greatest one shows in the line of the
headings, so where there is no grid nothing of it has been written. -/
def QueryResult.grid (r : QueryResult) : Except GridFault String :=
  Grid.ofTexts r.columns (r.rows.map (List.map Grid.cellText))

end PocketSql
