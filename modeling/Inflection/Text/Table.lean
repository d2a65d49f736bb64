import Inflection.Text.Columns

/-!
# Tables

A table has a border around it and a double rule under its header.  Every column is as wide as
its widest cell, cells have a space on both sides, and a space stands between two columns.
-/

namespace Inflection.Text

/-- A header and rows of as many cells. -/
structure Table where
  header : List String
  rows : List (List String)
deriving DecidableEq, Repr

namespace Table

/-- Widens columns to hold the cells of a row. -/
def widen : List Nat → List String → List Nat
  | w :: ws, cell :: cells => max w (width cell) :: widen ws cells
  | ws, _ => ws

/-- The widths of the columns. -/
def widths (t : Table) : List Nat := t.rows.foldl widen (t.header.map width)

/-- A cell with a space on both sides, filled up to the width of its column. -/
def renderCell (column : Nat) (cell : String) : String :=
  " " ++ cell ++ String.ofList (List.replicate (column - width cell) ' ') ++ " "

/-- A row between the borders. -/
def renderRow (columns : List Nat) (cells : List String) : String :=
  "│" ++ " ".intercalate (List.zipWith renderCell columns cells) ++ "│"

/-- A rule between two ends. -/
def renderRule (columns : List Nat) (left line right : Char) : String :=
  let inner := columns.foldr (fun width n => width + 2 + n) (columns.length - 1)
  String.ofList (left :: (List.replicate inner line ++ [right]))

/-- The table as lines, without a line break at its end. -/
def render (t : Table) : String :=
  let columns := t.widths
  "\n".intercalate
    ([renderRule columns '┌' '─' '┐', renderRow columns t.header,
      renderRule columns '╞' '═' '╡'] ++ t.rows.map (renderRow columns) ++
      [renderRule columns '└' '─' '┘'])

end Table

end Inflection.Text
