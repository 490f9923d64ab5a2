import Concordance.Terminal.Escape
import Concordance.Text.Columns

/-!
# Tables

A table has a header and rows of cells, with a border drawn around them.  A cell has as many lines
as its text, and a row is as tall as the tallest of its cells.  A column is as wide as the widest
line in it, with a space on either side.
-/

namespace Concordance

/-- How a table is drawn: what stands between the cells of a row, and whether rows are parted by
lines. -/
structure TableStyle where
  divider : String
  partsRows : Bool

/-- A table; `alignsRight` says for each column on which side its cells stand. -/
structure Table where
  style : TableStyle
  alignsRight : List Bool
  header : List String
  rows : List (List String)

namespace Table

/-- Space of the given width. -/
def space (width : Nat) : String :=
  String.ofList (List.replicate width ' ')

def cellLines (content : String) : List String :=
  Escape.balanced [] ((content.toList.splitOn '\n').map String.ofList)

/-- The width of a line as it shows. -/
def lineWidth (line : String) : Nat :=
  Text.columns (String.ofList (Escape.visible line.toList))

/-- The width of a cell, which is that of its widest line. -/
def cellWidth (content : String) : Nat :=
  (cellLines content).foldl (fun width line => max width (lineWidth line)) 0

def widths (table : Table) : List Nat :=
  table.rows.foldl (fun widths row => List.zipWith max widths (row.map cellWidth))
    (table.header.map cellWidth)

/-- A line across the table. -/
def rule (widths : List Nat) (left line crossing right : String) : String :=
  let stretch (width : Nat) : String := String.join (List.replicate (width + 2) line)
  left ++ crossing.intercalate (widths.map stretch) ++ right

/-- A line of a cell of the given width. -/
def cell (width : Nat) (alignsRight : Bool) (line : String) : String :=
  let fill := space (width - lineWidth line)
  if alignsRight then " " ++ fill ++ line ++ " " else " " ++ line ++ fill ++ " "

/-- The lines of a row of cells. -/
def row (table : Table) (widths : List Nat) (cells : List String) : List String :=
  let columns := cells.map cellLines
  let height := columns.foldl (fun height lines => max height lines.length) 1
  (List.range height).map fun index =>
    let placed := List.zipWith
      (fun (width, alignsRight) (lines : List String) =>
        cell width alignsRight (lines[index]?.getD ""))
      (widths.zip table.alignsRight) columns
    "│" ++ table.style.divider.intercalate placed ++ "│"

def lines (table : Table) : List String :=
  let widths := table.widths
  let rows := table.rows.map (table.row widths)
  let body :=
    if table.style.partsRows then rows.intersperse [rule widths "├" "─" "┼" "┤"] else rows
  [rule widths "╭" "─" "┬" "╮"] ++ table.row widths table.header ++
    [rule widths "╞" "═" "╪" "╡"] ++ body.flatten ++ [rule widths "╰" "─" "┴" "╯"]

def render (table : Table) : String :=
  "\n".intercalate table.lines

end Table

end Concordance
