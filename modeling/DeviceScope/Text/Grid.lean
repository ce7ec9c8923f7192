import DeviceScope.Text.Pieces
import DeviceScope.Text.Width

/-!
# Grids

A grid shows rows of texts in columns: rounded borders around it, a line between any two columns,
and a rule under the first row, which holds the headings. A column is as wide as its widest text,
with a blank on either side. A text of several lines makes its row as many lines high; the other
texts of the row stand in the topmost of them.
-/

namespace DeviceScope.Grid

/-- The lines of a cell. -/
abbrev Cell := List (List Char)

def Cell.ofText (text : String) : Cell := Pieces.ofText '\n' text.toList

/-- The number of columns on the terminal that a cell takes. -/
def Cell.width (cell : Cell) : Nat := (cell.map Width.ofText).foldl max 0

/-- The greater numbers of two lists, place by place. -/
def widen : List Nat → List Nat → List Nat
  | [], widths => widths
  | widths, [] => widths
  | a :: as, b :: bs => max a b :: widen as bs

def widths (rows : List (List Cell)) : List Nat :=
  (rows.map (·.map Cell.width)).foldl widen []

/-- A line with blanks behind it up to a width. -/
def padded (width : Nat) (line : List Char) : List Char :=
  line ++ List.replicate (width - Width.ofText line) ' '

/-- A rule across all columns. -/
def rule (left middle right : Char) (widths : List Nat) : List Char :=
  left :: (Pieces.join middle (widths.map fun width => List.replicate (width + 2) '─') ++ [right])

/-- One line of a row. -/
def line (widths : List Nat) (row : List Cell) (index : Nat) : List Char :=
  '│' :: (widths.zip row).flatMap fun (width, cell) =>
    ' ' :: (padded width (cell.getD index []) ++ [' ', '│'])

def rowLines (widths : List Nat) (row : List Cell) : List (List Char) :=
  (List.range ((row.map List.length).foldl max 0)).map (line widths row)

def lines (headings : List Cell) (rows : List (List Cell)) : List (List Char) :=
  let widths := widths (headings :: rows)
  rule '╭' '┬' '╮' widths :: rowLines widths headings ++
    rule '├' '┼' '┤' widths :: rows.flatMap (rowLines widths) ++ [rule '╰' '┴' '╯' widths]

/-- A grid as a text, without a line break behind it. -/
def draw (headings : List String) (rows : List (List String)) : String :=
  String.ofList (Pieces.join '\n'
    (lines (headings.map Cell.ofText) (rows.map (·.map Cell.ofText))))

end DeviceScope.Grid
