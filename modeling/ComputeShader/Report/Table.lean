import ComputeShader.Text.Width

/-! # Tables

Tables with a frame around every cell. A column is as wide as its widest cell, with a blank on both
sides; cells are aligned to the left, and the header is centred where asked for.
-/

namespace ComputeShader

structure Table where
  header : List String
  rows : List (List String)
  isHeaderCentred : Bool
  deriving DecidableEq, Repr, Inhabited

namespace Table

def blanks (count : Nat) : String := String.ofList (List.replicate count ' ')

/-- The lines of a cell. -/
def cellLines (cell : String) : List String := cell.splitOn "\n"

/-- The columns that a cell takes. -/
def cellWidth (cell : String) : Nat := ((cellLines cell).map Text.width).foldl max 0

/-- A line with blanks after it up to a width. -/
def alignLeft (width : Nat) (line : String) : String :=
  line ++ blanks (width - Text.width line)

/-- A line with blanks around it up to a width; an odd one goes to the right. -/
def centre (width : Nat) (line : String) : String :=
  let free := width - Text.width line
  blanks (free / 2) ++ line ++ blanks (free - free / 2)

/-- The widths of the columns. -/
def columnWidths (t : Table) : List Nat :=
  t.rows.foldl (fun widths row => (widths.zip (row.map cellWidth)).map fun (a, b) => max a b)
    (t.header.map cellWidth)

/-- A horizontal rule with given ends and crossings. -/
def rule (left cross right : String) (widths : List Nat) : String :=
  left ++ cross.intercalate (widths.map fun w => String.ofList (List.replicate (w + 2) '─')) ++ right

/-- The lines of a row, which is as high as its highest cell. -/
def rowLines (align : Nat → String → String) (widths : List Nat) (row : List String) :
    List String :=
  let cells := row.map cellLines
  let height := (cells.map List.length).foldl max 0
  (List.range height).map fun i =>
    "│" ++ "│".intercalate ((widths.zip cells).map fun (w, lines) =>
      " " ++ align w (lines.getD i "") ++ " ") ++ "│"

/-- The lines of a table. -/
def lines (t : Table) : List String :=
  let widths := t.columnWidths
  let header := rowLines (if t.isHeaderCentred then centre else alignLeft) widths t.header
  let rows := t.rows.map fun row => rule "├" "┼" "┤" widths :: rowLines alignLeft widths row
  rule "┌" "┬" "┐" widths :: header ++ rows.flatten ++ [rule "└" "┴" "┘" widths]

def text (t : Table) : String := "\n".intercalate t.lines

/-- The number of rows that are shown of a long table. -/
def rowLimit : Nat := 10

/-- A table with its first rows only, and below it the number of those left out. -/
def textWithLimit (t : Table) : String :=
  let shown := { t with rows := t.rows.take rowLimit }
  if t.rows.length ≤ rowLimit then shown.text
  else
    let note := "... " ++ toString (t.rows.length - rowLimit) ++ " more differences"
    let width := (rule "└" "┴" "┘" shown.columnWidths).length
    shown.text ++ "\n" ++ blanks (width - note.length) ++ note

end Table

end ComputeShader
