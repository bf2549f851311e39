import LeadTime.Text.Width

/-! Tables of text between drawn borders. A column is as wide as its widest line, and a line break in a cell starts
a new line of the row. -/
namespace LeadTime

structure Table where
  header : List String
  rows : List (List String)
  deriving DecidableEq, Repr

namespace Table

/-- What a horizontal border is drawn with: its left end, its line, where columns meet, and its right end. -/
structure Border where
  left : String
  line : Char
  middle : String
  right : String

def top : Border := ⟨"╭", '─', "┬", "╮"⟩

def double : Border := ⟨"╞", '═', "╪", "╡"⟩

def dashed : Border := ⟨"├", '╌', "┼", "┤"⟩

def bottom : Border := ⟨"╰", '─', "┴", "╯"⟩

def cellLines (cell : String) : List String := cell.splitOn "\n"

def cellWidth (cell : String) : Nat := ((cellLines cell).map Text.width).foldl max 0

def widths (t : Table) : List Nat :=
  t.rows.foldl (fun widths row => widths.zipWith max (row.map cellWidth)) (t.header.map cellWidth)

def blanks (n : Nat) : String := String.ofList (List.replicate n ' ')

def padded (width : Nat) (text : String) : String := text ++ blanks (width - Text.width text)

def border (b : Border) (widths : List Nat) : String :=
  b.left ++ b.middle.intercalate (widths.map fun w => String.ofList (List.replicate (w + 2) b.line)) ++ b.right

def rowLine (widths : List Nat) (cells : List String) : String :=
  "│ " ++ " ┆ ".intercalate (widths.zipWith padded cells) ++ " │"

/-- A row in as many lines as its tallest cell has. -/
def rowLines (widths : List Nat) (row : List String) : List String :=
  let cells := row.map cellLines
  let height := (cells.map List.length).foldl max 0
  (List.range height).map fun i => rowLine widths (cells.map fun lines => lines.getD i "")

def lines (t : Table) : List String :=
  let rows := t.rows.map (rowLines t.widths)
  [border top t.widths] ++ rowLines t.widths t.header ++ [border double t.widths] ++
    [border dashed t.widths].intercalate rows ++ [border bottom t.widths]

def text (t : Table) : String := "\n".intercalate t.lines

end Table
end LeadTime
