import Spreadsheet.Value

/-!
# Grids

The shape of a grid is its number of rows and the length of the first one. Places without a value are
empty. `Cells` are the same values for access at many places.
-/

namespace Spreadsheet.Grid

def width (g : Grid) : Nat := (g.head?.map List.length).getD 0

/-- Rows and columns. -/
def dimensions (g : Grid) : Nat × Nat := (g.length, g.width)

/-- The value in a column of a row. -/
def inRow (row : List Value) (column : Nat) : Value := row[column]?.getD .empty

/-- The value at a place. -/
def entry (g : Grid) (row column : Nat) : Value := inRow (g[row]?.getD []) column

/-- The values of a column. -/
def column (g : Grid) (c : Nat) : List Value := g.map fun row => inRow row c

def transpose (g : Grid) : Grid :=
  let rows := g.map List.toArray
  (List.range g.width).map fun c => rows.map fun row => row[c]?.getD .empty

/-- The values of a single row or a single column. -/
def vector? : Grid → Option (List Value)
  | [row] => some row
  | g => if g.all (·.length == 1) then some g.flatten else none

/-! ## Cells -/

abbrev Cells := Array (Array Value)

def cells (g : Grid) : Cells := (g.map List.toArray).toArray

/-- The value at a place, if there is one. -/
def Cells.get? (cells : Cells) (row column : Nat) : Option Value := cells[row]?.bind (·[column]?)

/-- What stands at a place of the cells is what the grid holds there. -/
theorem get?_cells (g : Grid) (row column : Nat) :
    g.cells.get? row column = g[row]?.bind (·[column]?) := by
  simp only [cells, Cells.get?, List.getElem?_toArray, List.getElem?_map]
  cases g[row]? <;> simp

/-- The rows of the transposed grid are the columns. -/
theorem transpose_eq_map_column (g : Grid) : g.transpose = (List.range g.width).map g.column := by
  simp [transpose, column, inRow, Function.comp_def]

end Spreadsheet.Grid
