import Spreadsheet.Reference.Address

/-!
# Rectangles of cells

A `CellRange` keeps its two corners as they were written, in any order; `top`, `bottom`, `left` and
`right` are the sides of the rectangle. An end without a sheet takes the sheet of the start.

* `CellRange.read`, `CellRange.write` : text such as `A1:B10` or `Data!A1:C3`;
* `CellCursor` : a position within a rectangle that is walked row by row; `remaining` counts the
  positions still to come, which are `toList`;
* `CellRange.clip` : the part of a range within an extent.
-/

namespace Spreadsheet

/-- Two opposite corners of a rectangle. -/
structure CellRange where
  start : Address
  finish : Address
deriving DecidableEq, Repr

namespace CellRange

/-- The range between two corners; an unqualified end lies on the sheet of the start. -/
def ofCorners (start finish : Address) : CellRange :=
  ⟨start, { finish with sheet := finish.sheet <|> start.sheet }⟩

def ofIndices (startRow startColumn endRow endColumn : Nat) : CellRange :=
  ofCorners { row := startRow, column := startColumn } { row := endRow, column := endColumn }

def single (a : Address) : CellRange := ⟨a, a⟩

def sheet (r : CellRange) : Option String := r.start.sheet

def top (r : CellRange) : Nat := min r.start.row r.finish.row

def bottom (r : CellRange) : Nat := max r.start.row r.finish.row

def left (r : CellRange) : Nat := min r.start.column r.finish.column

def right (r : CellRange) : Nat := max r.start.column r.finish.column

theorem top_le_bottom (r : CellRange) : r.top ≤ r.bottom := by
  simp only [top, bottom]
  omega

theorem left_le_right (r : CellRange) : r.left ≤ r.right := by
  simp only [left, right]
  omega

def rowCount (r : CellRange) : Nat := r.bottom - r.top + 1

def columnCount (r : CellRange) : Nat := r.right - r.left + 1

def cellCount (r : CellRange) : Nat := r.rowCount * r.columnCount

def contains (r : CellRange) (row column : Nat) : Bool :=
  r.top ≤ row && row ≤ r.bottom && r.left ≤ column && column ≤ r.right

/-! ## Reading and writing -/

/-- What stands before and after the last colon. -/
def splitAtLastColon (cs : List Char) : Option (List Char × List Char) :=
  let back := cs.reverse
  match back.dropWhile (· != ':') with
  | _ :: before => some (before.reverse, (back.takeWhile (· != ':')).reverse)
  | [] => none

/-- Reads two corners around the last colon. A colon inside a quoted sheet name, which an odd number
of quotes precedes, divides nothing, and a lone cell is a range of one cell. -/
def read (text : String) : Except ReferenceFault CellRange :=
  let whole := Text.trim text
  match splitAtLastColon whole.toList with
  | some (before, after) =>
    if before.count '\'' % 2 = 1 then (Address.read whole).map single
    else do
      let start ← Address.read (String.ofList before)
      let finish ← Address.read (String.ofList after)
      return ofCorners start finish
  | none => (Address.read whole).map single

/-- The end repeats its sheet only where it differs from that of the start. -/
def write (r : CellRange) : String :=
  if r.start = r.finish then r.start.write
  else
    let finish := if r.finish.sheet = r.start.sheet then { r.finish with sheet := none } else r.finish
    r.start.write ++ ":" ++ finish.write

end CellRange

/-! ## Walking a rectangle -/

/-- A position of a rectangle walked row by row; past `bottom` the walk is over. -/
structure CellCursor where
  bottom : Nat
  left : Nat
  right : Nat
  row : Nat
  column : Nat

namespace CellCursor

def next? (c : CellCursor) : Option ((Nat × Nat) × CellCursor) :=
  if c.bottom < c.row then none
  else
    let after := if c.column < c.right then { c with column := c.column + 1 }
      else { c with column := c.left, row := c.row + 1 }
    some ((c.row, c.column), after)

/-- Positions still to come. -/
def remaining (c : CellCursor) : Nat :=
  if c.bottom < c.row then 0
  else (c.bottom - c.row) * (c.right - c.left + 1) + (c.right - c.column + 1)

/-- At most `n` positions, and the cursor after them. -/
def take (c : CellCursor) : Nat → List (Nat × Nat) × CellCursor
  | 0 => ([], c)
  | n + 1 =>
    match c.next? with
    | none => ([], c)
    | some (position, c) =>
      let (positions, c) := c.take n
      (position :: positions, c)

def toList (c : CellCursor) : List (Nat × Nat) := (c.take c.remaining).1

end CellCursor

/-- A cursor at the top left corner. -/
def CellRange.cells (r : CellRange) : CellCursor := ⟨r.bottom, r.left, r.right, r.top, r.left⟩

/-- How many rows and columns of a sheet hold data. -/
structure Extent where
  rows : Nat
  columns : Nat
deriving DecidableEq, Repr

/-- Whether a position lies within the extent. -/
def Extent.holds (e : Extent) (row column : Nat) : Bool := row < e.rows && column < e.columns

/-- The part of a range within an extent, without marks, if there is any. -/
def CellRange.clip (r : CellRange) (e : Extent) : Option CellRange :=
  if e.rows = 0 ∨ e.columns = 0 then none
  else
    let bottom := min r.bottom (e.rows - 1)
    let right := min r.right (e.columns - 1)
    if bottom < r.top ∨ right < r.left then none
    else some ⟨{ row := r.top, column := r.left, sheet := r.sheet },
      { row := bottom, column := right, sheet := r.sheet }⟩

end Spreadsheet
