import Spreadsheet.Decimal.Layout
import Spreadsheet.Decimal.Numeral
import Spreadsheet.Reference.Column
import Spreadsheet.Reference.SheetName

/-!
# References to one cell

An `Address` names a cell by row and column, counted from zero, and keeps how it was written: the
`$` marks and the sheet. `Address.read` and `Address.write` go between addresses and text such as
`$B$2` or `'Q1 ''24'!C3`; a written row counts from one.
-/

namespace Spreadsheet

open Text (isAsciiLetter isAsciiDigit)

/-- Rows of a sheet that a reference can reach. -/
def maxRows : Nat := 1048576

/-- Columns of a sheet that a reference can reach, `ZZZ` the last. -/
def maxColumns : Nat := 18278

/-- A reference to one cell; without a sheet it stays on the sheet it is written on. -/
structure Address where
  row : Nat
  column : Nat
  rowAbsolute : Bool := false
  columnAbsolute : Bool := false
  sheet : Option String := none
deriving DecidableEq, Repr

namespace Address

/-- Splits off a leading `$`. -/
def readMark : List Char → Bool × List Char
  | '$' :: cs => (true, cs)
  | cs => (false, cs)

/-- The address that columns and rows written as `$B$2` stand for; `whole` is the reference that a
message quotes. -/
def readCoordinates (whole : String) (cs : List Char) : Except ReferenceFault Address :=
  let (columnAbsolute, cs) := readMark cs
  let letters := cs.takeWhile isAsciiLetter
  if letters.isEmpty then .error (.defect .columnMissing whole)
  else do
    let column ← columnIndex (String.ofList letters)
    let (rowAbsolute, digits) := readMark (cs.dropWhile isAsciiLetter)
    if digits.isEmpty || !digits.all isAsciiDigit then .error (.defect .rowInvalid whole)
    else
      let row := Decimal.digitsValue digits
      if 2 ^ 32 ≤ row then .error (.defect .rowInvalid whole)
      else if row = 0 ∨ maxRows < row then .error (.defect .rowOutOfBounds whole)
      else if maxColumns < column then .error (.defect .columnOutOfBounds whole)
      else .ok ⟨row - 1, column - 1, rowAbsolute, columnAbsolute, none⟩

/-- Reads a reference to one cell; blanks around it do not count. -/
def read (text : String) : Except ReferenceFault Address :=
  let whole := Text.trim text
  if whole.isEmpty then .error .empty
  else
    match splitSheet whole.toList with
    | .error cause => .error (.defect cause whole)
    | .ok (sheet, coordinates) =>
      (readCoordinates whole coordinates).map fun a => { a with sheet }

/-- Column and row with their marks, without the sheet. -/
def writeCoordinates (a : Address) : String :=
  (if a.columnAbsolute then "$" else "") ++ columnLetters (a.column + 1) ++
    (if a.rowAbsolute then "$" else "") ++ String.ofList (Decimal.digitsOf (a.row + 1))

def write (a : Address) : String :=
  match a.sheet with
  | some name => writeSheetName name ++ "!" ++ a.writeCoordinates
  | none => a.writeCoordinates

end Address

end Spreadsheet
