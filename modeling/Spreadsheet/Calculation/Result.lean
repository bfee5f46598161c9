import Spreadsheet.Formula.Error
import Spreadsheet.Reference.Address

/-!
# The result of a calculation

* `CalculatedSheet` : the values of a sheet in the shape of its rows, the formulas and errors in the
  order in which they were met, and counts of them;
* `CalculatedSheet.value?`, `CalculatedSheet.display?` : by address;
* `CalculationError.kind`, `CalculationError.display` : what went wrong with a cell.
-/

namespace Spreadsheet

structure CalculatedCell where
  value : Value := .empty
  /-- What the format code of the cell makes of a number. -/
  formatted : Option String := none

namespace CalculatedCell

def display (c : CalculatedCell) : String := c.formatted.getD c.value.display

end CalculatedCell

/-- The reference to a cell by row and column. -/
def cellLabel (row column : Nat) : String := Address.write { row, column }

/-- A formula that was evaluated. -/
structure FormulaRecord where
  row : Nat
  column : Nat
  formula : String
  result : Value

inductive ErrorKind where
  | circular
  | reference
  | formula
  | unknown
deriving DecidableEq, Repr

def ErrorKind.ofFault : FormulaError → ErrorKind
  | .circular _ => circular
  | .invalidReference _ => reference
  | .unknownName _ => unknown
  | _ => formula

/-- A formula without a value. -/
structure CalculationError where
  row : Nat
  column : Nat
  formula : String
  fault : FormulaError

namespace CalculationError

def label (e : CalculationError) : String := cellLabel e.row e.column

def kind (e : CalculationError) : ErrorKind := .ofFault e.fault

def message (e : CalculationError) : String := e.fault.message

def display (e : CalculationError) : String := e.label ++ ": " ++ e.message

end CalculationError

structure Statistics where
  /-- Formulas that the sheet holds. -/
  formulaCount : Nat := 0
  /-- Formulas that were evaluated. -/
  evaluated : Nat := 0
  circular : Nat := 0
  errors : Nat := 0
  /-- Other sheets calculated as a whole because a formula read them. -/
  otherSheets : Nat := 0
deriving DecidableEq, Repr

structure CalculatedSheet where
  name : String := ""
  rows : Array (Array CalculatedCell) := #[]
  formulas : List FormulaRecord := []
  errors : List CalculationError := []
  statistics : Statistics := {}

namespace CalculatedSheet

def cell? (s : CalculatedSheet) (row column : Nat) : Option CalculatedCell :=
  s.rows[row]?.bind (·[column]?)

/-- The cell of a written address, whatever sheet it names. -/
def cellAt? (s : CalculatedSheet) (address : String) : Option CalculatedCell :=
  match Address.read address with
  | .ok a => s.cell? a.row a.column
  | .error _ => none

def value? (s : CalculatedSheet) (address : String) : Option Value :=
  (s.cellAt? address).map (·.value)

def display? (s : CalculatedSheet) (address : String) : Option String :=
  (s.cellAt? address).map CalculatedCell.display

/-- All cells as they are shown. -/
def texts (s : CalculatedSheet) : List (List String) :=
  s.rows.toList.map fun row => row.toList.map CalculatedCell.display

end CalculatedSheet

end Spreadsheet
