import Spreadsheet.Calculation.Result
import Spreadsheet.Evaluation.Evaluate
import Spreadsheet.Sheet
import Std.Data.TreeMap
import Std.Data.TreeSet

/-!
# How far a calculation has come

* `Position` : a cell by sheet, row and column;
* `Setting` : what a calculation works on;
* `Progress` : the formulas that have a value and what they read, those that are started, those that
  were found on a cycle, what is to be reported, and the sheets that are done or in the middle of it.
-/

namespace Spreadsheet

structure Position where
  sheet : Nat
  row : Nat
  column : Nat
deriving DecidableEq, Repr

namespace Position

def label (p : Position) : String := cellLabel p.row p.column

/-- Sheet by sheet and row by row. -/
instance : Ord Position where
  compare := compareLex (compareOn sheet) (compareLex (compareOn row) (compareOn column))

instance : Std.TransOrd Position := inferInstanceAs (Std.TransCmp (compareLex _ _))

instance : Std.LawfulEqOrd Position where
  eq_of_compare {p q} h := by
    cases p
    cases q
    have h : (compare _ _).then ((compare _ _).then (compare _ _)) = .eq := h
    simp only [Ordering.then_eq_eq, Nat.compare_eq_eq] at h
    rw [h.1, h.2.1, h.2.2]

end Position

/-- Whether two names are of the same sheet. -/
def sameSheet (a b : String) : Bool := a == b || Text.equalIgnoringCase a b

/-- Row and column of every formula, row by row. -/
def Sheet.formulaPlaces (s : Sheet) : List (Nat × Nat) :=
  (List.range s.rowCount).flatMap fun row =>
    let cells := s.rows[row]?.getD #[]
    (List.range cells.size).filterMap fun column =>
      if (cells[column]?.getD {}).isFormula then some (row, column) else none

/-! ## Setting -/

/-- The sheets of a calculation and what formulas are evaluated with. -/
structure Setting where
  sheets : Array Sheet
  environment : Environment
  /-- Twice the number of all formulas: so many attempts at them are enough. -/
  attemptLimit : Nat

namespace Setting

def ofSheets (environment : Environment) (sheets : List Sheet) : Setting where
  sheets := sheets.toArray
  environment := environment
  attemptLimit := 2 * (sheets.flatMap Sheet.formulaPlaces).length

def options (w : Setting) : Options := w.environment.surroundings.options

def sheet (w : Setting) (i : Nat) : Sheet := w.sheets[i]?.getD { name := "" }

/-- The first sheet of a name. -/
def sheetIndex? (w : Setting) (name : String) : Option Nat :=
  w.sheets.findIdx? fun s => sameSheet s.name name

def cell? (w : Setting) (p : Position) : Option Cell := (w.sheet p.sheet).cell? p.row p.column

def formula? (w : Setting) (p : Position) : Option String := (w.cell? p).bind Cell.formula?

/-- What a cell without a value of its own counts as. -/
def fallback (w : Setting) (fault : FormulaError) : Value :=
  if w.options.strict then .error fault.cellError else .number (0.0 : Float)

/-- Whether a reference that may name a sheet stays on sheet `own`. -/
def isOwn (w : Setting) (own : Nat) : Option String → Bool
  | none => true
  | some name => sameSheet name (w.sheet own).name

/-- The sheet that a reference on sheet `own` leads to, if it leads to one. -/
def sheetFor? (w : Setting) (own : Nat) (sheet : Option String) : Option Nat :=
  if w.isOwn own sheet then some own
  else if w.options.crossSheetReferences then sheet.bind w.sheetIndex?
  else none

/-- How far the data of a sheet reaches, seen from sheet `own`. -/
def extent? (w : Setting) (own : Nat) (sheet : Option String) : Option Extent :=
  (w.sheetFor? own sheet).map fun i => (w.sheet i).extent

end Setting

/-! ## Progress -/

structure Progress where
  /-- Values of the formulas that are done. -/
  values : Std.TreeMap Position Value := {}
  /-- Formulas that are started and not done; to read one closes a cycle. -/
  started : Std.TreeSet Position := {}
  /-- Formulas that were read while they were started. -/
  circular : Std.TreeSet Position := {}
  /-- What the formulas that are done have read, each in the evaluation that gave its value. -/
  reads : Std.TreeMap Position (List CellRead) := {}
  /-- Formulas that are done with their sheets, the last one first. -/
  records : List (Nat × FormulaRecord) := []
  /-- How many formulas of each sheet were evaluated to the end. -/
  evaluated : Std.TreeMap Nat Nat := {}
  /-- Errors with their sheets, the last one first. -/
  errors : List (Nat × CalculationError) := []
  /-- Sheets in the middle of their calculation, the innermost first. -/
  active : List Nat := []
  finished : Std.TreeMap Nat CalculatedSheet := {}
  /-- Sheets calculated because a formula on another one read them, each behind that formula. -/
  opened : List (Position × Nat) := []
  /-- Evaluations begun, those given up included. -/
  attempts : Nat := 0

namespace Progress

/-- The formula of a cell that still has to be evaluated. -/
def pending? (s : Progress) (w : Setting) (p : Position) : Option String :=
  if s.values.contains p then none else w.formula? p

/-- The first formula of a stack that still has to be evaluated, and what lies beneath it. -/
def nextPending? (s : Progress) (w : Setting) :
    List Position → Option (Position × String × List Position)
  | [] => none
  | p :: rest =>
    match s.pending? w p with
    | some formula => some (p, formula, rest)
    | none => nextPending? s w rest

/-- How many sheets were calculated because a formula on another one read them. -/
def otherSheets (s : Progress) : Nat := s.opened.length

def begin (s : Progress) (p : Position) : Progress :=
  { s with started := s.started.insert p, attempts := s.attempts + 1 }

/-- How many formulas of a sheet were evaluated to the end. -/
def evaluatedOn (s : Progress) (i : Nat) : Nat := s.evaluated[i]?.getD 0

/-- Counts a formula that was evaluated to the end. -/
def countEvaluated (s : Progress) (i : Nat) : Progress :=
  { s with evaluated := s.evaluated.insert i (s.evaluatedOn i + 1) }

def addError (s : Progress) (p : Position) (formula : String) (fault : FormulaError) : Progress :=
  { s with errors := (p.sheet, ⟨p.row, p.column, formula, fault⟩) :: s.errors }

/-- Notes that a started formula was read, and reports it the first time. -/
def closeCycle (s : Progress) (p : Position) (formula : String) (fault : FormulaError) : Progress :=
  if s.circular.contains p then s
  else { s.addError p formula fault with circular := s.circular.insert p }

/-- Gives a formula its value, which it has from what it read. -/
def complete (s : Progress) (p : Position) (formula : String) (v : Value) (reads : List CellRead) :
    Progress :=
  { s with
    started := s.started.erase p
    values := s.values.insert p v
    reads := s.reads.insert p reads
    records := (p.sheet, ⟨p.row, p.column, formula, v⟩) :: s.records }

/-- Formulas of a range on sheet `own` that have no value and are not started, row by row. -/
def unstartedIn (s : Progress) (w : Setting) (own : Nat) (r : CellRange) : List Position :=
  let sheet := w.sheet own
  (List.range' r.top (min (r.bottom + 1) sheet.rowCount - r.top)).flatMap fun row =>
    let cells := sheet.rows[row]?.getD #[]
    (List.range' r.left (min (r.right + 1) cells.size - r.left)).filterMap fun column =>
      let p : Position := ⟨own, row, column⟩
      if (cells[column]?.getD {}).isFormula && !s.values.contains p && !s.started.contains p then
        some p
      else none

end Progress

end Spreadsheet
