import Spreadsheet.Calculation.Progress
import Spreadsheet.Format.Code
import Spreadsheet.Function.Builtin

/-!
# Calculating sheets

Formulas are evaluated on demand. An evaluation that reads a formula without a value is given up; the
formula waits on a work stack beneath what it read, and is tried again when that is done, so long
chains of formulas cost no depth. To read a formula that is started but not done closes a cycle: the
formula counts as its fallback for all who read it.

The first reference to another sheet calculates that sheet as a whole. A sheet in the middle of its
calculation is read as far as it has come. Such reads nest at most `maxSheetNesting` deep, and
everything here is given the reader of the next level.

* `attempt` : one evaluation of a formula;
* `settle` : works off a stack of formulas;
* `foreignValue` : a read from another sheet;
* `calculateSheet`, `calculateWorkbook` : results.
-/

namespace Spreadsheet

/-- Reads of other sheets within reads of other sheets. -/
def maxSheetNesting : Nat := 64

namespace Calculation

abbrev Step := StateM Progress

/-- An evaluation that may be given up because formulas have no value yet. -/
abbrev Attempt := ExceptT (List Position) Step

/-- Reads a cell of another sheet, given by name, row and column, for the formula of a position. -/
abbrev ForeignReader := Position → String → Nat → Nat → Step (Except FormulaError Value)

/-! ## One evaluation -/

/-- The read of a formula that is started. -/
def readStarted (w : Setting) (p : Position) (formula : String) : Step Value := do
  let fault := .circular ((w.sheet p.sheet).name ++ "!" ++ p.label)
  modify fun s => s.closeCycle p formula fault
  return w.fallback fault

/-- A read from the sheet that the formula is on. -/
def readOwn (w : Setting) (p : Position) : Attempt Value :=
  match w.cell? p with
  | none => return .empty
  | some c => match c.formula? with
    | none => return c.content.value
    | some formula => do
      let s ← get
      match s.values[p]? with
      | some v => return v
      | none => if s.started.contains p then readStarted w p formula else throw [p]

/-- The cells as the formula of position `p` sees them. All formulas of a range on its own sheet that are
not started are waited for at once. -/
def source (w : Setting) (foreign : ForeignReader) (p : Position) : CellSource Attempt where
  cell a :=
    match a.sheet with
    | some name =>
      if sameSheet name (w.sheet p.sheet).name then .ok <$> readOwn w ⟨p.sheet, a.row, a.column⟩
      else ExceptT.lift (foreign p name a.row a.column)
    | none => .ok <$> readOwn w ⟨p.sheet, a.row, a.column⟩
  extent := w.extent? p.sheet
  announce r := do
    if w.isOwn p.sheet r.sheet then
      let missing := (← get).unstartedIn w p.sheet r
      if missing.isEmpty then return else throw missing

/-- Puts an outcome into the cell. A formula on a cycle keeps its fallback. -/
def finish (w : Setting) (p : Position) (formula : String) (outcome : Except FormulaError Value)
    (reads : List CellRead) (s : Progress) : Progress :=
  let s := s.countEvaluated p.sheet
  let s := match outcome with
    | .ok _ => s
    | .error fault => s.addError p formula fault
  let v := match outcome with
    | .ok v => v
    | .error fault => w.fallback fault
  let v := if s.circular.contains p then w.fallback (.circular p.label) else v
  s.complete p formula v reads

/-- Evaluates a formula. It is given up with the formulas that it has to wait for, or done. -/
def attempt (w : Setting) (foreign : ForeignReader) (p : Position) (formula : String) :
    Step (List Position) := do
  modify fun s => s.begin p
  let reading := (evaluateFormula w.environment formula).run
  match ← ((reading.run (source w foreign p).noting).run []).run with
  | .error missing => return missing
  | .ok (outcome, reads) =>
    modify (finish w p formula outcome reads)
    return []

/-! ## Work stack -/

/-- Works off a stack of cells in at most so many attempts. -/
def settle (w : Setting) (foreign : ForeignReader) :
    (attempts : Nat) → (stack : List Position) → Step Unit
  | 0, _ => return
  | attempts + 1, stack => do
    match (← get).nextPending? w stack with
    | none => return
    | some (p, formula, rest) =>
      match ← attempt w foreign p formula with
      | [] => settle w foreign attempts rest
      | missing => settle w foreign attempts (missing.reverse ++ p :: rest)

/-- The value of a cell, with everything that it needs. -/
def resolve (w : Setting) (foreign : ForeignReader) (p : Position) : Step Value :=
  match w.cell? p with
  | none => return .empty
  | some c => match c.formula? with
    | none => return c.content.value
    | some formula => do
      let s ← get
      if !s.values.contains p && s.started.contains p then readStarted w p formula
      else
        settle w foreign w.attemptLimit [p]
        return (← get).values[p]?.getD .empty

/-! ## Sheets -/

/-- A cell with its value and what its format makes of a number. -/
def calculatedCell (c : Cell) (v : Value) : CalculatedCell where
  value := v
  formatted := match v, c.format with
    | .number x, some code => some (Format.formatNumber x.float code)
    | _, _ => none

/-- The value of a cell once its sheet is calculated. -/
def valueOf (s : Progress) (p : Position) (c : Cell) : Value :=
  if c.isFormula then s.values[p]?.getD .empty else c.content.value

/-- The entries of one sheet in the order in which they were made. -/
def entriesOf {α : Type} (i : Nat) (log : List (Nat × α)) : List α :=
  ((log.filter fun entry => entry.1 == i).map (·.2)).reverse

/-- The result for a sheet of which all formulas are done. -/
def resultOf (w : Setting) (i : Nat) (otherSheets : Nat) (s : Progress) : CalculatedSheet :=
  let sheet := w.sheet i
  let formulas := entriesOf i s.records
  let errors := entriesOf i s.errors
  { name := sheet.name
    rows := sheet.rows.mapIdx fun row cells => cells.mapIdx fun column c =>
      calculatedCell c (valueOf s ⟨i, row, column⟩ c)
    formulas
    errors
    statistics :=
      { formulaCount := sheet.formulaPlaces.length
        evaluated := s.evaluatedOn i
        circular := errors.countP fun e => e.kind = .circular
        errors := errors.length
        otherSheets } }

/-- Resolves cells one after the other. -/
def resolveAll (w : Setting) (foreign : ForeignReader) (i : Nat) : List (Nat × Nat) → Step Unit
  | [] => return
  | (row, column) :: rest => do
    discard (resolve w foreign ⟨i, row, column⟩)
    resolveAll w foreign i rest

/-- The result for a sheet, which is calculated only once. -/
def sheetResult (w : Setting) (foreign : ForeignReader) (i : Nat) : Step CalculatedSheet := do
  match (← get).finished[i]? with
  | some result => return result
  | none =>
    let before := (← get).otherSheets
    modify fun s => { s with active := i :: s.active }
    resolveAll w foreign i (w.sheet i).formulaPlaces
    let s ← get
    let result := resultOf w i (s.otherSheets - before) s
    set { s with active := s.active.erase i, finished := s.finished.insert i result }
    return result

/-- The value of a cell of sheet `i`, which is calculated unless it is done or being calculated. -/
def sheetValue (w : Setting) (foreign : ForeignReader) (reader : Position) (i row column : Nat) :
    Step Value := do
  let s ← get
  if s.active.contains i then resolve w foreign ⟨i, row, column⟩
  else
    if !s.finished.contains i then modify fun s => { s with opened := (reader, i) :: s.opened }
    let result ← sheetResult w foreign i
    return ((result.cell? row column).map (·.value)).getD .empty

/-- The sheet that a name leads to from another one. -/
def foreignSheet (w : Setting) (name : String) : Except FormulaError Nat :=
  if !w.options.crossSheetReferences then .error (.invalidReference (.sheetsDisabled name))
  else match w.sheetIndex? name with
    | none => .error (.invalidReference (.sheetUnknown name))
    | some i => .ok i

/-- A read from another sheet, with so many levels of them left. -/
def foreignValue (w : Setting) : (levels : Nat) → ForeignReader
  | 0, _, name, _, _ => return match foreignSheet w name with
    | .error fault => .error fault
    | .ok _ => .error (.sheetsNestTooDeep maxSheetNesting)
  | levels + 1, reader, name, row, column =>
    match foreignSheet w name with
    | .error fault => return .error fault
    | .ok i => .ok <$> sheetValue w (foreignValue w levels) reader i row column

/-- The result for a sheet at the outermost level. -/
def outermost (w : Setting) (i : Nat) : Step CalculatedSheet :=
  sheetResult w (foreignValue w maxSheetNesting) i

end Calculation

/-! ## Results -/

/-- Puts a sheet in place of the first one with its name, or at the end, and gives its place. -/
def placeSheet (s : Sheet) (sheets : List Sheet) : List Sheet × Nat :=
  match sheets.findIdx? fun t => sameSheet t.name s.name with
  | some i => (sheets.set i s, i)
  | none => (sheets ++ [s], sheets.length)

/-- The setting for sheets whose dates are still text. -/
def Environment.setting (env : Environment) (sheets : List Sheet) : Setting :=
  .ofSheets env (sheets.map (Sheet.withDates env.surroundings.options.dateOrder))

/-- Calculates a sheet; `others` supplies the sheets that its formulas may read. -/
def calculateSheet (env : Environment) (sheet : Sheet) (others : List Sheet) : CalculatedSheet :=
  let (sheets, i) := placeSheet sheet others
  ((Calculation.outermost (env.setting sheets) i).run {}).1

/-- Calculates all sheets, each of them once. -/
def calculateWorkbook (env : Environment) (sheets : List Sheet) : List CalculatedSheet :=
  let w := env.setting sheets
  (((List.range sheets.length).mapM (Calculation.outermost w)).run {}).1

end Spreadsheet
