import Mathlib.Logic.Function.Basic
import Spreadsheet.Proofs.Balance

/-!
# A calculation that keeps books

An evaluation that has to wait need not be broken off. Here every sheet in the middle of its calculation has a stack
with an entry for each of its evaluations that is going on, in which the evaluation notes what it has to wait for. Once
there is something in its entry, all that it asks is answered with a blank and has no effect; when it has come to its
end its result is thrown away, and what it waits for is taken from the stack by whoever made the attempt. A counter
says how deep the reads from other sheets are nested.

* `Books` : what has been noted so far, with the entries and the counter;
* `Ledger` : the books with a record of every call and of every look at an entry. For the record each entry names
  the evaluation that it was made for;
* `attempt`, `settle`, `resolve`, `sheetResult`, `sheetValue`, `foreignValue` : the calculation with books, in the
  same steps as the one without.
-/

namespace Spreadsheet

namespace Bookkeeping

open Calculation (Step foreignSheet readOwn readStarted resultOf)

/-! ## Books -/

/-- One evaluation of a formula. All evaluations are numbered in the order in which they begin. -/
structure Trial where
  position : Position
  number : Nat
deriving DecidableEq, Repr

/-- What a trial waits for. -/
structure Entry where
  owner : Trial
  missing : List Position

structure Books where
  progress : Progress := {}
  /-- For each sheet what its trials wait for, the last one first. -/
  entries : Nat → List Entry := fun _ => []
  /-- Reads from other sheets that are going on. -/
  depth : Nat := 0
  /-- The trials that are being evaluated, the innermost first. -/
  running : List Trial := []

/-- A call, with the books as it finds them and as it leaves them. -/
structure Passage where
  onEntry : Books
  onReturn : Books

/-- A look at the last entry of a sheet on behalf of a trial. -/
structure Look where
  trial : Trial
  books : Books

structure Ledger extends Books where
  /-- Every call to resolve a cell and every read from another sheet. -/
  passages : List Passage := []
  /-- Every time a running trial is asked whether it waits, or is made to. -/
  looks : List Look := []
  /-- Every time that is taken away what a trial waits for that was given up. -/
  collected : List Look := []

namespace Ledger

/-- Puts other entries for a sheet in place of those it has. -/
def setEntries (l : Ledger) (i : Nat) (entries : List Entry) : Ledger :=
  { l with entries := Function.update l.entries i entries }

/-- What is waited for by the last entry of a sheet. -/
def missing (l : Ledger) (i : Nat) : List Position :=
  match l.entries i with
  | [] => []
  | entry :: _ => entry.missing

/-- Adds to what is waited for by the last entry of a sheet. -/
def wait (l : Ledger) (i : Nat) (cells : List Position) : Ledger :=
  match l.entries i with
  | [] => l
  | entry :: older => l.setEntries i ({ entry with missing := entry.missing ++ cells } :: older)

/-- The trial that begins next. -/
def nextTrial (l : Ledger) (p : Position) : Trial := ⟨p, l.progress.attempts + 1⟩

/-- A trial begins, with nothing to wait for. -/
def begin (l : Ledger) (p : Position) : Ledger :=
  let t := l.nextTrial p
  { l.setEntries p.sheet (⟨t, []⟩ :: l.entries p.sheet) with
    progress := l.progress.begin p
    running := t :: l.running }

/-- The innermost trial has come to its end. -/
def leave (l : Ledger) : Ledger := { l with running := l.running.tail }

/-- Takes away the last entry of a sheet. -/
def dropEntry (l : Ledger) (i : Nat) : Ledger := l.setEntries i (l.entries i).tail

def look (l : Ledger) (t : Trial) : Ledger := { l with looks := ⟨t, l.toBooks⟩ :: l.looks }

end Ledger

abbrev Booked := StateM Ledger

abbrev BookedReader := Position → String → Nat → Nat → Booked (Except FormulaError Value)

/-- A step that touches nothing but what has been noted. -/
def working {α : Type} (x : Step α) : Booked α :=
  modifyGet fun l => ((x.run l.progress).1, { l with progress := (x.run l.progress).2 })

/-- A call goes on record when it returns. -/
def recorded {α : Type} (x : Booked α) : Booked α := do
  let onEntry := (← get).toBooks
  let a ← x
  modify fun l => { l with passages := ⟨onEntry, l.toBooks⟩ :: l.passages }
  return a

/-! ## One evaluation -/

/-- Whether a trial has something to wait for, by the last entry of its sheet. -/
def waiting (t : Trial) : Booked Bool := do
  modify (·.look t)
  return !((← get).missing t.position.sheet).isEmpty

def waitFor (t : Trial) (cells : List Position) : Booked Unit := do
  modify (·.look t)
  modify (·.wait t.position.sheet cells)

/-- A value as it is, and a blank for one that has to be waited for. -/
def orWait (t : Trial) : Except (List Position) Value → Booked Value
  | .ok v => return v
  | .error missing => do
    waitFor t missing
    return .empty

/-- A read from the sheet that the formula is on. -/
def readSheet (w : Setting) (t : Trial) (p : Position) : Booked Value := do
  orWait t (← working (readOwn w p).run)

/-- The cells as a trial sees them. -/
def source (w : Setting) (foreign : BookedReader) (t : Trial) : CellSource Booked where
  cell a := do
    if ← waiting t then return .ok .empty
    match a.sheet with
    | some name =>
      if sameSheet name (w.sheet t.position.sheet).name then
        .ok <$> readSheet w t ⟨t.position.sheet, a.row, a.column⟩
      else foreign t.position name a.row a.column
    | none => .ok <$> readSheet w t ⟨t.position.sheet, a.row, a.column⟩
  extent := w.extent? t.position.sheet
  announce r := do
    if ← waiting t then return
    if w.isOwn t.position.sheet r.sheet then
      let missing := (← get).progress.unstartedIn w t.position.sheet r
      if missing.isEmpty then return else waitFor t missing

/-- Evaluates a formula. If it has to wait its entry is left where it is, and the trial is given back. -/
def attempt (w : Setting) (foreign : BookedReader) (p : Position) (formula : String) : Booked (Option Trial) := do
  let t := (← get).nextTrial p
  modify (·.begin p)
  let reading := (evaluateFormula w.environment formula).run
  let (outcome, reads) ← (reading.run (source w foreign t).noting).run []
  let waits ← waiting t
  modify (·.leave)
  if waits then return some t
  else
    modify (·.dropEntry p.sheet)
    working (modify (Calculation.finish w p formula outcome reads))
    return none

/-! ## Work stack -/

/-- Takes away the last entry of a sheet, for the trial that was given up, and gives what is waited for. -/
def collect (t : Trial) : Booked (List Position) := do
  modify fun l => { l with collected := ⟨t, l.toBooks⟩ :: l.collected }
  let missing := (← get).missing t.position.sheet
  modify (·.dropEntry t.position.sheet)
  return missing

/-- Works off a stack of cells in at most so many attempts. -/
def settle (w : Setting) (foreign : BookedReader) : (attempts : Nat) → (stack : List Position) → Booked Unit
  | 0, _ => return
  | attempts + 1, stack => do
    match (← get).progress.nextPending? w stack with
    | none => return
    | some (p, formula, rest) =>
      match ← attempt w foreign p formula with
      | none => settle w foreign attempts rest
      | some t =>
        let missing ← collect t
        settle w foreign attempts (missing.reverse ++ p :: rest)

/-- The value of a cell, with everything that it needs. -/
def resolve (w : Setting) (foreign : BookedReader) (p : Position) : Booked Value := recorded do
  match w.cell? p with
  | none => return .empty
  | some c => match c.formula? with
    | none => return c.content.value
    | some formula => do
      let s := (← get).progress
      if !s.values.contains p && s.started.contains p then working (readStarted w p formula)
      else
        settle w foreign w.attemptLimit [p]
        return (← get).progress.values[p]?.getD .empty

/-! ## Sheets -/

/-- Resolves cells one after the other. -/
def resolveAll (w : Setting) (foreign : BookedReader) (i : Nat) : List (Nat × Nat) → Booked Unit
  | [] => return
  | (row, column) :: rest => do
    discard (resolve w foreign ⟨i, row, column⟩)
    resolveAll w foreign i rest

/-- The result for a sheet. Its calculation begins without entries. -/
def sheetResult (w : Setting) (foreign : BookedReader) (i : Nat) : Booked CalculatedSheet := do
  match (← get).progress.finished[i]? with
  | some result => return result
  | none =>
    let before := (← get).progress.otherSheets
    modify (·.setEntries i [])
    working (modify fun s => { s with active := i :: s.active })
    resolveAll w foreign i (w.sheet i).formulaPlaces
    let s := (← get).progress
    let result := resultOf w i (s.otherSheets - before) s
    working (set { s with active := s.active.erase i, finished := s.finished.insert i result })
    return result

/-- The value of a cell of sheet `i`, which is calculated unless it is done or being calculated. -/
def sheetValue (w : Setting) (foreign : BookedReader) (reader : Position) (i row column : Nat) : Booked Value := do
  let s := (← get).progress
  if s.active.contains i then resolve w foreign ⟨i, row, column⟩
  else
    if !s.finished.contains i then working (modify fun s => { s with opened := (reader, i) :: s.opened })
    let result ← sheetResult w foreign i
    return ((result.cell? row column).map (·.value)).getD .empty

/-- Counts a read from another sheet while it is going on. -/
def nested {α : Type} (x : Booked α) : Booked α := do
  modify fun l => { l with depth := l.depth + 1 }
  let a ← x
  modify fun l => { l with depth := l.depth - 1 }
  return a

/-- A read from another sheet. The levels are there for the recursion; it is the counter that stops the nesting, before
they are used up. -/
def foreignValue (w : Setting) : (levels : Nat) → BookedReader
  | 0, _, name, _, _ => recorded <| return match foreignSheet w name with
    | .error fault => .error fault
    | .ok _ => .error (.sheetsNestTooDeep maxSheetNesting)
  | levels + 1, reader, name, row, column => recorded do
    match foreignSheet w name with
    | .error fault => return .error fault
    | .ok i =>
      if maxSheetNesting ≤ (← get).depth then return .error (.sheetsNestTooDeep maxSheetNesting)
      else .ok <$> nested (sheetValue w (foreignValue w levels) reader i row column)

/-- The result for a sheet at the outermost level. -/
def outermost (w : Setting) (i : Nat) : Booked CalculatedSheet :=
  sheetResult w (foreignValue w (maxSheetNesting + 1)) i

end Bookkeeping

namespace Call

variable (env : Environment) (c : Call)

/-- The answers of a call that keeps books, with the ledger in the end. -/
def booked : List CalculatedSheet × Bookkeeping.Ledger :=
  (c.targets.mapM (Bookkeeping.outermost (c.setting env))).run {}

def ledger : Bookkeeping.Ledger := (c.booked env).2

end Call

end Spreadsheet
