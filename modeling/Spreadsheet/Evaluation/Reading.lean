import Spreadsheet.Formula.Error
import Spreadsheet.Reference.CellRange

/-!
# Computations that read cells

A formula is evaluated step by step: it either is done, or asks for one thing about the sheets and goes
on with the answer. A `Reading` is such a computation as a tree, so what a formula asks for, and in
which order, is part of its value, and whoever holds the cells decides how each question is answered.

* `Reading` : done, or a question (the value of a cell, how far the data of a sheet reaches, the values
  of a range) and what follows each answer;
* `Reading.bind` : one computation after another; `Readings` adds the failure of a formula;
* `CellSource` : answers in a monad, with ranges read cell by cell in `CellSource.grid`;
* `CellSource.noting` : the same answers, with a note of every cell that is read;
* `Reading.run` : the result of a computation over a source.
-/

namespace Spreadsheet

/-- A computation that asks about cells and ends in an `α`. -/
inductive Reading (α : Type) : Type where
  | done (result : α)
  | cell (a : Address) (next : Except FormulaError Value → Reading α)
  | extent (sheet : Option String) (next : Option Extent → Reading α)
  | grid (r : CellRange) (next : Except FormulaError Grid → Reading α)

namespace Reading

/-- Goes on with `f` where a computation that is not done yet ends. -/
def extend {α β : Type} (f : α → Reading β) : Reading α → Reading β
  | done a => f a
  | cell a next => cell a fun answer => (next answer).extend f
  | extent s next => extent s fun answer => (next answer).extend f
  | grid r next => grid r fun answer => (next answer).extend f

@[inline] def bind {α β : Type} (t : Reading α) (f : α → Reading β) : Reading β :=
  match t with
  | done a => f a
  | t => t.extend f

instance : Monad Reading where
  pure := done
  bind := bind

@[simp] theorem extend_done {α β : Type} (f : α → Reading β) (a : α) : (done a).extend f = f a := rfl

theorem bind_eq_extend {α β : Type} (t : Reading α) (f : α → Reading β) : t.bind f = t.extend f := by
  cases t <;> rfl

end Reading

/-- A computation that may fail as a formula does. -/
abbrev Readings := ExceptT FormulaError Reading

namespace Readings

/-- The value of a cell. -/
def cell (a : Address) : Readings Value := ExceptT.mk (.cell a .done)

/-- The values of a range, row by row. -/
def grid (r : CellRange) : Readings Grid := ExceptT.mk (.grid r .done)

/-- How far the data of a sheet reaches, if that is known. -/
def extent (sheet : Option String) : Readings (Option Extent) :=
  ExceptT.mk (.extent sheet fun e => .done (.ok e))

/-- The values of the part of a range that holds data. The shape of the range is lost, so this is for
functions to which a blank cell and an absent one are the same. -/
def usedGrid (r : CellRange) : Readings Grid := do
  match ← extent r.sheet with
  | none => grid r
  | some e =>
    match r.clip e with
    | some part => grid part
    | none => return []

/-- The outcome of a computation, failure being one. -/
def attempt (t : Readings Value) : Readings (Except FormulaError Value) :=
  ExceptT.mk (t.run.bind fun outcome => .done (.ok outcome))

end Readings

/-! ## Answering -/

/-- A cell that was read, and what the answer was. -/
structure CellRead where
  address : Address
  answer : Except FormulaError Value

/-- Whoever holds the cells. -/
structure CellSource (m : Type → Type) where
  cell : Address → m (Except FormulaError Value)
  extent : Option String → Option Extent
  /-- Is told of a range before its cells are read. -/
  announce : CellRange → m Unit

namespace CellSource

variable {m : Type → Type} [Monad m]

/-- The cells of one row from `column` on, put behind those in `read`, which holds them in reverse.
Cells beyond the extent are blank without being read, and the first failure ends the row. -/
@[specialize] def row (src : CellSource m) (sheet : Option String) (e : Option Extent)
    (row column : Nat) (read : List Value) : (count : Nat) → m (Except FormulaError (List Value))
  | 0 => return .ok read.reverse
  | count + 1 => do
    let answer ← if e.all fun e => e.holds row column then
        src.cell { row, column, sheet }
      else pure (.ok .empty)
    match answer with
    | .error fault => return .error fault
    | .ok v => src.row sheet e row (column + 1) (v :: read) count

/-- Rows of a rectangle `columns` wide whose top left corner is given, put behind those in `read`. -/
@[specialize] def rows (src : CellSource m) (sheet : Option String) (e : Option Extent)
    (row column columns : Nat) (read : Grid) : (count : Nat) → m (Except FormulaError Grid)
  | 0 => return .ok read.reverse
  | count + 1 => do
    match ← src.row sheet e row column [] columns with
    | .error fault => return .error fault
    | .ok vs => src.rows sheet e (row + 1) column columns (vs :: read) count

/-- The values of a range, read row by row. -/
@[specialize] def grid (src : CellSource m) (r : CellRange) : m (Except FormulaError Grid) := do
  src.announce r
  src.rows r.sheet (src.extent r.sheet) r.top r.left r.columnCount [] r.rowCount

/-- A source that needs no announcements. -/
def plain (cell : Address → m (Except FormulaError Value)) (extent : Option String → Option Extent) :
    CellSource m :=
  ⟨cell, extent, fun _ => pure ()⟩

/-- Sheets without any data. -/
def blank : CellSource m := plain (fun _ => pure (.ok .empty)) fun _ => some ⟨0, 0⟩

/-- The same source with a note of every cell that is read, the last one first. -/
def noting (src : CellSource m) : CellSource (StateT (List CellRead) m) where
  cell a := do
    let answer ← src.cell a
    modify (⟨a, answer⟩ :: ·)
    return answer
  extent := src.extent
  announce r := src.announce r

end CellSource

/-- Answers every question of a computation from a source. -/
@[specialize] def Reading.run {m : Type → Type} [Monad m] {α : Type} (src : CellSource m) : Reading α → m α
  | .done a => pure a
  | .cell a next => do
    let answer ← src.cell a
    (next answer).run src
  | .extent s next => (next (src.extent s)).run src
  | .grid r next => do
    let answer ← src.grid r
    (next answer).run src

end Spreadsheet
