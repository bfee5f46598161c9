import Spreadsheet.Calendar.DateText
import Spreadsheet.Reference.CellRange
import Spreadsheet.Value

/-!
# Sheets as they are given

A cell holds nothing, a number, a text or a truth value, and perhaps a format code. A text that begins
with `=` is a formula. The rows of a sheet may have different lengths.

* `Content`, `Cell`, `Sheet`, `Workbook` : the data;
* `Sheet.extent` : how far it reaches;
* `Sheet.set` : puts a cell at a place, with empty cells up to it;
* `Sheet.withDates` : texts that are dates as serials.
-/

namespace Spreadsheet

open Binary64 (Number)

inductive Content where
  | empty
  | number (x : Number)
  | text (s : String)
  | boolean (b : Bool)

namespace Content

def isEmpty : Content → Bool
  | empty => true
  | _ => false

/-- Whether a text is a formula. -/
def isFormulaText (s : String) : Bool := s.toList.head? == some '='

/-- The formula with its `=`, if this is one. -/
def formula? : Content → Option String
  | text s => if isFormulaText s then some s else none
  | _ => none

def isFormula (c : Content) : Bool := c.formula?.isSome

/-- Only numbers and truth values are numbers here. -/
def number? : Content → Option Number
  | number x => some x
  | boolean b => some (Value.ofTruth b)
  | _ => none

def text? : Content → Option String
  | text s => some s
  | _ => none

/-- The content as a value, a formula being its text. -/
def value : Content → Value
  | empty => .empty
  | number x => .number x
  | text s => .text s
  | boolean b => .boolean b

def display (c : Content) : String := c.value.display

end Content

structure Cell where
  content : Content := .empty
  format : Option String := none

namespace Cell

def isFormula (c : Cell) : Bool := c.content.isFormula

def formula? (c : Cell) : Option String := c.content.formula?

/-- A cell with a formula, whose `=` may be left out. -/
def ofFormula (s : String) : Cell :=
  { content := .text (if Content.isFormulaText s then s else "=" ++ s) }

/-- A text that is a date becomes its serial, and a cell without a format takes the one that shows the
date as it was written. -/
def withDate (order : Calendar.DateOrder) (c : Cell) : Cell :=
  match c.content with
  | .text s =>
    if !Content.isFormulaText s && Calendar.looksLikeDate s then
      match Calendar.parseDate? s order with
      | some d => { content := .number d.serial, format := c.format <|> some d.code }
      | none => c
    else c
  | _ => c

end Cell

structure Sheet where
  name : String
  rows : Array (Array Cell) := #[]

namespace Sheet

def cell? (s : Sheet) (row column : Nat) : Option Cell := s.rows[row]?.bind (·[column]?)

def rowCount (s : Sheet) : Nat := s.rows.size

/-- The length of the longest row. -/
def columnCount (s : Sheet) : Nat := s.rows.foldl (fun n row => max n row.size) 0

def extent (s : Sheet) : Extent := ⟨s.rowCount, s.columnCount⟩

def hasFormulas (s : Sheet) : Bool := s.rows.any fun row => row.any Cell.isFormula

/-- An array made long enough to hold a place. -/
def widened {α : Type} (filler : α) (xs : Array α) (place : Nat) : Array α :=
  xs ++ Array.replicate (place + 1 - xs.size) filler

/-- Puts a cell at a place. Rows up to it are added, and only its own row is made longer. -/
def set (s : Sheet) (row column : Nat) (c : Cell) : Sheet :=
  let rows := widened #[] s.rows row
  { s with rows := rows.modify row fun cells => (widened {} cells column).set! column c }

def withDates (order : Calendar.DateOrder) (s : Sheet) : Sheet :=
  { s with rows := s.rows.map fun row => row.map (Cell.withDate order) }

end Sheet

structure Workbook where
  title : String := ""
  sheets : List Sheet

/-- The first sheet of a name, in any case of its plain letters. -/
def Workbook.sheet? (w : Workbook) (name : String) : Option Sheet :=
  w.sheets.find? fun s => Text.equalIgnoringAsciiCase s.name name

end Spreadsheet
