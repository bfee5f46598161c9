import Spreadsheet.Text.Case

/-!
# Error values

A cell that cannot show a result shows one of seven marks. They are values like numbers and text, and
pass through the formulas that use them.
-/

namespace Spreadsheet

inductive ErrorValue where
  /-- No common cells. -/
  | null
  /-- Division by zero. -/
  | divisionByZero
  /-- A value of the wrong kind. -/
  | value
  /-- A reference to nothing. -/
  | ref
  /-- An unknown name. -/
  | name
  /-- A number out of range. -/
  | num
  /-- Nothing found. -/
  | notAvailable
deriving DecidableEq, Repr

namespace ErrorValue

def text : ErrorValue → String
  | null => "#NULL!"
  | divisionByZero => "#DIV/0!"
  | value => "#VALUE!"
  | ref => "#REF!"
  | name => "#NAME?"
  | num => "#NUM!"
  | notAvailable => "#N/A"

def all : List ErrorValue := [null, divisionByZero, value, ref, name, num, notAvailable]

/-- The error value a text shows, in any case. -/
def ofText? (s : String) : Option ErrorValue :=
  let upper := Text.upper s
  all.find? fun e => e.text == upper

/-- The name of an error value in messages. -/
def messageName : ErrorValue → String
  | null => "Null"
  | divisionByZero => "Div0"
  | value => "Value"
  | ref => "Ref"
  | name => "Name"
  | num => "Num"
  | notAvailable => "Na"

end ErrorValue

end Spreadsheet
