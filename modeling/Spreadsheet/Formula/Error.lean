import Spreadsheet.Formula.Token
import Spreadsheet.Reference.Fault
import Spreadsheet.Value

/-!
# Why a formula gives no value

Errors of a sheet, such as `#N/A`, are values. A `FormulaError` is what keeps a formula from having a
value at all: its text is not a formula, it calls something unknown, or a reference leads nowhere.

* `ParseFault`, `ReferenceProblem`, `FormulaError` : the causes;
* `FormulaError.message` : the wording;
* `FormulaError.cellError` : the error value that a cell shows in place of the missing value.
-/

namespace Spreadsheet

open Formula (Token)

/-- What is wrong with the text of a formula. -/
inductive ParseFault where
  | emptyFormula
  | unexpectedCharacter (c : Char) (position : Nat)
  | textUnterminated
  | sheetUnterminated
  | bangMissing (sheet : String)
  | numberInvalid (text : String)
  | trailing (found : Token)
  | expected (wanted found : Token)
  | unexpected (found : Token)
  | nestsTooDeep (limit : Nat)
  | tooManyPercents
  | arraySeparator
  | arrayRagged

def ParseFault.message : ParseFault → String
  | emptyFormula => "Empty formula"
  | unexpectedCharacter c position =>
    "Unexpected character '" ++ c.toString ++ "' at position " ++ toString position
  | textUnterminated => "Unterminated string literal"
  | sheetUnterminated => "Unterminated sheet name"
  | bangMissing sheet => "Expected '!' after sheet name '" ++ sheet ++ "'"
  | numberInvalid text => "Invalid number '" ++ text ++ "'"
  | trailing found => "Unexpected " ++ found.describe ++ " after expression"
  | expected wanted found => "Expected " ++ wanted.describe ++ ", got " ++ found.describe
  | unexpected found => "Unexpected token: " ++ found.describe
  | nestsTooDeep limit => "Formula nests deeper than " ++ toString limit ++ " levels"
  | tooManyPercents => "Too many '%' operators"
  | arraySeparator => "Expected ',' ';' or '\x7d' in array"
  | arrayRagged => "Array rows must have equal length"

/-- Why a reference leads nowhere. -/
inductive ReferenceProblem where
  | unreadable (fault : ReferenceFault)
  | rangeStart
  | rangeEnd (found : Token)
  | cellMissing (sheet : String) (found : Token)
  | sheetsDisabled (sheet : String)
  | sheetUnknown (sheet : String)
  /-- A cause that the source of the cells gives in its own words. -/
  | other (text : String)

def ReferenceProblem.message : ReferenceProblem → String
  | unreadable fault => fault.message
  | rangeStart => "':' must join two cell references"
  | rangeEnd found => "Expected cell reference after ':', got " ++ found.describe
  | cellMissing sheet found =>
    "'" ++ found.plain ++ "' after '" ++ sheet ++ "!' is not a cell reference"
  | sheetsDisabled sheet => "cross-sheet reference to '" ++ sheet ++ "' is disabled"
  | sheetUnknown sheet => "unknown sheet '" ++ sheet ++ "'"
  | other text => text

/-- How many arguments a function wanted. -/
inductive ArityBound where
  | atLeast (n : Nat)
  | atMost (n : Nat)

def ArityBound.message : ArityBound → String
  | atLeast n => "at least " ++ toString n
  | atMost n => "at most " ++ toString n

inductive FormulaError where
  | malformed (fault : ParseFault)
  | notNumeric (value : Value)
  | sheetsNestTooDeep (limit : Nat)
  /-- A function's own complaint about its arguments. -/
  | argument (text : String)
  | unknownFunction (name : String)
  | unknownName (name : String)
  | argumentCount (function : String) (bound : ArityBound) (actual : Nat)
  | circular (cell : String)
  | invalidReference (problem : ReferenceProblem)

namespace FormulaError

def message : FormulaError → String
  | malformed fault => "Parse error: " ++ fault.message
  | notNumeric value => "Evaluation error: Cannot convert " ++ value.describe ++ " to number"
  | sheetsNestTooDeep limit =>
    "Evaluation error: cross-sheet references nest deeper than " ++ toString limit ++ " levels"
  | argument text => "Invalid argument: " ++ text
  | unknownFunction name => "Unknown function: " ++ name
  | unknownName name => "Unknown name: " ++ name
  | argumentCount function bound actual =>
    "Wrong number of arguments for " ++ function ++ ": expected " ++ bound.message ++ ", got " ++
      toString actual
  | circular cell => "Circular reference detected at " ++ cell
  | invalidReference problem => "Invalid reference: " ++ problem.message

/-- The error value that stands for the missing value. -/
def cellError : FormulaError → ErrorValue
  | invalidReference _ => .ref
  | circular _ => .ref
  | unknownFunction _ => .name
  | unknownName _ => .name
  | _ => .value

end FormulaError

/-- The number of a value, or a complaint. -/
def Value.toNumber (v : Value) : Except FormulaError Binary64.Number :=
  match v.asNumber? with
  | some x => .ok x
  | none => .error (.notNumeric v)

end Spreadsheet
