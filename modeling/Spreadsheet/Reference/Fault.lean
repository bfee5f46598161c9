/-!
# Why a text is not a reference

`ReferenceFault` lists the causes, `ReferenceFault.message` their wording. Most causes quote the
reference as it was written, without the blanks around it.
-/

namespace Spreadsheet

/-- What is wrong with a reference as a whole. -/
inductive ReferenceDefect where
  | columnMissing
  | rowInvalid
  | rowOutOfBounds
  | columnOutOfBounds
  | bangMissing
  | nameUnterminated
  | nameEmpty
deriving DecidableEq

def ReferenceDefect.message : ReferenceDefect → String
  | columnMissing => "no column letters"
  | rowInvalid => "invalid row number"
  | rowOutOfBounds => "row out of bounds"
  | columnOutOfBounds => "column out of bounds"
  | bangMissing => "expected '!' after quoted sheet name"
  | nameUnterminated => "unterminated sheet name"
  | nameEmpty => "empty sheet name"

inductive ReferenceFault where
  | empty
  | lettersEmpty
  | letterInvalid (c : Char)
  | columnTooLarge (letters : String)
  | defect (cause : ReferenceDefect) (text : String)
deriving DecidableEq

def ReferenceFault.message : ReferenceFault → String
  | empty => "empty reference"
  | lettersEmpty => "empty column letters"
  | letterInvalid c => "invalid column letter '" ++ c.toString ++ "'"
  | columnTooLarge letters => "column '" ++ letters ++ "' too large"
  | defect cause text => cause.message ++ " in '" ++ text ++ "'"

end Spreadsheet
