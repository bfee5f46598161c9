import Spreadsheet.Reference.Fault
import Spreadsheet.Text.CharClass
import Spreadsheet.Text.Delimited

/-!
# Sheet qualifiers

A reference may start with a sheet name and `!`. A name made of ASCII letters, digits, `_` and `.`
that does not start with a digit is written as it is; any other name goes between single quotes, a
quote inside it written twice.

* `writeSheetName` : the name as a qualifier;
* `splitSheet` : a reference split into the name of its sheet, if it has one, and the address.
-/

namespace Spreadsheet

open Text (isAsciiAlphanumeric isAsciiDigit)

/-- Names that need no quotes. -/
def isBareSheetName : List Char → Bool
  | [] => false
  | c :: cs =>
    !isAsciiDigit c && (c :: cs).all fun c => isAsciiAlphanumeric c || c == '_' || c == '.'

def writeSheetName (name : String) : String :=
  if isBareSheetName name.toList then name
  else String.ofList ('\'' :: Text.doubled '\'' name.toList ++ ['\''])

/-- Splits the sheet name off a reference. -/
def splitSheet (cs : List Char) : Except ReferenceDefect (Option String × List Char) :=
  match cs with
  | '\'' :: quotedName =>
    match Text.readDelimited '\'' quotedName with
    | none => .error .nameUnterminated
    | some (name, '!' :: address) =>
      if name.isEmpty then .error .bangMissing else .ok (some (String.ofList name), address)
    | some _ => .error .bangMissing
  | _ =>
    match cs.dropWhile (· != '!') with
    | _ :: address =>
      let name := cs.takeWhile (· != '!')
      if name.isEmpty then .error .nameEmpty else .ok (some (String.ofList name), address)
    | [] => .ok (none, cs)

end Spreadsheet
