import Spreadsheet.Format.Fixed
import Spreadsheet.Text.CharClass
import Spreadsheet.ErrorValue

/-!
# The general format

A number without a format code shows as a whole number when it is one, else with up to ten decimal
places; from `10 ^ 15` on and below `10 ^ -10` it shows with an exponent and up to five places.
-/

namespace Spreadsheet.Format

/-- Drops the zeros at the end, then a point that is left there. -/
def trimPlaces (cs : List Char) : List Char :=
  Text.dropEndWhile (· == '.') (Text.dropEndWhile (· == '0') cs)

/-- A finite value with an exponent and at most five places. -/
def shortScientific (b : Binary64.Binary) : List Char :=
  let (mantissa, e) := scientificParts b 5
  joinExponent (trimPlaces mantissa) e

/-- The general format of a number; infinities and NaN show as the error for numbers. -/
def formatGeneral (value : Float) : String :=
  match Binary64.exact value with
  | .finite b =>
    if value == 0.0 then "0"
    else if value.abs >= 1e15 || value.abs < 1e-10 then String.ofList (shortScientific b)
    else if b.isWhole then String.ofList (exactPlaces value 0)
    else
      let digits := trimPlaces (exactPlaces value 10)
      if digits == ['-', '0'] then "0" else String.ofList digits
  | _ => ErrorValue.num.text

end Spreadsheet.Format
