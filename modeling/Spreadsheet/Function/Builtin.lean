import Spreadsheet.Function.Date
import Spreadsheet.Function.Financial
import Spreadsheet.Function.Logical
import Spreadsheet.Function.Lookup
import Spreadsheet.Function.Math
import Spreadsheet.Function.Statistical
import Spreadsheet.Function.Text
import Spreadsheet.Regex.Tables

/-!
# The built-in functions
-/

namespace Spreadsheet

variable [RegexLibrary]

/-- All built-in functions; their names are different. -/
def builtinFunctions : List Function :=
  statisticalFunctions ++ mathFunctions ++ logicalFunctions ++ textFunctions ++ lookupFunctions ++
    financialFunctions ++ dateFunctions

/-- The registry of the built-in functions. -/
def Registry.builtin : Registry := Registry.ofList builtinFunctions

end Spreadsheet
