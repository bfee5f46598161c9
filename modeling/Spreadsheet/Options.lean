import Spreadsheet.Calendar.DateText

/-!
# Options and surroundings of a calculation

`Options` are chosen by whoever calculates. `Surroundings` add the moment at which the calculation
takes place, which `TODAY` and `NOW` show.
-/

namespace Spreadsheet

structure Options where
  /-- Rounds that the solvers for interest rates may take. -/
  maxIterations : Nat := 100
  /-- Whether formulas may read other sheets. -/
  crossSheetReferences : Bool := true
  /-- Whether a formula without a value leaves an error value in its cell instead of `0`. -/
  strict : Bool := false
  /-- Whether `03/04/2024` is the third of April. -/
  dayFirst : Bool := false
deriving DecidableEq, Repr

def Options.dateOrder (o : Options) : Calendar.DateOrder :=
  if o.dayFirst then .dayFirst else .monthFirst

structure Surroundings where
  options : Options
  today : Calendar.Date
  clock : Calendar.Clock

end Spreadsheet
