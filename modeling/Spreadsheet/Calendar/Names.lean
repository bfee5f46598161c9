import Spreadsheet.Text.Case

/-!
# Names of months and days

A month is read by its full name or its first three letters, in any case; September also by `Sept`.
-/

namespace Spreadsheet.Calendar

def monthNames : List String :=
  ["January", "February", "March", "April", "May", "June", "July", "August", "September",
    "October", "November", "December"]

def dayNames : List String :=
  ["Sunday", "Monday", "Tuesday", "Wednesday", "Thursday", "Friday", "Saturday"]

/-- The first letters of a name. -/
def abbreviation (count : Nat) (name : String) : String := String.ofList (name.toList.take count)

/-- Whether a text in lower case names the month with this full name. -/
def namesMonth (lower full : String) : Bool :=
  let name := Text.asciiLower full
  lower == name || lower == abbreviation 3 name || (name == "september" && lower == "sept")

/-- The number of a month, from one, by its name. -/
def monthOfName? (name : String) : Option Nat :=
  (monthNames.findIdx? (namesMonth (Text.asciiLower name))).map (· + 1)

/-- Full name of a month from one to twelve. -/
def monthName (month : Nat) : String := monthNames.getD (month - 1) ""

/-- Full name of a day from zero, Sunday, to six. -/
def dayName (weekday : Nat) : String := dayNames.getD weekday ""

end Spreadsheet.Calendar
