import Spreadsheet.Calendar.Names
import Spreadsheet.Calendar.Serial
import Spreadsheet.Decimal.Numeral

/-!
# Dates in text

Five layouts of a date are recognised, and each names the format code that shows a serial the same
way: `2024-01-31` and `01/31/2024`, both with an optional time, `31-Jan-2024`, `31 Jan 2024` and
`Jan 31, 2024`. Which part of a slash date is the day is decided by a part above twelve, else by the
order asked for.

* `DateLayout` : the layouts with their format codes;
* `readDateText` : the parts that a text writes, as the layouts say and without a calendar;
* `parseDate?` : the serial of a text whose parts are a date and a time;
* `looksLikeDate` : whether a text starts like one of the layouts, with digits of any script.
-/

namespace Spreadsheet.Calendar

open Text (isAsciiDigit isAsciiLetter isDecimalDigit)

inductive DateOrder where
  | monthFirst
  | dayFirst
deriving DecidableEq, Repr

inductive DateLayout where
  | iso
  | slashDayFirst
  | slashMonthFirst
  | dayMonthDash
  | dayMonthBlank
  | monthDay
deriving DecidableEq, Repr

def DateLayout.code : DateLayout → String
  | iso => "YYYY-MM-DD"
  | slashDayFirst => "DD/MM/YYYY"
  | slashMonthFirst => "MM/DD/YYYY"
  | dayMonthDash => "DD-MMM-YYYY"
  | dayMonthBlank => "D MMM YYYY"
  | monthDay => "MMM D, YYYY"

/-! ## Pieces of a layout

Each piece takes its characters off the front of a text and gives what is left. -/

/-- At least `least` and at most `most` digits. -/
def takeDigits (isDigit : Char → Bool) (least most : Nat) (cs : List Char) :
    Option (List Char × List Char) :=
  let ds := (cs.take most).takeWhile isDigit
  if ds.length < least then none else some (ds, cs.drop ds.length)

def takeNumber (least most : Nat) (cs : List Char) : Option (Nat × List Char) :=
  (takeDigits isAsciiDigit least most cs).map fun (ds, cs) => (Decimal.digitsValue ds, cs)

/-- A run of three to nine letters. -/
def takeWord (cs : List Char) : Option (List Char × List Char) :=
  let word := cs.takeWhile isAsciiLetter
  if 3 ≤ word.length ∧ word.length ≤ 9 then some (word, cs.dropWhile isAsciiLetter) else none

/-- One of the given characters. -/
def takeOne (choices : List Char) : List Char → Option (List Char)
  | c :: cs => if choices.contains c then some cs else none
  | [] => none

/-- The given character, if it comes next. -/
def skipOne (d : Char) : List Char → List Char
  | c :: cs => if c = d then cs else c :: cs
  | [] => []

/-- The ending of an ordinal number, if it comes next. -/
def skipOrdinal : List Char → List Char
  | 's' :: 't' :: cs => cs
  | 'n' :: 'd' :: cs => cs
  | 'r' :: 'd' :: cs => cs
  | 't' :: 'h' :: cs => cs
  | cs => cs

/-! ## The layouts -/

/-- A time of day as it is written, with or without seconds. -/
structure WrittenTime where
  hour : Nat
  minute : Nat
  second : Option Nat
deriving DecidableEq, Repr

/-- The parts of a date as they are written. -/
structure WrittenDate where
  layout : DateLayout
  year : Nat
  month : Nat
  day : Nat
  time : Option WrittenTime
deriving DecidableEq, Repr

/-- The rest of a text, which is empty or a time after one of the separators. -/
def readTime (separators : List Char) (cs : List Char) : Option (Option WrittenTime) :=
  if cs.isEmpty then some none
  else do
    let cs ← takeOne separators cs
    let (hour, cs) ← takeNumber 1 2 cs
    let cs ← takeOne [':'] cs
    let (minute, cs) ← takeNumber 2 2 cs
    if cs.isEmpty then return some ⟨hour, minute, none⟩
    else
      let cs ← takeOne [':'] cs
      let (second, cs) ← takeNumber 2 2 cs
      if cs.isEmpty then return some ⟨hour, minute, some second⟩ else none

def readIso (cs : List Char) : Option WrittenDate := do
  let (year, cs) ← takeNumber 4 4 cs
  let cs ← takeOne ['-'] cs
  let (month, cs) ← takeNumber 1 2 cs
  let cs ← takeOne ['-'] cs
  let (day, cs) ← takeNumber 1 2 cs
  let time ← readTime ['T', ' '] cs
  return ⟨.iso, year, month, day, time⟩

/-- A part above twelve is the day; `order` decides when neither is. -/
def readSlash (order : DateOrder) (cs : List Char) : Option WrittenDate := do
  let (first, cs) ← takeNumber 1 2 cs
  let cs ← takeOne ['/'] cs
  let (second, cs) ← takeNumber 1 2 cs
  let cs ← takeOne ['/'] cs
  let (year, cs) ← takeNumber 4 4 cs
  let time ← readTime [' '] cs
  if 12 < first ∨ (second ≤ 12 ∧ order = .dayFirst) then
    return ⟨.slashDayFirst, year, second, first, time⟩
  else return ⟨.slashMonthFirst, year, first, second, time⟩

def readDayMonthDash (cs : List Char) : Option WrittenDate := do
  let (day, cs) ← takeNumber 1 2 cs
  let cs ← takeOne ['-'] cs
  let (word, cs) ← takeWord cs
  let cs ← takeOne ['-'] cs
  let (year, cs) ← takeNumber 4 4 cs
  let month ← monthOfName? (String.ofList word)
  if cs.isEmpty then return ⟨.dayMonthDash, year, month, day, none⟩ else none

def readDayMonthBlank (cs : List Char) : Option WrittenDate := do
  let (day, cs) ← takeNumber 1 2 cs
  let cs ← takeOne [' '] cs
  let (word, cs) ← takeWord cs
  let cs ← takeOne [' '] (skipOne ',' (skipOne '.' cs))
  let (year, cs) ← takeNumber 4 4 cs
  let month ← monthOfName? (String.ofList word)
  if cs.isEmpty then return ⟨.dayMonthBlank, year, month, day, none⟩ else none

def readMonthDay (cs : List Char) : Option WrittenDate := do
  let (word, cs) ← takeWord cs
  let cs ← takeOne [' '] (skipOne '.' cs)
  let (day, cs) ← takeNumber 1 2 cs
  let cs ← takeOne [' '] (skipOne ',' (skipOrdinal cs))
  let (year, cs) ← takeNumber 4 4 cs
  let month ← monthOfName? (String.ofList word)
  if cs.isEmpty then return ⟨.monthDay, year, month, day, none⟩ else none

/-- The parts that a text writes in one of the layouts; no text has two of them. -/
def readDateText (order : DateOrder) (cs : List Char) : Option WrittenDate :=
  readIso cs <|> readSlash order cs <|> readDayMonthDash cs <|> readDayMonthBlank cs <|>
    readMonthDay cs

/-! ## Dates -/

/-- A moment read from text, with the format code that shows it as it was written. -/
structure RecognisedDate where
  serial : Float
  code : String

namespace WrittenTime

def IsTime (t : WrittenTime) : Prop := t.hour ≤ 23 ∧ t.minute ≤ 59 ∧ t.second.getD 0 ≤ 59

instance (t : WrittenTime) : Decidable t.IsTime := by unfold IsTime; infer_instance

def fraction (t : WrittenTime) : Float :=
  dayFraction (Float.ofNat t.hour) (Float.ofNat t.minute) (Float.ofNat (t.second.getD 0))

def code (t : WrittenTime) : String := if t.second.isSome then "hh:mm:ss" else "hh:mm"

end WrittenTime

/-- The moment of some written parts, if they are a date and a time. -/
def WrittenDate.recognise (w : WrittenDate) : Option RecognisedDate := do
  let date ← Date.ofCivil? ⟨w.year, w.month, w.day⟩
  match w.time with
  | none => return ⟨date.serialNumber, w.layout.code⟩
  | some t =>
    if t.IsTime then return ⟨date.serialNumber + t.fraction, w.layout.code ++ " " ++ t.code⟩
    else none

/-- The moment a text writes; blanks around it do not count. -/
def parseDate? (text : String) (order : DateOrder) : Option RecognisedDate :=
  (readDateText order (Text.trim text).toList).bind WrittenDate.recognise

/-! ## Texts that look like dates -/

def startsLikeIso (cs : List Char) : Option (List Char) := do
  let (_, cs) ← takeDigits isDecimalDigit 4 4 cs
  let cs ← takeOne ['-'] cs
  let (_, cs) ← takeDigits isDecimalDigit 1 2 cs
  let cs ← takeOne ['-'] cs
  let (_, cs) ← takeDigits isDecimalDigit 1 2 cs
  return cs

def startsLikeSlash (cs : List Char) : Option (List Char) := do
  let (_, cs) ← takeDigits isDecimalDigit 1 2 cs
  let cs ← takeOne ['/'] cs
  let (_, cs) ← takeDigits isDecimalDigit 1 2 cs
  let cs ← takeOne ['/'] cs
  let (_, cs) ← takeDigits isDecimalDigit 4 4 cs
  return cs

def startsLikeDayMonth (cs : List Char) : Option (List Char) := do
  let (_, cs) ← takeDigits isDecimalDigit 1 2 cs
  let cs ← takeOne ['-', ' '] cs
  let (_, cs) ← takeWord cs
  let cs ← takeOne ['-', ' '] (skipOne ',' (skipOne '.' cs))
  let (_, cs) ← takeDigits isDecimalDigit 4 4 cs
  return cs

def startsLikeMonthDay (cs : List Char) : Option (List Char) := do
  let (_, cs) ← takeWord cs
  let cs ← takeOne [' '] (skipOne '.' cs)
  let (_, cs) ← takeDigits isDecimalDigit 1 2 cs
  let cs ← takeOne [' '] (skipOne ',' (skipOrdinal cs))
  let (_, cs) ← takeDigits isDecimalDigit 4 4 cs
  return cs

/-- A quick look at the start of a text; `parseDate?` refuses every text that fails it. -/
def looksLikeDate (text : String) : Bool :=
  let cs := (Text.trim text).toList
  (startsLikeIso cs <|> startsLikeSlash cs <|> startsLikeDayMonth cs <|> startsLikeMonthDay cs).isSome

end Spreadsheet.Calendar
