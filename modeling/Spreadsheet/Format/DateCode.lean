import Spreadsheet.Calendar.Names
import Spreadsheet.Calendar.Serial
import Spreadsheet.Decimal.Layout

/-!
# Date and time codes

A code such as `YYYY-MM-DD hh:mm` is a row of pieces: runs of one letter, which stand for a field of
the moment, markers for the half of the day, and text that shows as it is. A short run of `m` is
minutes when the field before it is the hour or the field after it the seconds.

* `datePieces` : the pieces of a code;
* `resolveMinutes` : tells minutes from months;
* `formatMoment?` : a serial shown by a code, if it has a date.
-/

namespace Spreadsheet.Format

open Calendar (Date Clock Civil)
open Text (asciiLowerChar isAsciiLower)

inductive DateField where
  | year
  | month
  | minute
  | day
  | hour
  | second
deriving DecidableEq, Repr

/-- A piece of a date code. -/
inductive DatePiece where
  /-- A run of a letter. -/
  | field (part : DateField) (run : Nat)
  /-- `AM/PM`, or `A/P` when `short`. -/
  | halfDay (short lower : Bool)
  | literal (text : List Char)
deriving DecidableEq, Repr

/-- The field of a letter; `m` is a month until `resolveMinutes`. -/
def fieldOfLetter? (c : Char) : Option DateField :=
  match asciiLowerChar c with
  | 'y' => some .year
  | 'm' => some .month
  | 'd' => some .day
  | 'h' => some .hour
  | 's' => some .second
  | _ => none

/-- Whether a text starts with `word`, which is in lower case, in any case. -/
def startsWithWord (word : List Char) (cs : List Char) : Bool :=
  (cs.take word.length).map asciiLowerChar == word

/-- Whether two letters differ at most in case. -/
def sameLetter (c d : Char) : Bool := asciiLowerChar c == asciiLowerChar d

/-- Splits a code into pieces. Text stands between double quotes or after a backslash; what stands
between square brackets is left out. -/
def splitPieces (cs : List Char) : List DatePiece :=
  match cs with
  | [] => []
  | c :: rest =>
    if startsWithWord "am/pm".toList (c :: rest) then
      .halfDay false (isAsciiLower c) :: splitPieces (rest.drop 4)
    else if startsWithWord "a/p".toList (c :: rest) then
      .halfDay true (isAsciiLower c) :: splitPieces (rest.drop 2)
    else if c = '"' then
      .literal (rest.takeWhile (· != '"')) :: splitPieces ((rest.dropWhile (· != '"')).drop 1)
    else if c = '\\' then
      match rest with
      | d :: rest => .literal [d] :: splitPieces rest
      | [] => []
    else if c = '[' then splitPieces ((rest.dropWhile (· != ']')).drop 1)
    else
      match fieldOfLetter? c with
      | some part =>
        .field part ((rest.takeWhile (sameLetter c)).length + 1) ::
          splitPieces (rest.dropWhile (sameLetter c))
      | none => .literal [c] :: splitPieces rest
termination_by cs.length
decreasing_by
  all_goals
    simp only [List.length_cons, List.length_drop]
    have h1 := Text.length_dropWhile_le (· != '"') rest
    have h2 := Text.length_dropWhile_le (· != ']') rest
    have h3 := Text.length_dropWhile_le (sameLetter c) rest
    omega

def DatePiece.isField : DatePiece → Bool
  | literal _ => false
  | _ => true

def DatePiece.isHour : DatePiece → Bool
  | field .hour _ => true
  | _ => false

def DatePiece.isSecond : DatePiece → Bool
  | field .second _ => true
  | _ => false

/-- Turns short runs of months into minutes; `afterHour` says whether the last field was the
hour. -/
def resolveMinutes (afterHour : Bool) : List DatePiece → List DatePiece
  | [] => []
  | p :: rest =>
    let beforeSecond := (rest.find? DatePiece.isField).any DatePiece.isSecond
    let resolved := match p with
      | .field .month run => if run ≤ 2 && (afterHour || beforeSecond) then .field .minute run else p
      | _ => p
    resolved :: resolveMinutes (if p.isField then p.isHour else afterHour) rest

def datePieces (code : String) : List DatePiece := resolveMinutes false (splitPieces code.toList)

/-! ## Showing a moment -/

/-- What the fields of a code take their text from. -/
structure Moment where
  civil : Civil
  weekday : Nat
  clock : Clock

/-- At least four characters, a sign among them. -/
def showYear (y : Int) : List Char :=
  if y < 0 then '-' :: Decimal.padded 3 y.natAbs else Decimal.padded 4 y.natAbs

/-- One digit where it is enough, or always two. -/
def showPart (run n : Nat) : List Char :=
  if run = 1 then Decimal.digitsOf n else Decimal.padded 2 n

namespace Moment

/-- The hour shown, from one to twelve with a half-day marker. -/
def shownHour (m : Moment) (twelveHour : Bool) : Nat :=
  if twelveHour then
    if m.clock.hour % 12 = 0 then 12 else m.clock.hour % 12
  else m.clock.hour

def showField (m : Moment) (twelveHour : Bool) (part : DateField) (run : Nat) : List Char :=
  match part with
  | .year => if run ≤ 2 then Decimal.padded 2 (m.civil.year % 100).toNat else showYear m.civil.year
  | .month =>
    let name := (Calendar.monthName m.civil.month).toList
    if run ≤ 2 then showPart run m.civil.month
    else if run = 3 then name.take 3
    else if run = 4 then name
    else name.take 1
  | .day =>
    let name := (Calendar.dayName m.weekday).toList
    if run ≤ 2 then showPart run m.civil.day
    else if run = 3 then name.take 3
    else name
  | .hour => showPart run (m.shownHour twelveHour)
  | .minute => showPart run m.clock.minute
  | .second => showPart run m.clock.second

def showHalfDay (m : Moment) (short lower : Bool) : List Char :=
  let marker := if m.clock.hour < 12 then ['A', 'M'] else ['P', 'M']
  let marker := if short then marker.take 1 else marker
  if lower then marker.map asciiLowerChar else marker

def showPiece (m : Moment) (twelveHour : Bool) : DatePiece → List Char
  | .field part run => m.showField twelveHour part run
  | .halfDay short lower => m.showHalfDay short lower
  | .literal text => text

def showPieces (m : Moment) (pieces : List DatePiece) : List Char :=
  let twelveHour := pieces.any fun
    | .halfDay _ _ => true
    | _ => false
  pieces.flatMap (m.showPiece twelveHour)

/-- The moment a serial stands for. -/
def ofSerial? (serial : Float) : Option Moment := do
  let (date, clock) ← Calendar.serialTime? serial
  let civil ← Calendar.serialCivil? serial
  return ⟨civil, date.weekday, clock⟩

end Moment

/-- A serial shown by a date code. -/
def formatMoment? (serial : Float) (code : String) : Option String :=
  (Moment.ofSerial? serial).map fun m => String.ofList (m.showPieces (datePieces code))

end Spreadsheet.Format
