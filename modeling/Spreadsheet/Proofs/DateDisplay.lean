import Spreadsheet.Format.Code
import Spreadsheet.Sheet
import Spreadsheet.Proofs.DateLayouts
import Spreadsheet.Proofs.Gregorian
import Spreadsheet.Proofs.Serials

/-!
# Dates are shown as they are read

The format code of a layout has one piece for every part of the layout, and an `M` in it is a month or a minute as the
layout has it. So the serial of a text that is a date shows as the text of its parts, and that is read as the same parts
again.

* `datePieces_code` : the pieces of a format code;
* `ofSerial?_serialWith` : the moment that a serial shows;
* `formatNumber_recognised` : what is shown;
* `withDate_of_parseDate?` : the cell that a text becomes;
* `parseDate?_formatNumber` : what is shown is read back.
-/

namespace Spreadsheet.Calendar

open Binary64 (Represents)
open Decimal (padded)
open Format (DatePiece Moment datePieces formatNumber)

/-! ## Format codes -/

/-- The format code of a layout with a time, if there is one. -/
def DateLayout.codeWith (layout : DateLayout) : Option WrittenTime → String
  | none => layout.code
  | some t => layout.code ++ " " ++ t.code

def DateLayout.pieces : DateLayout → List DatePiece
  | iso => [.field .year 4, .literal ['-'], .field .month 2, .literal ['-'], .field .day 2]
  | slashDayFirst => [.field .day 2, .literal ['/'], .field .month 2, .literal ['/'], .field .year 4]
  | slashMonthFirst => [.field .month 2, .literal ['/'], .field .day 2, .literal ['/'], .field .year 4]
  | dayMonthDash => [.field .day 2, .literal ['-'], .field .month 3, .literal ['-'], .field .year 4]
  | dayMonthBlank => [.field .day 1, .literal [' '], .field .month 3, .literal [' '], .field .year 4]
  | monthDay => [.field .month 3, .literal [' '], .field .day 1, .literal [','], .literal [' '], .field .year 4]

def timePieces : Option WrittenTime → List DatePiece
  | none => []
  | some t => [.literal [' '], .field .hour 2, .literal [':'], .field .minute 2] ++
    if t.second.isSome then [.literal [':'], .field .second 2] else []

/-- A code is one section that asks for a date, and its pieces are those of the layout. -/
theorem datePieces_code (layout : DateLayout) (time : Option WrittenTime) :
    Text.trim (String.ofList (Format.firstSection false (layout.codeWith time).toList)) = layout.codeWith time ∧
      Format.codeKind (layout.codeWith time) = .date ∧
      datePieces (layout.codeWith time) = layout.pieces ++ timePieces time := by
  cases time with
  | none => cases layout <;> decide +kernel
  | some t =>
    rw [DateLayout.codeWith, WrittenTime.code, timePieces]
    cases t.second.isSome <;> cases layout <;> decide +kernel

/-! ## What a serial shows -/

/-- The serial of a date with a time, if there is one. -/
def serialWith (d : Date) : Option WrittenTime → Float
  | none => d.serialNumber
  | some t => d.serialNumber + t.fraction

/-- Midnight, or the time that is written. -/
def clockOf : Option WrittenTime → Clock
  | none => ⟨0, 0, 0⟩
  | some t => ⟨t.hour, t.minute, t.second.getD 0⟩

theorem recognise_eq_some {w : WrittenDate} {p : RecognisedDate} : w.recognise = some p ↔
    ∃ d, Date.ofCivil? ⟨w.year, w.month, w.day⟩ = some d ∧ (∀ t ∈ w.time, t.IsTime) ∧
      p = ⟨serialWith d w.time, w.layout.codeWith w.time⟩ := by
  obtain ⟨layout, year, month, day, time⟩ := w
  rw [WrittenDate.recognise]
  dsimp only
  cases Date.ofCivil? ⟨year, month, day⟩ with
  | none => simp
  | some d =>
    cases time with
    | none => simp [serialWith, DateLayout.codeWith, eq_comm]
    | some t => by_cases ht : t.IsTime <;> simp [serialWith, DateLayout.codeWith, ht, eq_comm]

variable {d : Date} {time : Option WrittenTime}

theorem splitSerial_serialWith (htime : ∀ t ∈ time, t.IsTime) : (serialWith d time).isFinite = true ∧
    splitSerial (serialWith d time) = some (d.serial, (clockOf time).seconds) := by
  cases time with
  | none => exact ⟨(represents_serialNumber d).isFinite, splitSerial_serialNumber d⟩
  | some t =>
    obtain ⟨hhour, hminute, hsecond⟩ := htime t rfl
    obtain ⟨q, hq, hnear⟩ := represents_dayFraction hhour hminute hsecond
    have hlt : (clockOf (some t)).seconds < secondsPerDay := by
      simp only [clockOf, Clock.seconds, secondsPerDay]
      omega
    obtain ⟨r, hr, -⟩ := represents_serialNumber_add d hq hlt hnear
    exact ⟨hr.isFinite, splitSerial_add d hq hlt hnear⟩

theorem ofSeconds_seconds (htime : ∀ t ∈ time, t.IsTime) : Clock.ofSeconds (clockOf time).seconds = clockOf time := by
  cases time with
  | none => rfl
  | some t =>
    obtain ⟨hhour, hminute, hsecond⟩ := htime t rfl
    simp only [clockOf, Clock.seconds, Clock.ofSeconds, Clock.mk.injEq]
    omega

theorem ofSerial?_serialWith (htime : ∀ t ∈ time, t.IsTime) :
    Moment.ofSerial? (serialWith d time) = some ⟨d.civil, d.weekday, clockOf time⟩ := by
  simp only [Moment.ofSerial?, serialTime?, serialCivil?, (splitSerial_serialWith htime).2, Option.bind_some,
    dateOfWhole?_serial, serial_ne_sixty, if_false, Option.map_some, ofSeconds_seconds htime, Option.bind_eq_bind]
  rfl

theorem flatMap_timePieces (civil : Civil) (weekday : Nat) (time : Option WrittenTime) :
    (timePieces time).flatMap (Moment.showPiece ⟨civil, weekday, clockOf time⟩ false) = timeChars time := by
  cases time with
  | none => rfl
  | some t =>
    obtain ⟨hour, minute, second⟩ := t
    cases second <;>
      simp [timePieces, timeChars, WrittenTime.chars, clockOf, Moment.showPiece, Moment.showField, Format.showPart,
        Moment.shownHour]

/-- Without a marker for the half of the day, hours are shown as they are. -/
theorem showPieces_of_no_halfDay {m : Moment} {pieces : List DatePiece}
    (h : ∀ short lower, DatePiece.halfDay short lower ∉ pieces) :
    m.showPieces pieces = pieces.flatMap (m.showPiece false) := by
  unfold Moment.showPieces
  dsimp only
  congr 2
  rw [List.any_eq_false]
  intro p hp
  cases p with
  | halfDay short lower => exact absurd hp (h short lower)
  | field part run => simp
  | literal text => simp

theorem halfDay_notMem (layout : DateLayout) (time : Option WrittenTime) (short lower : Bool) :
    DatePiece.halfDay short lower ∉ layout.pieces ++ timePieces time := by
  cases layout <;> cases time <;> simp [DateLayout.pieces, timePieces]

theorem showPieces_pieces {w : WrittenDate} (hcivil : d.civil = ⟨w.year, w.month, w.day⟩)
    (huntimed : w.layout ∈ [.dayMonthDash, .dayMonthBlank, .monthDay] → w.time = none) :
    Moment.showPieces ⟨d.civil, d.weekday, clockOf w.time⟩ (w.layout.pieces ++ timePieces w.time) = w.chars := by
  obtain ⟨layout, year, month, day, time⟩ := w
  dsimp only at *
  have hyear : Format.showYear year = padded 4 year := if_neg (by omega)
  rw [showPieces_of_no_halfDay (halfDay_notMem layout time), List.flatMap_append, flatMap_timePieces, hcivil]
  cases layout with
  | iso | slashDayFirst | slashMonthFirst =>
    simp [DateLayout.pieces, WrittenDate.chars, Moment.showPiece, Moment.showField, Format.showPart, hyear]
  | dayMonthDash | dayMonthBlank | monthDay =>
    obtain rfl : time = none := huntimed (by decide)
    simp [DateLayout.pieces, WrittenDate.chars, Moment.showPiece, Moment.showField, Format.showPart, hyear, monthChars,
      timeChars]

/-! ## Reading what is shown -/

theorem formatNumber_recognised {order : DateOrder} {w : WrittenDate} {p : RecognisedDate} (h : w.Fits order)
    (hp : w.recognise = some p) : formatNumber p.serial p.code = String.ofList w.chars := by
  obtain ⟨d, hdate, htime, rfl⟩ := recognise_eq_some.1 hp
  obtain ⟨htrim, hkind, hpieces⟩ := datePieces_code w.layout w.time
  have hfinite : (!(serialWith d w.time).isFinite) = false := by rw [(splitSerial_serialWith htime).1]; rfl
  have hshown := showPieces_pieces (Date.civil_of_ofCivil? hdate) h.untimed
  rw [formatNumber, hfinite]
  dsimp only
  rw [htrim, hkind]
  simp only [Format.formatMoment?, ofSerial?_serialWith htime, hpieces, hshown, Option.map_some, Option.getD_some]
  rfl

theorem isDate_of_ofCivil? {c : Civil} {d : Date} (h : Date.ofCivil? c = some d) : c.IsDate := by
  by_contra hno
  simp [Date.ofCivil?, hno] at h

theorem readDateText_formula {text : String} (order : DateOrder) (h : Content.isFormulaText text) :
    readDateText order (Text.trim text).toList = none := by
  obtain ⟨cs, hcs⟩ : ∃ cs, text.toList = '=' :: cs := by
    rw [Content.isFormulaText, beq_iff_eq] at h
    exact List.head?_eq_some_iff.1 h
  obtain ⟨rest, hrest⟩ : ∃ rest, Text.dropEndWhile Text.isBlank ('=' :: cs) = '=' :: rest :=
    ⟨_, Text.dropEndWhile_cons (by decide) cs⟩
  have htrim : (Text.trim text).toList = '=' :: rest := by
    rw [Text.trim, String.toList_ofList, Text.trimChars, hcs, List.dropWhile_cons_of_neg (by decide), hrest]
  rw [htrim, readDateText_letter (by decide)]
  rfl

/-- A cell with the text of a date takes its serial, and its code where it has no format. -/
theorem withDate_of_parseDate? {text : String} {order : DateOrder} {p : RecognisedDate}
    (h : parseDate? text order = some p) (format : Option String) :
    Cell.withDate order ⟨.text text, format⟩ = ⟨.number p.serial, format <|> some p.code⟩ := by
  obtain ⟨w, hread, -⟩ := Option.bind_eq_some_iff.1 h
  have hformula : Content.isFormulaText text = false := by
    by_contra hformula
    simp [readDateText_formula order (by simpa using hformula)] at hread
  simp [Cell.withDate, hformula, (readDateText_spec hread).2, h]

/-- What is shown for a date is read as the same date, so a cell with that text takes the serial and the code that a
cell with the first text takes. -/
theorem parseDate?_formatNumber {text : String} {order : DateOrder} {p : RecognisedDate}
    (h : parseDate? text order = some p) :
    parseDate? (formatNumber p.serial p.code) order = some p ∧
      ∀ format, Cell.withDate order ⟨.text (formatNumber p.serial p.code), format⟩ =
        Cell.withDate order ⟨.text text, format⟩ := by
  obtain ⟨w, hread, hp⟩ := Option.bind_eq_some_iff.1 h
  have hfits := (readDateText_spec hread).1
  obtain ⟨d, hdate, htime, -⟩ := recognise_eq_some.1 hp
  have hcivil := isDate_of_ofCivil? hdate
  have hmonth : w.month ∈ List.range' 1 12 := List.mem_range'_1.2 ⟨hcivil.1, Nat.lt_succ_of_le hcivil.2.1⟩
  have hback : parseDate? (formatNumber p.serial p.code) order = some p := by
    rw [formatNumber_recognised hfits hp, parseDate?, trim_chars hmonth, String.toList_ofList,
      readDateText_chars hfits hcivil htime]
    exact hp
  refine ⟨hback, fun format => ?_⟩
  rw [withDate_of_parseDate? hback, withDate_of_parseDate? h]

/-- The last second of a leap day, written with blanks around it and without a zero in front of the month. -/
theorem parseDate?_formatNumber_leapDay : ∃ p, parseDate? " 29/2/1904 23:59:59 " .dayFirst = some p ∧
    formatNumber p.serial p.code = "29/02/1904 23:59:59" ∧
    parseDate? "29/02/1904 23:59:59" .dayFirst = some p := by
  have hshown : (parseDate? " 29/2/1904 23:59:59 " .dayFirst).map (fun p => formatNumber p.serial p.code) =
      some "29/02/1904 23:59:59" := by
    decide +kernel
  obtain ⟨p, hp, hshown⟩ := Option.map_eq_some_iff.1 hshown
  have hback := (parseDate?_formatNumber hp).1
  rw [hshown] at hback
  exact ⟨p, hp, hshown, hback⟩

end Spreadsheet.Calendar
