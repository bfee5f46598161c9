import Spreadsheet.Proofs.DateGrammar
import Spreadsheet.Proofs.Gregorian

/-!
# The layouts of dates

The parts of a date are written in one way for each layout, with all digits of the year. What is written so belongs to
the grammar of dates and is read as those parts.

* `WrittenDate.chars` : the text of some parts;
* `WrittenDate.Fits` : parts that can come from a text;
* `readDateText_chars` : they are read back;
* `readDateText_spec` : what is read fits, and the text looks like a date.
-/

namespace Spreadsheet.Calendar

open Text (isAsciiDigit isAsciiLetter)
open Decimal (digitsOf digitsValue padded)

/-! ## Digits -/

variable {least most n : Nat} {cs : List Char}

theorem isAsciiDigit_of_mem_padded {width : Nat} {c : Char} (hc : c ∈ padded width n) : isAsciiDigit c := by
  rw [padded, List.mem_append] at hc
  rcases hc with hc | hc
  · rw [List.eq_of_mem_replicate hc]
    decide
  · exact Decimal.isAsciiDigit_of_mem hc

theorem digitsValue_padded (width n : Nat) : digitsValue (padded width n) = n := by
  have hzeros : ∀ k (ds : List Char), digitsValue (List.replicate k '0' ++ ds) = digitsValue ds := by
    intro k ds
    induction k with
    | zero => rfl
    | succ k ih => exact ih
  rw [padded, hzeros, Decimal.digitsValue_digitsOf]

theorem length_digitsOf_le {width : Nat} (hwidth : 0 < width) (hn : n < 10 ^ width) : (digitsOf n).length ≤ width :=
  (Nat.length_toDigits_le_iff (by decide) hwidth).2 hn

theorem length_padded {width : Nat} (hwidth : 0 < width) (hn : n < 10 ^ width) : (padded width n).length = width := by
  have := length_digitsOf_le hwidth hn
  rw [padded, List.length_append, List.length_replicate]
  omega

/-- A number of all its digits, zeros in front of it among them. -/
theorem numeral_padded {width : Nat} (hwidth : 0 < width) (hn : n < 10 ^ width) (hleast : least ≤ width)
    (hmost : width ≤ most) : Numeral least most (padded width n) n := by
  have hlength := length_padded hwidth hn
  exact ⟨fun c => isAsciiDigit_of_mem_padded, by omega, by omega, digitsValue_padded width n⟩

/-- A part of a date or a time is two digits. -/
theorem numeral_part (hn : n < 100) (hleast : least ≤ 2) : Numeral least 2 (padded 2 n) n :=
  numeral_padded (by decide) hn hleast (Nat.le_refl 2)

theorem numeral_digitsOf (hn : n < 100) : Numeral 1 2 (digitsOf n) n :=
  ⟨fun c => Decimal.isAsciiDigit_of_mem, Nat.length_toDigits_pos, length_digitsOf_le (by decide) (by simpa using hn),
    Decimal.digitsValue_digitsOf n⟩

/-! ## The text of a date -/

/-- Hour and minute, and the second if there is one. -/
def WrittenTime.chars (t : WrittenTime) : List Char :=
  padded 2 t.hour ++ ':' :: (padded 2 t.minute ++ match t.second with
    | some second => ':' :: padded 2 second
    | none => [])

/-- A time after a blank, if there is one. -/
def timeChars : Option WrittenTime → List Char
  | some t => ' ' :: t.chars
  | none => []

/-- The parts of a date in their layout, with as many digits as its format code shows. -/
def WrittenDate.chars (w : WrittenDate) : List Char :=
  match w.layout with
  | .iso => padded 4 w.year ++ '-' :: (padded 2 w.month ++ '-' :: (padded 2 w.day ++ timeChars w.time))
  | .slashDayFirst => padded 2 w.day ++ '/' :: (padded 2 w.month ++ '/' :: (padded 4 w.year ++ timeChars w.time))
  | .slashMonthFirst => padded 2 w.month ++ '/' :: (padded 2 w.day ++ '/' :: (padded 4 w.year ++ timeChars w.time))
  | .dayMonthDash => padded 2 w.day ++ '-' :: (monthChars w.month ++ '-' :: padded 4 w.year)
  | .dayMonthBlank => digitsOf w.day ++ ' ' :: (monthChars w.month ++ ' ' :: padded 4 w.year)
  | .monthDay => monthChars w.month ++ ' ' :: (digitsOf w.day ++ ',' :: ' ' :: padded 4 w.year)

/-- Parts that can come from a text: four digits of a year, and which part is the day as the order says. The layouts
with the name of a month have no time. -/
structure WrittenDate.Fits (order : DateOrder) (w : WrittenDate) : Prop where
  year_lt : w.year < 10000
  dayFirst : w.layout = .slashDayFirst → 12 < w.day ∨ (w.month ≤ 12 ∧ order = .dayFirst)
  monthFirst : w.layout = .slashMonthFirst → ¬(12 < w.month ∨ (w.day ≤ 12 ∧ order = .dayFirst))
  untimed : w.layout ∈ [.dayMonthDash, .dayMonthBlank, .monthDay] → w.time = none

/-! ## The text of a date is one -/

variable {order : DateOrder} {w : WrittenDate} {month : Nat}

theorem timeText_timeChars {separators : List Char} (hblank : ' ' ∈ separators) {time : Option WrittenTime}
    (htime : ∀ t ∈ time, t.IsTime) : TimeText separators (timeChars time) time := by
  cases time with
  | none => exact .none
  | some t =>
    obtain ⟨hhour, hminute, hsecond⟩ := htime t rfl
    obtain ⟨hour, minute, second⟩ := t
    dsimp only at *
    have hhours : Numeral 1 2 (padded 2 hour) hour := numeral_part (by omega) (by decide)
    have hminutes : Numeral 2 2 (padded 2 minute) minute := numeral_part (by omega) (by decide)
    cases second with
    | none =>
      rw [timeChars, WrittenTime.chars, List.append_nil]
      exact .minutes hblank hhours hminutes
    | some second =>
      change second ≤ 59 at hsecond
      exact .seconds hblank hhours hminutes (numeral_part (by omega) (by decide))

theorem namesMonth_monthChars (hmonth : month ∈ List.range' 1 12) : NamesMonth (monthChars month) month :=
  ⟨hmonth, List.mem_map_of_mem (by simp [monthWords])⟩

/-- The text of a date belongs to its layout. -/
theorem dateText_chars (h : w.Fits order) (hdate : Civil.IsDate ⟨w.year, w.month, w.day⟩)
    (htime : ∀ t ∈ w.time, t.IsTime) : DateText order w.chars w := by
  obtain ⟨hyear, hdayFirst, hmonthFirst, huntimed⟩ := h
  obtain ⟨hfirst, hlast, -, hdays⟩ := hdate
  obtain ⟨layout, year, month, day, time⟩ := w
  dsimp only at *
  have hlt : day < 100 := Nat.lt_of_le_of_lt (hdays.trans (daysInMonth_le _ _)) (by decide)
  have hmonth : month ∈ List.range' 1 12 := List.mem_range'_1.2 ⟨hfirst, by omega⟩
  have hyears : Numeral 4 4 (padded 4 year) year := numeral_padded (by decide) (by omega) (by decide) (by decide)
  have hmonths : Numeral 1 2 (padded 2 month) month := numeral_part (by omega) (by decide)
  have hdays : Numeral 1 2 (padded 2 day) day := numeral_part hlt (by decide)
  have hday : Numeral 1 2 (digitsOf day) day := numeral_digitsOf hlt
  cases layout with
  | iso => exact .iso hyears hmonths hdays (timeText_timeChars (by decide) htime)
  | slashDayFirst =>
    have hwritten := @DateText.slash order _ _ _ _ _ _ _ _ hdays hmonths hyears (timeText_timeChars (by decide) htime)
    rwa [slashDate_eq, if_pos (hdayFirst rfl)] at hwritten
  | slashMonthFirst =>
    have hwritten := @DateText.slash order _ _ _ _ _ _ _ _ hmonths hdays hyears (timeText_timeChars (by decide) htime)
    rwa [slashDate_eq, if_neg (hmonthFirst rfl)] at hwritten
  | dayMonthDash =>
    obtain rfl : time = none := huntimed (by decide)
    exact .dayMonthDash hdays (namesMonth_monthChars hmonth) hyears
  | dayMonthBlank =>
    obtain rfl : time = none := huntimed (by decide)
    exact @DateText.dayMonthBlank order _ _ [] [] _ _ _ _ hday (namesMonth_monthChars hmonth) (by decide) (by decide)
      hyears
  | monthDay =>
    obtain rfl : time = none := huntimed (by decide)
    exact @DateText.monthDay order _ [] _ [] [','] _ _ _ _ (namesMonth_monthChars hmonth) (by decide) hday (by decide)
      (by decide) hyears

/-- The text of a date is read as its parts. -/
theorem readDateText_chars (h : w.Fits order) (hdate : Civil.IsDate ⟨w.year, w.month, w.day⟩)
    (htime : ∀ t ∈ w.time, t.IsTime) : readDateText order w.chars = some w :=
  readDateText_of_dateText (dateText_chars h hdate htime)

/-! ### Ends of the text -/

/-- The last character is a digit. -/
def EndsInDigit (cs : List Char) : Prop := ∃ front c, cs = front ++ [c] ∧ isAsciiDigit c

theorem EndsInDigit.append (h : EndsInDigit cs) (front : List Char) : EndsInDigit (front ++ cs) := by
  obtain ⟨cs, c, rfl, hc⟩ := h
  exact ⟨front ++ cs, c, (List.append_assoc _ _ _).symm, hc⟩

theorem EndsInDigit.cons (h : EndsInDigit cs) (c : Char) : EndsInDigit (c :: cs) := h.append [c]

theorem padded_ne_nil (width n : Nat) : padded width n ≠ [] :=
  List.append_ne_nil_of_right_ne_nil _ (List.ne_nil_of_length_pos Nat.length_toDigits_pos)

theorem endsInDigit_padded (width n : Nat) : EndsInDigit (padded width n) := by
  have hne := padded_ne_nil width n
  exact ⟨_, _, (List.dropLast_concat_getLast hne).symm, isAsciiDigit_of_mem_padded (List.getLast_mem hne)⟩

theorem EndsInDigit.append_timeChars (h : EndsInDigit cs) (time : Option WrittenTime) :
    EndsInDigit (cs ++ timeChars time) := by
  cases time with
  | none => rwa [timeChars, List.append_nil]
  | some t =>
    obtain ⟨hour, minute, second⟩ := t
    refine .append (.cons (.append (.cons ?_ _) _) _) _
    cases second with
    | none =>
      rw [List.append_nil]
      exact endsInDigit_padded 2 minute
    | some second => exact ((endsInDigit_padded 2 second).cons _).append _

theorem endsInDigit_chars (w : WrittenDate) : EndsInDigit w.chars := by
  obtain ⟨layout, year, month, day, time⟩ := w
  have hyear : EndsInDigit (padded 4 year) := endsInDigit_padded 4 year
  have hday : EndsInDigit (padded 2 day) := endsInDigit_padded 2 day
  cases layout with
  | iso => exact .append (.cons (.append (.cons (hday.append_timeChars time) _) _) _) _
  | slashDayFirst => exact .append (.cons (.append (.cons (hyear.append_timeChars time) _) _) _) _
  | slashMonthFirst => exact .append (.cons (.append (.cons (hyear.append_timeChars time) _) _) _) _
  | dayMonthDash => exact .append (.cons (.append (.cons hyear _) _) _) _
  | dayMonthBlank => exact .append (.cons (.append (.cons hyear _) _) _) _
  | monthDay => exact .append (.cons (.append (.cons (.cons hyear _) _) _) _) _

theorem isBlank_of_digit {c : Char} (h : isAsciiDigit c) : Text.isBlank c = false :=
  Text.isBlank_of_isAlphanumeric (Text.isAlphanumeric_of_ascii (Or.inr h))

/-- The text of a date has no blanks around it. -/
theorem trim_chars {w : WrittenDate} (hmonth : w.month ∈ List.range' 1 12) :
    Text.trim (String.ofList w.chars) = String.ofList w.chars := by
  have hfirst : ∀ c ∈ w.chars.head?, Text.isBlank c = false := by
    have hrun : ∀ {run : List Char} (rest), run ≠ [] → (∀ c ∈ run, Text.isBlank c = false) →
        ∀ c ∈ (run ++ rest).head?, Text.isBlank c = false := by
      intro run rest hne hrun
      cases run with
      | nil => exact absurd rfl hne
      | cons d run =>
        rintro _ ⟨⟩
        exact hrun d List.mem_cons_self
    have hpadded : ∀ width n rest, ∀ c ∈ (padded width n ++ rest).head?, Text.isBlank c = false := fun width n rest =>
      hrun rest (padded_ne_nil width n) fun c hc => isBlank_of_digit (isAsciiDigit_of_mem_padded hc)
    obtain ⟨layout, year, month, day, time⟩ := w
    cases layout with
    | dayMonthBlank =>
      exact hrun _ (List.ne_nil_of_length_pos Nat.length_toDigits_pos) fun c hc =>
        isBlank_of_digit (Decimal.isAsciiDigit_of_mem hc)
    | monthDay =>
      obtain ⟨hletters, hlength, -⟩ := (namesMonth_monthChars hmonth).letters
      have hne : monthChars month ≠ [] := List.ne_nil_of_length_pos (Nat.lt_of_lt_of_le (by decide) hlength)
      exact hrun _ hne fun c hc =>
        Text.isBlank_of_isAlphanumeric (Text.isAlphanumeric_of_ascii (Or.inl (hletters c hc)))
    | iso | slashDayFirst | slashMonthFirst | dayMonthDash => exact hpadded _ _ _
  have hlast : ∀ c ∈ w.chars.getLast?, Text.isBlank c = false := by
    obtain ⟨front, d, hchars, hd⟩ := endsInDigit_chars w
    rw [hchars, List.getLast?_concat]
    rintro c ⟨⟩
    exact isBlank_of_digit hd
  exact Text.trim_of_ends (by rwa [String.toList_ofList]) (by rwa [String.toList_ofList])

/-! ## Texts that are read -/

theorem DateText.fits (h : DateText order cs w) : w.Fits order := by
  cases h with
  | iso hyear hmonth hday htime => exact ⟨hyear.lt, nofun, nofun, by simp⟩
  | slash hfirst hsecond hyear htime =>
    rw [slashDate_eq]
    split
    · rename_i hdayFirst
      exact ⟨hyear.lt, fun _ => hdayFirst, nofun, by simp⟩
    · rename_i hmonthFirst
      exact ⟨hyear.lt, nofun, fun _ => hmonthFirst, by simp⟩
  | dayMonthDash hday hword hyear => exact ⟨hyear.lt, nofun, nofun, fun _ => rfl⟩
  | dayMonthBlank hday hword hpoint hcomma hyear => exact ⟨hyear.lt, nofun, nofun, fun _ => rfl⟩
  | monthDay hword hpoint hday hending hcomma hyear => exact ⟨hyear.lt, nofun, nofun, fun _ => rfl⟩

/-- The parts of a text are such that can come from one, and the text passes the look at its start. -/
theorem readDateText_spec {text : String} (h : readDateText order (Text.trim text).toList = some w) :
    w.Fits order ∧ looksLikeDate text :=
  ⟨(dateText_of_readDateText h).fits, (dateText_of_readDateText h).looksLikeDate⟩

end Spreadsheet.Calendar
