import Spreadsheet.Proofs.Months
import Spreadsheet.Proofs.Serials
import Spreadsheet.Proofs.WholeNumbers

/-!
# The calendar that sheets show

The serials of the dates in range leave out one number, and that one shows a day which no date has, the 29 February
1900. So every whole serial in range shows a day of its own, and the parts of that day make up the serial again. Which
side of the day too many a date lies on is settled by its month.

* `firstSerial`, `lastSerial`, `exists_serial` : the serials in range are those of dates, but for 60;
* `Date.serial_eq`, `Date.serial_lt_iff` : serials by the month of a date, and their order;
* `serialOfParts?_eq`, `Date.exists_firstOfMonth?` : serials by the first day of a month;
* `serialCivil?_of_represents` : what whole serials show;
* `serials_match_calendar` : dates, serials and the days that sheets show correspond.
-/

namespace Spreadsheet.Calendar

open Binary64 (Represents ofInt_add represents_ofInt)

/-! ## Serials in range -/

/-- The serial of the first date. -/
def firstSerial : ℤ := daysBeforeYear firstYear - serialEpoch

/-- The serial of the last date. -/
def lastSerial : ℤ := daysBeforeYear (lastYear + 1) - serialEpoch

variable {n : ℤ} {d e f : Date}

theorem exists_dateOfWhole? (hn : n ∈ Set.Icc firstSerial lastSerial) : ∃ d, dateOfWhole? n = some d := by
  obtain ⟨hfirst, hlast⟩ := hn
  have hsixty : firstSerial < 60 ∧ 60 ≤ lastSerial := by decide
  unfold firstSerial at hfirst hsixty
  unfold lastSerial at hlast hsixty
  unfold dateOfWhole? Date.ofDayNumber?
  exact ⟨_, dif_pos (by split <;> omega)⟩

theorem dayNumber_of_dateOfWhole? (h : dateOfWhole? n = some d) :
    d.dayNumber = serialEpoch + if 60 ≤ n then n else n + 1 :=
  Date.ofDayNumber?_eq_some_iff.1 h

theorem serial_of_dateOfWhole? (h : dateOfWhole? n = some d) (hn : n ≠ 60) : d.serial = n := by
  have hnumber := dayNumber_of_dateOfWhole? h
  unfold Date.serial
  dsimp only
  split at hnumber <;> split <;> omega

/-- All whole serials in range but one are those of dates. -/
theorem exists_serial (hn : n ∈ Set.Icc firstSerial lastSerial) (hsixty : n ≠ 60) : ∃ d : Date, d.serial = n := by
  obtain ⟨d, hd⟩ := exists_dateOfWhole? hn
  exact ⟨d, serial_of_dateOfWhole? hd hsixty⟩

/-! ## Serials by months -/

/-- March 1900, from which on serials count a day too many. -/
def march1900 : ℤ := 12 * 1900 + 2

namespace Date

theorem lt_monthStart_iff {count : ℤ} : d.dayNumber < monthStart count ↔ d.monthCount < count := by
  have hlow := d.monthStart_le
  have hhigh := d.lt_monthStart
  constructor
  · intro h
    exact monthStart_strictMono.lt_iff_lt.1 (hlow.trans_lt h)
  · intro h
    exact hhigh.trans_le (monthStart_strictMono.monotone h)

theorem serial_eq (d : Date) : d.serial = d.dayNumber - serialEpoch - if d.monthCount < march1900 then 1 else 0 := by
  have hmarch : monthStart march1900 = serialEpoch + 61 := by decide
  have hmonth : d.dayNumber < monthStart march1900 ↔ d.monthCount < march1900 := d.lt_monthStart_iff
  unfold serial
  dsimp only
  split <;> split <;> omega

theorem serial_lt_iff : d.serial < e.serial ↔ d.dayNumber < e.dayNumber := by
  unfold serial
  dsimp only
  split <;> split <;> omega

/-- From March 1900 on serials count days one by one. -/
theorem serial_eq_of_le (h : 61 ≤ d.serial) (hle : d.dayNumber ≤ e.dayNumber) :
    e.serial = e.dayNumber - serialEpoch := by
  unfold serial at *
  dsimp only at *
  split at h <;> split <;> omega

theorem ext_serial (h : d.serial = e.serial) : d = e := by
  have hlt := serial_lt_iff (d := d) (e := e)
  have hgt := serial_lt_iff (d := e) (e := d)
  exact ext_dayNumber (by omega)

theorem serialNumber_lt_iff : d.serialNumber < e.serialNumber ↔ d.dayNumber < e.dayNumber := by
  rw [(represents_serialNumber d).lt_iff (represents_serialNumber e), Int.cast_lt, serial_lt_iff]

theorem monthCount_mem (d : Date) : 12 * firstYear ≤ d.monthCount ∧ d.monthCount < 12 * (lastYear + 1) := by
  have hfirst : monthStart (12 * firstYear) = daysBeforeYear firstYear + 1 := by decide
  have hlast : monthStart (12 * (lastYear + 1)) = daysBeforeYear (lastYear + 1) + 1 := by decide
  constructor
  · have hlow := d.first_le
    rw [← hfirst, ← Int.not_lt, lt_monthStart_iff] at hlow
    omega
  · have hhigh := d.le_last
    rw [← lt_monthStart_iff, hlast]
    omega

end Date

theorem Date.abs_monthCount_lt (d : Date) : |d.monthCount| < 2 ^ 22 := by
  have hvalues : 12 * firstYear = -3145716 ∧ 12 * (lastYear + 1) = 3145716 := by decide
  have hmonth := d.monthCount_mem
  rw [abs_lt]
  omega

theorem Date.abs_year_lt (d : Date) : |d.year| < 2 ^ 59 := by
  have hmonth := d.abs_monthCount_lt
  rw [d.year_eq]
  rw [abs_lt] at *
  omega

/-! ## First days of months -/

variable {year month day : ℤ}

theorem exists_firstOfMonth? (hyear : |year| < 2 ^ 59) (hfirst : 12 * firstYear ≤ 12 * year + (month - 1))
    (hlast : 12 * year + (month - 1) < 12 * (lastYear + 1)) : ∃ f, firstOfMonth? year month = some f := by
  have hvalues : 12 * firstYear = -3145716 ∧ 12 * (lastYear + 1) = 3145716 := by decide
  have hlow : monthStart (12 * firstYear) = daysBeforeYear firstYear + 1 := by decide
  have hhigh : monthStart (12 * (lastYear + 1)) = daysBeforeYear (lastYear + 1) + 1 := by decide
  have hfirst' := monthStart_strictMono.monotone hfirst
  have hlast' := monthStart_strictMono hlast
  have hfits : fits64 (12 * year) ∧ fits64 (12 * year + (month - 1)) := by
    rw [abs_lt] at hyear
    simp only [fits64, Bool.and_eq_true, decide_eq_true_eq]
    omega
  rw [firstOfMonth?_eq_ofDayNumber? hfits.1 hfits.2, Date.ofDayNumber?]
  exact ⟨_, dif_pos (by omega)⟩

/-- The first day of the month of a date. -/
theorem Date.exists_firstOfMonth? (d : Date) : ∃ f, Calendar.firstOfMonth? d.year d.month = some f ∧
    f.monthCount = d.monthCount ∧ f.dayNumber = d.dayNumber - (d.day - 1) := by
  have hmonth := d.monthCount_mem
  have hnumber := d.dayNumber_eq
  have hcount : 12 * d.year + ((d.month : ℤ) - 1) = d.monthCount := by
    unfold monthCount
    omega
  obtain ⟨f, hf⟩ := Calendar.exists_firstOfMonth? d.abs_year_lt (hcount ▸ hmonth.1) (hcount ▸ hmonth.2)
  have hstart := dayNumber_of_firstOfMonth? hf
  rw [hcount] at hstart
  exact ⟨f, hf, (monthCount_of_firstOfMonth? hf).1.trans hcount, by omega⟩

/-- A serial is that of the first day of the month, with the days after it. -/
theorem serialOfParts?_eq (h : firstOfMonth? year month = some f) (hday : |day| ≤ 2 ^ 52) :
    serialOfParts? year month day = some (Float.ofInt (f.serial + day - 1)) := by
  have hserial := abs_serial_lt f
  have hsum : f.serialNumber + Float.ofInt (day - 1) = Float.ofInt (f.serial + (day - 1)) := by
    rw [abs_lt] at hserial
    rw [abs_le] at hday
    exact ofInt_add (by rw [abs_lt]; omega) (by rw [abs_lt]; omega) (by rw [abs_lt]; omega)
  rw [serialOfParts?, h, Option.map_some, hsum, Int.add_sub_assoc]

theorem serialOfParts?_civil (d : Date) : serialOfParts? d.year d.month d.day = some d.serialNumber := by
  obtain ⟨f, hf, hmonth, hnumber⟩ := d.exists_firstOfMonth?
  have hday := d.day_le_monthLength.trans (monthLength_le _)
  have hserial : f.serial + d.day - 1 = d.serial := by
    rw [f.serial_eq, d.serial_eq, hmonth]
    omega
  rw [serialOfParts?_eq hf (by rw [abs_le]; omega), hserial]
  rfl

/-- The day after the 28 February 1900 has the serial that no date has. -/
theorem serialOfParts?_leapDay : serialOfParts? 1900 2 29 = some (Float.ofInt 60) := by
  obtain ⟨f, hf⟩ : ∃ f, firstOfMonth? 1900 2 = some f := exists_firstOfMonth? (by norm_num) (by decide) (by decide)
  have hnumber := dayNumber_of_firstOfMonth? hf
  have hstart : monthStart (12 * 1900 + (2 - 1)) = serialEpoch + 33 := by decide
  have hserial : f.serial = 32 := by
    unfold Date.serial
    dsimp only
    omega
  rw [serialOfParts?_eq hf (by norm_num), hserial]
  rfl

/-! ## What sheets show -/

theorem serialDate?_of_represents {x : Float} (hx : Represents x n) (hn : |n| < 2 ^ 32) :
    serialDate? x = dateOfWhole? n := by
  rw [serialDate?, splitSerial_of_represents hx hn]
  rfl

theorem serialCivil?_of_represents {x : Float} (hx : Represents x n) (hn : |n| < 2 ^ 32) :
    serialCivil? x = if n = 60 then some ⟨1900, 2, 29⟩ else (dateOfWhole? n).map Date.civil := by
  rw [serialCivil?, splitSerial_of_represents hx hn]
  rfl

theorem serialDate?_of_represents_serial {x : Float} (hx : Represents x d.serial) : serialDate? x = some d := by
  rw [serialDate?_of_represents hx ((abs_serial_lt d).trans (by norm_num)), dateOfWhole?_serial]

theorem serialDate?_serialNumber (d : Date) : serialDate? d.serialNumber = some d :=
  serialDate?_of_represents_serial (represents_serialNumber d)

theorem serialCivil?_serialNumber (d : Date) : serialCivil? d.serialNumber = some d.civil := by
  rw [serialCivil?_of_represents (represents_serialNumber d) ((abs_serial_lt d).trans (by norm_num)),
    if_neg (serial_ne_sixty d), dateOfWhole?_serial]
  rfl

theorem serialCivil?_sixty : serialCivil? (Float.ofInt 60) = some ⟨1900, 2, 29⟩ := by
  rw [serialCivil?_of_represents (represents_ofInt (by norm_num)) (by norm_num)]
  rfl

/-- Every date has a whole serial of its own, in the order of dates, and none has 60. A whole serial in range shows a
day whose parts make up the serial again: the day of its date, or for 60 the 29 February 1900, which is the day of no
date. -/
theorem serials_match_calendar :
    (∀ d : Date, serialDate? d.serialNumber = some d) ∧
    (∀ d e : Date, d.serialNumber < e.serialNumber ↔ d.dayNumber < e.dayNumber) ∧
    (∀ d : Date, d.serialNumber ≠ Float.ofInt 60) ∧
    (∀ n ∈ Set.Icc firstSerial lastSerial, ∃ c, serialCivil? (Float.ofInt n) = some c ∧
      serialOfParts? c.year c.month c.day = some (Float.ofInt n) ∧ (n = 60 → c = ⟨1900, 2, 29⟩) ∧
      (n ≠ 60 → ∃ d : Date, d.civil = c ∧ d.serialNumber = Float.ofInt n)) ∧
    ∀ d : Date, d.civil ≠ ⟨1900, 2, 29⟩ := by
  refine ⟨serialDate?_serialNumber, fun d e => Date.serialNumber_lt_iff, fun d h => ?_, fun n hn => ?_, fun d h => ?_⟩
  · have hserial := represents_serialNumber d
    rw [h] at hserial
    exact serial_ne_sixty d (by exact_mod_cast hserial.unique (represents_ofInt (z := 60) (by norm_num)))
  · by_cases hsixty : n = 60
    · subst hsixty
      exact ⟨⟨1900, 2, 29⟩, serialCivil?_sixty, serialOfParts?_leapDay, fun _ => rfl, fun h => absurd rfl h⟩
    · obtain ⟨d, rfl⟩ := exists_serial hn hsixty
      exact ⟨d.civil, serialCivil?_serialNumber d, serialOfParts?_civil d, fun h => absurd h hsixty,
        fun _ => ⟨d, rfl, rfl⟩⟩
  · have hdate := d.isDate_civil
    rw [h] at hdate
    exact absurd hdate (by decide)

/-- The day too many and the one after it. -/
theorem serials_match_calendar_march1900 : 60 ∈ Set.Icc firstSerial lastSerial ∧
    serialCivil? (Float.ofInt 60) = some ⟨1900, 2, 29⟩ ∧ serialOfParts? 1900 2 29 = some (Float.ofInt 60) ∧
    ∃ d : Date, d.serialNumber = Float.ofInt 61 ∧ serialDate? (Float.ofInt 61) = some d := by
  obtain ⟨hdates, -, -, hserials, -⟩ := serials_match_calendar
  obtain ⟨c, hshown, hparts, hsixty, -⟩ := hserials 60 (by decide)
  obtain rfl := hsixty rfl
  obtain ⟨c, -, -, -, hdate⟩ := hserials 61 (by decide)
  obtain ⟨d, -, hd⟩ := hdate (by decide)
  exact ⟨by decide, hshown, hparts, d, hd, hd ▸ hdates d⟩

end Spreadsheet.Calendar
