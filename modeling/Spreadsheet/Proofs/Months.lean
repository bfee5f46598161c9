import Mathlib
import Spreadsheet.Calendar.Serial
import Spreadsheet.Proofs.Gregorian

/-!
# Months counted through

With the months counted through from January of the year `0`, neither the end of a year nor the sign of a shift needs a
rule of its own: the days of the calendar are cut into months that follow one another, and a date is a month and a day
that the month has.

* `monthStart`, `monthLength` : the first day of a month and its length; `monthStart_succ`, `monthStart_strictMono`;
* `Date.dayNumber_eq`, `Date.monthCount_eq` : the month and the day of a date, and the month of a day;
* `firstOfMonth?_eq_ofDayNumber?` : the first day of a month that may lie outside its year;
* `Date.shifted`, `Date.addMonths?_eq` : the same day some months later; `Date.shifted_strictMono`.
-/

namespace Spreadsheet.Calendar

/-- The number of the first day of a month. -/
def monthStart (count : Int) : Int := Civil.dayNumber ⟨count / 12, (count % 12).toNat + 1, 1⟩

def monthLength (count : Int) : Nat := daysInMonth (isLeap (count / 12)) ((count % 12).toNat + 1)

theorem le_monthLength (count : Int) : 28 ≤ monthLength count := le_daysInMonth _ _

theorem monthLength_le (count : Int) : monthLength count ≤ 31 := daysInMonth_le _ _

theorem monthStart_eq (count : Int) : monthStart count =
    daysBeforeYear (count / 12) + daysBeforeMonth (isLeap (count / 12)) ((count % 12).toNat + 1) + 1 := rfl

/-- Months follow one another without gaps, also across the end of a year. -/
theorem monthStart_succ (count : Int) : monthStart (count + 1) = monthStart count + monthLength count := by
  have hbefore := daysBeforeMonth_succ (isLeap (count / 12)) (Nat.le_add_left 1 (count % 12).toNat)
  rw [monthStart_eq, monthStart_eq, monthLength]
  by_cases hlast : count % 12 = 11
  · have hyear : (count + 1) / 12 = count / 12 + 1 := by omega
    have hmonth : ((count + 1) % 12).toNat = 0 := by omega
    have hdecember : (count % 12).toNat + 1 = 12 := by omega
    have hjanuary : daysBeforeMonth (isLeap (count / 12 + 1)) (0 + 1) = 0 := rfl
    rw [hdecember] at hbefore ⊢
    rw [hyear, hmonth, hjanuary, daysBeforeYear_succ, ← daysBeforeMonth_year, hbefore]
    omega
  · have hyear : (count + 1) / 12 = count / 12 := by omega
    have hmonth : ((count + 1) % 12).toNat = (count % 12).toNat + 1 := by omega
    rw [hyear, hmonth, hbefore]
    omega

theorem monthStart_strictMono : StrictMono monthStart := by
  refine strictMono_int_of_lt_succ fun count => ?_
  have hlength := le_monthLength count
  rw [monthStart_succ]
  omega

/-- A day lies in one month. -/
theorem month_unique {n count other : Int} (hlow : monthStart count ≤ n) (hhigh : n < monthStart (count + 1))
    (hlow' : monthStart other ≤ n) (hhigh' : n < monthStart (other + 1)) : count = other := by
  have hlt := monthStart_strictMono.lt_iff_lt.1 (hlow.trans_lt hhigh')
  have hgt := monthStart_strictMono.lt_iff_lt.1 (hlow'.trans_lt hhigh)
  omega

/-! ## Dates -/

namespace Date

variable (d : Date)

theorem isDate_civil : d.civil.IsDate := isDate_civilOfDay d.dayNumber

theorem year_eq : d.year = d.monthCount / 12 := by
  have hmonth := d.isDate_civil
  unfold Civil.IsDate at hmonth
  unfold monthCount month
  omega

theorem month_eq : d.month = (d.monthCount % 12).toNat + 1 := by
  have hmonth := d.isDate_civil
  unfold Civil.IsDate at hmonth
  unfold monthCount month
  omega

theorem one_le_day : 1 ≤ d.day := d.isDate_civil.2.2.1

theorem day_le_monthLength : d.day ≤ monthLength d.monthCount := by
  rw [monthLength, ← d.year_eq, ← d.month_eq]
  exact d.isDate_civil.2.2.2

/-- A date is a month and a day of it. -/
theorem dayNumber_eq : d.dayNumber = monthStart d.monthCount + d.day - 1 := by
  have hnumber : daysBeforeYear d.year + daysBeforeMonth (isLeap d.year) d.month + d.day = d.dayNumber :=
    dayNumber_civilOfDay d.dayNumber
  rw [monthStart_eq, ← d.year_eq, ← d.month_eq]
  omega

theorem monthStart_le : monthStart d.monthCount ≤ d.dayNumber := by
  have hday := d.one_le_day
  rw [d.dayNumber_eq]
  omega

theorem lt_monthStart : d.dayNumber < monthStart (d.monthCount + 1) := by
  have hday := d.day_le_monthLength
  rw [d.dayNumber_eq, monthStart_succ]
  omega

variable {d} {count : Int} {day : Nat}

theorem monthCount_eq (h : d.dayNumber = monthStart count + day - 1) (hfirst : 1 ≤ day)
    (hlast : day ≤ monthLength count) : d.monthCount = count := by
  have hnext := monthStart_succ count
  exact month_unique d.monthStart_le d.lt_monthStart (by omega) (by omega)

theorem day_eq (h : d.dayNumber = monthStart count + day - 1) (hfirst : 1 ≤ day)
    (hlast : day ≤ monthLength count) : d.day = day := by
  have hnumber := d.dayNumber_eq
  rw [monthCount_eq h hfirst hlast] at hnumber
  omega

theorem ext_dayNumber {d e : Date} (h : d.dayNumber = e.dayNumber) : d = e := by
  cases d
  cases e
  cases h
  rfl

theorem ofDayNumber?_eq_some_iff {n : Int} : ofDayNumber? n = some d ↔ d.dayNumber = n := by
  unfold ofDayNumber?
  constructor
  · intro h
    split at h
    · cases h
      rfl
    · cases h
  · rintro rfl
    rw [dif_pos ⟨d.first_le, d.le_last⟩]

end Date

/-! ## First days -/

variable {year month : Int} {f : Date}

/-- Year and month only matter as the month that they count up to. -/
theorem firstOfMonth?_eq_ofDayNumber? (hyear : fits64 (12 * year)) (hmonth : fits64 (12 * year + (month - 1))) :
    firstOfMonth? year month = Date.ofDayNumber? (monthStart (12 * year + (month - 1))) := by
  have hdate : Civil.IsDate ⟨(12 * year + (month - 1)) / 12, ((12 * year + (month - 1)) % 12).toNat + 1, 1⟩ := by
    have hlength := le_monthLength (12 * year + (month - 1))
    unfold monthLength at hlength
    unfold Civil.IsDate
    dsimp only
    omega
  rw [firstOfMonth?, hyear, hmonth]
  exact if_pos hdate

theorem dayNumber_of_firstOfMonth? (h : firstOfMonth? year month = some f) :
    f.dayNumber = monthStart (12 * year + (month - 1)) := by
  have hfits : fits64 (12 * year) && fits64 (12 * year + (month - 1)) := by
    by_contra hfits
    rw [firstOfMonth?, if_neg hfits] at h
    cases h
  rw [Bool.and_eq_true] at hfits
  rw [firstOfMonth?_eq_ofDayNumber? hfits.1 hfits.2] at h
  exact Date.ofDayNumber?_eq_some_iff.1 h

theorem monthCount_of_firstOfMonth? (h : firstOfMonth? year month = some f) :
    f.monthCount = 12 * year + (month - 1) ∧ f.day = 1 := by
  have hlength := le_monthLength (12 * year + (month - 1))
  have hnumber : f.dayNumber = monthStart (12 * year + (month - 1)) + (1 : Nat) - 1 := by
    rw [dayNumber_of_firstOfMonth? h]
    omega
  exact ⟨Date.monthCount_eq hnumber le_rfl (by omega), Date.day_eq hnumber le_rfl (by omega)⟩

/-! ## Shifts by months -/

namespace Date

/-- The number of the day `months` later, or of the last one of a shorter month. -/
def shifted (d : Date) (months : Int) : Int :=
  monthStart (d.monthCount + months) + min d.day (monthLength (d.monthCount + months)) - 1

variable (d : Date) {months : Int}

theorem addMonths?_eq (months : Int) : d.addMonths? months = ofDayNumber? (d.shifted months) := by
  have hday := d.one_le_day
  have hlength := le_monthLength (d.monthCount + months)
  have hdate : Civil.IsDate ⟨(d.monthCount + months) / 12, ((d.monthCount + months) % 12).toNat + 1,
      min d.day (monthLength (d.monthCount + months))⟩ := by
    unfold monthLength at *
    unfold Civil.IsDate
    dsimp only
    omega
  have hnumber : Civil.dayNumber ⟨(d.monthCount + months) / 12, ((d.monthCount + months) % 12).toNat + 1,
      min d.day (monthLength (d.monthCount + months))⟩ = d.shifted months := by
    unfold shifted
    rw [monthStart_eq]
    unfold Civil.dayNumber
    dsimp only
    omega
  rw [← hnumber]
  exact if_pos hdate

theorem shifted_zero : d.shifted 0 = d.dayNumber := by
  have hday := d.day_le_monthLength
  rw [shifted, Int.add_zero, min_eq_left hday, d.dayNumber_eq]

/-- A later month has later days. -/
theorem shifted_strictMono : StrictMono d.shifted := by
  intro months later h
  have hday := d.one_le_day
  have hlength := le_monthLength (d.monthCount + later)
  have hnext := monthStart_succ (d.monthCount + months)
  have hstart := monthStart_strictMono.monotone (show d.monthCount + months + 1 ≤ d.monthCount + later by omega)
  unfold shifted
  omega

/-- Every month has a day. -/
theorem add_le_shifted (k : Nat) : d.dayNumber + k ≤ d.shifted k := by
  induction k with
  | zero => exact (d.shifted_zero.trans (Int.add_zero _).symm).ge
  | succ k ih =>
    have hnext := d.shifted_strictMono (Int.lt_succ k)
    push_cast
    omega

variable {d} {e : Date}

theorem monthCount_of_addMonths? (h : d.addMonths? months = some e) : e.monthCount = d.monthCount + months := by
  have hday := d.one_le_day
  have hlength := le_monthLength (d.monthCount + months)
  rw [addMonths?_eq] at h
  exact monthCount_eq (ofDayNumber?_eq_some_iff.1 h) (by omega) (min_le_right _ _)

theorem day_of_addMonths? (h : d.addMonths? months = some e) :
    e.day = min d.day (monthLength (d.monthCount + months)) := by
  have hday := d.one_le_day
  have hlength := le_monthLength (d.monthCount + months)
  rw [addMonths?_eq] at h
  exact day_eq (ofDayNumber?_eq_some_iff.1 h) (by omega) (min_le_right _ _)

end Date

end Spreadsheet.Calendar
