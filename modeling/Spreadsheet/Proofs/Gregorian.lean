import Spreadsheet.Calendar.Gregorian

/-!
# Days have one date

Years follow one another without gaps, and so do the months of a year. A number lies in one year and in one month of
it, so the date with a number can be found from the number.

* `daysBeforeYear_yearOfDay` : the year of a number;
* `monthOfDay_daysBeforeMonth` : the month and the day in it;
* `civilOfDay_dayNumber` : the date with the number of a date;
* `isDate_civilOfDay`, `dayNumber_civilOfDay` : every number has a date, and is the number of it;
* `Date.exists_of_isDate` : the dates of all years in range.
-/

namespace Spreadsheet.Calendar

/-! ## Years -/

theorem isLeap_iff (y : Int) : isLeap y ↔ y % 4 = 0 ∧ (y % 100 ≠ 0 ∨ y % 400 = 0) := by
  simp [isLeap]

def daysInYear (leap : Bool) : Nat := if leap then 366 else 365

theorem daysBeforeYear_succ (y : Int) : daysBeforeYear (y + 1) = daysBeforeYear y + daysInYear (isLeap y) := by
  have hleap := isLeap_iff y
  unfold daysBeforeYear daysInYear
  split
  · rename_i h
    rw [h] at hleap
    have := hleap.1 rfl
    omega
  · rename_i h
    have : ¬(y % 4 = 0 ∧ (y % 100 ≠ 0 ∨ y % 400 = 0)) := fun hy => h (hleap.2 hy)
    omega

theorem daysBeforeYear_mono {y z : Int} (h : y ≤ z) : daysBeforeYear y ≤ daysBeforeYear z := by
  unfold daysBeforeYear
  omega

/-- A number lies after the days before its year, and not after those before the next one. -/
theorem daysBeforeYear_yearOfDay (n : Int) :
    daysBeforeYear (yearOfDay n) < n ∧ n ≤ daysBeforeYear (yearOfDay n + 1) := by
  have hestimate : daysBeforeYear (400 * (n - 1) / 146097) < n ∧
      n ≤ daysBeforeYear (400 * (n - 1) / 146097 + 1 + 1 + 1) := by
    unfold daysBeforeYear
    omega
  unfold yearOfDay
  dsimp only
  split
  · rename_i h
    rw [Int.sub_add_cancel, Int.add_sub_cancel]
    exact ⟨hestimate.1, h⟩
  · split
    · rename_i h
      exact ⟨h, hestimate.2⟩
    · rename_i hlow hhigh
      exact ⟨by omega, by omega⟩

theorem yearOfDay_eq {y n : Int} (hlow : daysBeforeYear y < n) (hhigh : n ≤ daysBeforeYear (y + 1)) :
    yearOfDay n = y := by
  obtain ⟨hlow', hhigh'⟩ := daysBeforeYear_yearOfDay n
  have hle : ¬y + 1 ≤ yearOfDay n := fun h => by
    have := daysBeforeYear_mono h
    omega
  have hge : ¬yearOfDay n + 1 ≤ y := fun h => by
    have := daysBeforeYear_mono h
    omega
  omega

/-! ## Months -/

theorem le_daysInMonth (leap : Bool) (month : Nat) : 28 ≤ daysInMonth leap month := by
  unfold daysInMonth
  split
  · cases leap <;> decide
  all_goals decide

theorem daysInMonth_le (leap : Bool) (month : Nat) : daysInMonth leap month ≤ 31 := by
  unfold daysInMonth
  split
  · cases leap <;> decide
  all_goals decide

theorem daysBeforeMonth_succ (leap : Bool) {month : Nat} (h : 1 ≤ month) :
    daysBeforeMonth leap (month + 1) = daysBeforeMonth leap month + daysInMonth leap month := by
  obtain ⟨m, rfl⟩ : ∃ m, month = m + 1 := ⟨month - 1, by omega⟩
  rfl

theorem daysBeforeMonth_mono (leap : Bool) {month later : Nat} (hmonth : 1 ≤ month) (h : month ≤ later) :
    daysBeforeMonth leap month ≤ daysBeforeMonth leap later := by
  induction h with
  | refl => exact Nat.le_refl _
  | @step later hle ih =>
    rw [daysBeforeMonth_succ leap (Nat.le_trans hmonth hle)]
    omega

theorem daysBeforeMonth_year (leap : Bool) : daysBeforeMonth leap 13 = daysInYear leap := by
  cases leap <;> rfl

/-- The month is found where the days of those before it are used up. -/
theorem monthOfDay_daysBeforeMonth (leap : Bool) {first month day later : Nat} (hfirst : 1 ≤ first)
    (hle : first ≤ month) (hmonth : month ≤ first + later) (hday : 1 ≤ day) (hlast : day ≤ daysInMonth leap month) :
    monthOfDay leap first (daysBeforeMonth leap month - daysBeforeMonth leap first + day) later = (month, day) := by
  induction later generalizing first with
  | zero =>
    obtain rfl : first = month := by omega
    rw [monthOfDay, Nat.sub_self, Nat.zero_add]
  | succ later ih =>
    rw [monthOfDay]
    rcases Nat.eq_or_lt_of_le hle with rfl | hlt
    · rw [Nat.sub_self, Nat.zero_add, if_pos hlast]
    · have hnext := daysBeforeMonth_succ leap hfirst
      have hbefore := daysBeforeMonth_mono leap (Nat.le_add_left 1 first) hlt
      have hrest : daysBeforeMonth leap month - daysBeforeMonth leap first + day - daysInMonth leap first =
          daysBeforeMonth leap month - daysBeforeMonth leap (first + 1) + day := by omega
      rw [if_neg (by omega), hrest]
      exact ih (Nat.le_add_left 1 first) hlt (by omega)

/-- A day of some months lies in one of them. -/
theorem daysInMonth_monthOfDay (leap : Bool) {first n later month day : Nat} (hfirst : 1 ≤ first) (hn : 1 ≤ n)
    (hlast : daysBeforeMonth leap first + n ≤ daysBeforeMonth leap (first + later + 1))
    (h : monthOfDay leap first n later = (month, day)) :
    first ≤ month ∧ month ≤ first + later ∧ 1 ≤ day ∧ day ≤ daysInMonth leap month := by
  have hnext := daysBeforeMonth_succ leap hfirst
  induction later generalizing first n with
  | zero =>
    cases h
    rw [Nat.add_zero] at hlast
    exact ⟨Nat.le_refl _, Nat.le_refl _, hn, by omega⟩
  | succ later ih =>
    rw [monthOfDay] at h
    split at h
    · rename_i hday
      cases h
      exact ⟨Nat.le_refl _, Nat.le_add_right _ _, hn, hday⟩
    · rw [show first + (later + 1) + 1 = first + 1 + later + 1 by omega] at hlast
      obtain ⟨hle, hmonth, hday⟩ := ih (Nat.le_add_left 1 first) (by omega) (by omega) h
        (daysBeforeMonth_succ leap (Nat.le_add_left 1 first))
      exact ⟨by omega, by omega, hday⟩

/-- The days before the month that is found, and those up to the day in it, are all the days. -/
theorem daysBeforeMonth_monthOfDay (leap : Bool) {first n later month day : Nat} (hfirst : 1 ≤ first)
    (h : monthOfDay leap first n later = (month, day)) :
    daysBeforeMonth leap month + day = daysBeforeMonth leap first + n := by
  induction later generalizing first n with
  | zero =>
    cases h
    rfl
  | succ later ih =>
    rw [monthOfDay] at h
    split at h
    · cases h
      rfl
    · have hrest := ih (Nat.le_add_left 1 first) h
      rw [daysBeforeMonth_succ leap hfirst] at hrest
      omega

/-! ## Dates -/

/-- The number of a date lies among those of its year. -/
theorem Civil.IsDate.dayNumber_mem {c : Civil} (h : c.IsDate) :
    daysBeforeYear c.year < c.dayNumber ∧ c.dayNumber ≤ daysBeforeYear (c.year + 1) := by
  obtain ⟨hfirst, hlast, hday, hdays⟩ := h
  have hmonth := daysBeforeMonth_succ (isLeap c.year) hfirst
  have hyear := daysBeforeMonth_mono (isLeap c.year) (Nat.le_add_left 1 c.month) (Nat.succ_le_succ hlast)
  rw [daysBeforeMonth_year] at hyear
  rw [daysBeforeYear_succ]
  unfold Civil.dayNumber
  omega

/-- A date is the one that its number stands for. -/
theorem civilOfDay_dayNumber {c : Civil} (h : c.IsDate) : civilOfDay c.dayNumber = c := by
  have hnumber := h.dayNumber_mem
  obtain ⟨hfirst, hlast, hday, hdays⟩ := h
  have hstart : daysBeforeMonth (isLeap c.year) 1 = 0 := rfl
  have hfound : yearOfDay c.dayNumber = c.year := yearOfDay_eq hnumber.1 hnumber.2
  have hrest : (c.dayNumber - daysBeforeYear c.year).toNat =
      daysBeforeMonth (isLeap c.year) c.month - daysBeforeMonth (isLeap c.year) 1 + c.day := by
    unfold Civil.dayNumber
    omega
  rw [civilOfDay]
  simp only [hfound, hrest, monthOfDay_daysBeforeMonth (isLeap c.year) (Nat.le_refl 1) hfirst
    (show c.month ≤ 1 + 11 by omega) hday hdays]

theorem isDate_civilOfDay (n : Int) : (civilOfDay n).IsDate := by
  obtain ⟨hlow, hhigh⟩ := daysBeforeYear_yearOfDay n
  rw [daysBeforeYear_succ, ← daysBeforeMonth_year] at hhigh
  have hbefore : daysBeforeMonth (isLeap (yearOfDay n)) 1 + (n - daysBeforeYear (yearOfDay n)).toNat ≤
      daysBeforeMonth (isLeap (yearOfDay n)) (1 + 11 + 1) := by
    change 0 + _ ≤ daysBeforeMonth _ 13
    omega
  have hpos : 1 ≤ (n - daysBeforeYear (yearOfDay n)).toNat := by omega
  exact daysInMonth_monthOfDay (isLeap (yearOfDay n)) (Nat.le_refl 1) hpos hbefore rfl

theorem dayNumber_civilOfDay (n : Int) : (civilOfDay n).dayNumber = n := by
  have hlow := (daysBeforeYear_yearOfDay n).1
  have hdays : daysBeforeMonth (isLeap (yearOfDay n)) (civilOfDay n).month + (civilOfDay n).day =
      daysBeforeMonth (isLeap (yearOfDay n)) 1 + (n - daysBeforeYear (yearOfDay n)).toNat :=
    daysBeforeMonth_monthOfDay _ (Nat.le_refl 1) (show monthOfDay _ 1 _ 11 = _ from rfl)
  have hstart : daysBeforeMonth (isLeap (yearOfDay n)) 1 = 0 := rfl
  have hnumber : (civilOfDay n).dayNumber = daysBeforeYear (yearOfDay n) +
      daysBeforeMonth (isLeap (yearOfDay n)) (civilOfDay n).month + (civilOfDay n).day := rfl
  omega

theorem Date.exists_of_isDate {c : Civil} (h : c.IsDate) (hfirst : firstYear ≤ c.year) (hlast : c.year ≤ lastYear) :
    ∃ d, ofCivil? c = some d ∧ d.dayNumber = c.dayNumber := by
  obtain ⟨hlow, hhigh⟩ := h.dayNumber_mem
  have hfirst' := daysBeforeYear_mono hfirst
  have hlast' := daysBeforeYear_mono (show c.year + 1 ≤ lastYear + 1 by omega)
  refine ⟨⟨c.dayNumber, by omega, by omega⟩, ?_, rfl⟩
  rw [ofCivil?, if_pos h, ofDayNumber?, dif_pos ⟨by omega, by omega⟩]

theorem Date.civil_of_ofCivil? {c : Civil} {d : Date} (h : Date.ofCivil? c = some d) : d.civil = c := by
  unfold ofCivil? ofDayNumber? at h
  split at h
  · rename_i hdate
    split at h
    · cases h
      exact civilOfDay_dayNumber hdate
    · cases h
  · cases h

end Spreadsheet.Calendar
