import Spreadsheet.Proofs.DateArguments

/-!
# How far dates are apart

Whole months are counted by comparing days of the month, while the days beyond them are counted from a day that may have
been moved to the end of a shorter month. Both agree: moved by the whole months a date does not come past the other one,
and moved by one month more it does not stay before it, so that less than a month is left, and beyond whole years less
than a year.

* `Date.shifted_addYear_le` : a year has at most 366 days, and at most 365 where a leap day has to give way;
* `wholeMonths_eq`, `shifted_wholeMonths_le`, `le_shifted_wholeMonths` : between which shifts the other date lies;
* `distances_decompose` : the units of `DATEDIF` make up the distance.
-/

namespace Spreadsheet

namespace Calendar

/-! ## A year on -/

theorem daysBeforeMonth_nextYear : ∀ leap next : Bool, ∀ month < 12,
    daysInYear leap + daysBeforeMonth next (month + 1) ≤ daysBeforeMonth leap (month + 1) + 366 := by
  decide

theorem daysBeforeMonth_nextYear_of_shorter : ∀ first leap next : Bool, ∀ month < 12,
    daysInMonth next (month + 1) < daysInMonth first (month + 1) →
    daysInMonth leap (month + 1) ≤ daysInMonth next (month + 1) →
    daysInYear leap + daysBeforeMonth next (month + 1) + daysInMonth next (month + 1) ≤
      daysBeforeMonth leap (month + 1) + daysInMonth leap (month + 1) + 365 := by
  decide

variable {first count : ℤ}

theorem monthStart_addYear (count : ℤ) :
    monthStart (count + 12) + daysBeforeMonth (isLeap (count / 12)) ((count % 12).toNat + 1) =
      monthStart count + (daysInYear (isLeap (count / 12)) +
        daysBeforeMonth (isLeap (count / 12 + 1)) ((count % 12).toNat + 1) : ℕ) := by
  have hyear : (count + 12) / 12 = count / 12 + 1 := by omega
  have hmonth : (count + 12) % 12 = count % 12 := by omega
  rw [monthStart_eq, monthStart_eq, hyear, hmonth, daysBeforeYear_succ]
  omega

theorem monthLength_addYear (count : ℤ) :
    monthLength (count + 12) = daysInMonth (isLeap (count / 12 + 1)) ((count % 12).toNat + 1) := by
  have hyear : (count + 12) / 12 = count / 12 + 1 := by omega
  have hmonth : (count + 12) % 12 = count % 12 := by omega
  rw [monthLength, hyear, hmonth]

theorem monthStart_addYear_le (count : ℤ) : monthStart (count + 12) ≤ monthStart count + 366 := by
  have hdays := daysBeforeMonth_nextYear (isLeap (count / 12)) (isLeap (count / 12 + 1)) (count % 12).toNat (by omega)
  have hstart := monthStart_addYear count
  omega

/-- A month that is shorter than it once was, and not shorter than the year before, is a February without a leap day,
and so is the one the year before. -/
theorem monthStart_addYear_of_shorter (hsame : count % 12 = first % 12)
    (hshorter : monthLength (count + 12) < monthLength first) (hle : monthLength count ≤ monthLength (count + 12)) :
    monthStart (count + 12) + monthLength (count + 12) ≤ monthStart count + monthLength count + 365 := by
  have hstart := monthStart_addYear count
  rw [monthLength_addYear] at *
  unfold monthLength at *
  rw [← hsame] at hshorter
  have hdays := daysBeforeMonth_nextYear_of_shorter (isLeap (first / 12)) (isLeap (count / 12))
    (isLeap (count / 12 + 1)) (count % 12).toNat (by omega) hshorter hle
  omega

/-- From one year to the next a day moves on by 366 days, or less where it is moved to the end of the month. -/
theorem Date.shifted_addYear_le (d : Date) {months : ℤ} (hyears : months % 12 = 0) : d.shifted (months + 12) ≤
    d.shifted months + if monthLength (d.monthCount + months + 12) < d.day then 365 else 366 := by
  have hday := d.day_le_monthLength
  have hstart := monthStart_addYear_le (d.monthCount + months)
  have hend := monthStart_addYear_le (d.monthCount + months + 1)
  rw [Int.add_right_comm, monthStart_succ, monthStart_succ] at hend
  unfold shifted
  rw [← Int.add_assoc]
  split
  · -- only a leap day comes to a month of its name that is too short for it
    rename_i hshorter
    have hshort := monthStart_addYear_of_shorter (show (d.monthCount + months) % 12 = d.monthCount % 12 by omega)
      (by omega)
    omega
  · omega

end Calendar

namespace DateFunction

open Binary64 (Represents represents_ofInt represents_ofInt_sub)
open Calendar (Date monthLength monthLength_le monthStart_succ)

variable {start finish : Date} {months : ℤ}

/-! ## Whole months -/

theorem wholeMonths_eq (start finish : Date) : wholeMonths start finish =
    finish.monthCount - start.monthCount - if finish.day < start.day then 1 else 0 := by
  unfold wholeMonths Date.monthCount
  dsimp only
  split <;> omega

/-- Less than a month is left beyond the whole months. -/
theorem shifted_wholeMonths_le (start finish : Date) :
    start.shifted (wholeMonths start finish) ≤ finish.dayNumber ∧
      finish.dayNumber ≤ start.shifted (wholeMonths start finish) + 30 := by
  have hnumber := finish.dayNumber_eq
  have hday := finish.day_le_monthLength
  have hfirst := start.one_le_day
  have hlength := monthLength_le finish.monthCount
  have hlast := start.day_le_monthLength.trans (monthLength_le _)
  unfold Date.shifted
  rw [wholeMonths_eq]
  split
  · have hcount : start.monthCount + (finish.monthCount - start.monthCount - 1) = finish.monthCount - 1 := by ring
    have hnext := monthStart_succ (finish.monthCount - 1)
    have hbefore := monthLength_le (finish.monthCount - 1)
    rw [Int.sub_add_cancel] at hnext
    rw [hcount]
    omega
  · have hcount : start.monthCount + (finish.monthCount - start.monthCount - 0) = finish.monthCount := by ring
    rw [hcount]
    omega

/-- One month more comes to the other date or past it, and just to it only by stopping at the end of the month. -/
theorem le_shifted_wholeMonths (start finish : Date) :
    finish.dayNumber ≤ start.shifted (wholeMonths start finish + 1) ∧
      (finish.dayNumber = start.shifted (wholeMonths start finish + 1) →
        monthLength (start.monthCount + (wholeMonths start finish + 1)) < start.day) := by
  have hnumber := finish.dayNumber_eq
  have hday := finish.day_le_monthLength
  have hfirst := start.one_le_day
  unfold Date.shifted
  rw [wholeMonths_eq]
  split
  · have hcount : start.monthCount + (finish.monthCount - start.monthCount - 1 + 1) = finish.monthCount := by ring
    rw [hcount]
    omega
  · have hcount : start.monthCount + (finish.monthCount - start.monthCount - 0 + 1) = finish.monthCount + 1 := by ring
    have hnext := monthStart_succ finish.monthCount
    have hlength := Calendar.le_monthLength (finish.monthCount + 1)
    rw [hcount]
    omega

theorem wholeMonths_nonneg (h : start.dayNumber ≤ finish.dayNumber) : 0 ≤ wholeMonths start finish := by
  have hstart := start.dayNumber_eq
  have hfinish := finish.dayNumber_eq
  have hmonth : start.monthCount ≤ finish.monthCount := by
    by_contra hbefore
    have hlt := Date.lt_monthStart_iff.2 (Int.not_le.1 hbefore)
    have hle := start.monthStart_le
    omega
  rw [wholeMonths_eq]
  split
  · have hne : start.monthCount ≠ finish.monthCount := fun hsame => by
      rw [hsame] at hstart
      omega
    omega
  · omega

theorem wholeMonths_le (h : start.dayNumber ≤ finish.dayNumber) :
    wholeMonths start finish ≤ finish.dayNumber - start.dayNumber := by
  have hmonths := start.add_le_shifted (wholeMonths start finish).toNat
  rw [Int.toNat_of_nonneg (wholeMonths_nonneg h)] at hmonths
  have hbound := (shifted_wholeMonths_le start finish).1
  omega

/-- Less than a year is left beyond the whole years. -/
theorem le_shifted_wholeYears (start finish : Date) :
    finish.dayNumber ≤ start.shifted (wholeMonths start finish / 12 * 12) + 365 := by
  obtain ⟨hle, hend⟩ := le_shifted_wholeMonths start finish
  have hyear := start.shifted_addYear_le (Int.mul_emod_left (wholeMonths start finish / 12) 12)
  have hmonth : wholeMonths start finish + 1 ≤ wholeMonths start finish / 12 * 12 + 12 := by omega
  -- the month that would make up the year comes past the other date, unless it is cut short a day before
  rcases hmonth.eq_or_lt with hsame | hless
  · rw [hsame] at hle hend
    rw [← Int.add_assoc] at hend
    split at hyear <;> omega
  · have hbefore := start.shifted_strictMono hless
    split at hyear <;> omega

/-- On the way to the other date a date stays in the calendar. -/
theorem exists_addMonths? (hzero : 0 ≤ months) (hle : months ≤ wholeMonths start finish) : ∃ e,
    start.addMonths? months = some e ∧ e.dayNumber = start.shifted months ∧ start.dayNumber ≤ e.dayNumber ∧
      e.dayNumber ≤ finish.dayNumber := by
  have hstart := start.shifted_strictMono.monotone hzero
  have hfinish := start.shifted_strictMono.monotone hle
  have hbound := (shifted_wholeMonths_le start finish).1
  have hfirst := start.first_le
  have hlast := finish.le_last
  rw [start.shifted_zero] at hstart
  have hmoved : Date.ofDayNumber? (start.shifted months) = some ⟨start.shifted months, by omega, by omega⟩ :=
    dif_pos ⟨by omega, by omega⟩
  exact ⟨_, (start.addMonths?_eq months).trans hmoved, rfl, hstart, hfinish.trans hbound⟩

/-! ## Units -/

theorem daysAfterMonths_eq {e : Date} (h : start.addMonths? months = some e) :
    daysAfterMonths start finish months = .ok (finish.dayNumber - e.dayNumber) := by
  rw [daysAfterMonths, h]
  rfl

variable {v w : Value} {n m days : ℤ} {code : String} {unit : Unit}

theorem toInt64Range_sub {x y : Float} (hx : Represents x start.serial) (hy : Represents y finish.serial)
    (hpos : 0 < start.serial) (hle : start.serial ≤ finish.serial) :
    Binary64.toInt64Range (y - x) = finish.serial - start.serial := by
  have hstart := Calendar.abs_serial_lt start
  have hfinish := Calendar.abs_serial_lt finish
  obtain rfl : x = Float.ofInt start.serial :=
    hx.eq_of_ne_zero (represents_ofInt (hstart.trans (by norm_num))) (by exact_mod_cast hpos.ne')
  obtain rfl : y = Float.ofInt finish.serial :=
    hy.eq_of_ne_zero (represents_ofInt (hfinish.trans (by norm_num))) (by exact_mod_cast (hpos.trans_le hle).ne')
  rw [abs_lt] at hstart hfinish
  have hdifference := represents_ofInt_sub (a := finish.serial) (b := start.serial) (by rw [abs_lt]; omega)
    (by rw [abs_lt]; omega) (by rw [abs_lt]; omega)
  exact hdifference.toInt64Range (by rw [abs_lt]; omega)

theorem gives_dateDifference [RegexLibrary] (hv : v.Holds start.serial) (hw : w.Holds finish.serial)
    (hpos : 0 < start.serial)
    (hle : start.serial ≤ finish.serial) (hunit : unitOf? code = some unit)
    (h : distance start finish (finish.serial - start.serial) unit = .ok days) :
    Gives "DATEDIF" [v, w, .text code] (.ofInt days) := by
  obtain ⟨x, rfl, hx⟩ := hv
  obtain ⟨y, rfl, hy⟩ := hw
  refine Iff.mpr (gives_iff_of_getElem? (j := 2) rfl (Nat.le_refl 3) (Nat.le_refl 3) rfl) fun s => ?_
  have hstart : serialArg s [.number x, .number y, .text code] 0 = .ok x :=
    (serialArg_eq rfl hx).trans (if_neg (by omega))
  have hfinish : serialArg s [.number x, .number y, .text code] 1 = .ok y :=
    (serialArg_eq rfl hy).trans (if_neg (by omega))
  have hcode : textArg [.number x, .number y, .text code] 2 = .ok code := rfl
  have horder : ¬Binary64.truncate y < Binary64.truncate x := by
    rw [hy.truncate.lt_iff hx.truncate]
    exact_mod_cast Int.not_lt.2 hle
  rw [dateDifference, hstart, ok_bind, hfinish, ok_bind, hcode, ok_bind]
  dsimp only
  rw [if_neg horder, Calendar.serialDate?_of_represents_serial hx.truncate,
    Calendar.serialDate?_of_represents_serial hy.truncate, hunit, toInt64Range_sub hx.truncate hy.truncate hpos hle]
  show (distance start finish (finish.serial - start.serial) unit >>= fun days => .ok (intResult days)) = _
  rw [h]
  rfl

/-- The days beyond some of the months are counted from where `EDATE` comes to. -/
theorem exists_sameDay [RegexLibrary] (hv : v.Holds start.serial) (hfirst : 61 ≤ start.serial) (hzero : 0 ≤ months)
    (hmonths : months ≤ wholeMonths start finish) : ∃ t, daysAfterMonths start finish months = .ok (finish.serial - t) ∧
      finish.serial - t = finish.dayNumber - start.shifted months ∧
      (months ≤ 10 ^ 6 → Gives "EDATE" [v, .ofInt months] (.ofInt t)) := by
  obtain ⟨x, rfl, hx⟩ := hv
  obtain ⟨e, he, hnumber, hstart, hfinish⟩ := exists_addMonths? hzero hmonths
  have hserial := Date.serial_eq_of_le hfirst hstart
  have hserial' := Date.serial_eq_of_le hfirst (hstart.trans hfinish)
  have hdays : finish.dayNumber - e.dayNumber = finish.serial - e.serial := by omega
  have hle := Date.serial_eq_of_le hfirst le_rfl
  refine ⟨e.serial, ?_, by omega, fun hmillion => ?_⟩
  · rw [daysAfterMonths_eq he, hdays]
  · exact (gives_sameDay_iff hx (Value.holds_ofInt (by rw [abs_lt]; omega)) rfl).2 ⟨by omega, by rw [abs_le]; omega,
      start, e, Calendar.serialDate?_of_represents_serial hx, he, by omega, rfl⟩

/-- The units of `DATEDIF` between whole serials from March 1900 on. Whole months are whole years and up to eleven
months more. `EDATE` by the whole months comes to at most 30 days before the end, and by the whole years to at most 365,
as far as it moves at all. -/
theorem distances_decompose [RegexLibrary] (hv : v.Holds n) (hw : w.Holds m) (hfirst : 61 ≤ n) (hle : n ≤ m)
    (hlast : m ≤ Calendar.lastSerial) : ∃ years months restMonths restDays yearDays : ℤ,
      Gives "DATEDIF" [v, w, .text "Y"] (.ofInt years) ∧ Gives "DATEDIF" [v, w, .text "M"] (.ofInt months) ∧
      Gives "DATEDIF" [v, w, .text "D"] (.ofInt (m - n)) ∧ Gives "DATEDIF" [v, w, .text "YM"] (.ofInt restMonths) ∧
      Gives "DATEDIF" [v, w, .text "MD"] (.ofInt restDays) ∧ Gives "DATEDIF" [v, w, .text "YD"] (.ofInt yearDays) ∧
      months = 12 * years + restMonths ∧ months ≤ m - n ∧
      restMonths ∈ Set.Icc 0 11 ∧ restDays ∈ Set.Icc 0 30 ∧ yearDays ∈ Set.Icc 0 365 ∧
      (months ≤ 10 ^ 6 →
        (∃ t, Gives "EDATE" [v, .ofInt months] (.ofInt t) ∧ t + restDays = m) ∧
        ∃ t, Gives "EDATE" [v, .ofInt (12 * years)] (.ofInt t) ∧ t + yearDays = m) := by
  have hfirstSerial : Calendar.firstSerial ≤ 61 := by decide
  obtain ⟨start, rfl⟩ : ∃ d : Date, d.serial = n := Calendar.exists_serial ⟨by omega, by omega⟩ (by omega)
  obtain ⟨finish, rfl⟩ : ∃ d : Date, d.serial = m := Calendar.exists_serial ⟨by omega, by omega⟩ (by omega)
  have horder : start.dayNumber ≤ finish.dayNumber := Int.not_lt.1 (mt Date.serial_lt_iff.2 (Int.not_lt.2 hle))
  have hstart := Date.serial_eq_of_le hfirst le_rfl
  have hfinish := Date.serial_eq_of_le hfirst horder
  have hnonneg := wholeMonths_nonneg horder
  have hfew := wholeMonths_le horder
  have hrest := shifted_wholeMonths_le start finish
  have hyear := le_shifted_wholeYears start finish
  have hyears : wholeMonths start finish / 12 * 12 ≤ wholeMonths start finish := by omega
  have hbefore := start.shifted_strictMono.monotone hyears
  obtain ⟨t, hdays, ht, hmoved⟩ := exists_sameDay hv hfirst hnonneg le_rfl
  obtain ⟨t', hdays', ht', hmoved'⟩ := exists_sameDay hv hfirst (Int.mul_nonneg (by omega) (by decide)) hyears
  have hgives : ∀ code unit days, unitOf? code = some unit →
      distance start finish (finish.serial - start.serial) unit = .ok days →
      Gives "DATEDIF" [v, w, .text code] (.ofInt days) := fun _ _ _ => gives_dateDifference hv hw (by omega) hle
  have htdiv : (wholeMonths start finish).tdiv 12 = wholeMonths start finish / 12 := Int.tdiv_eq_ediv_of_nonneg hnonneg
  have htmod : (wholeMonths start finish).tmod 12 = wholeMonths start finish % 12 := Int.tmod_eq_emod_of_nonneg hnonneg
  refine ⟨wholeMonths start finish / 12, wholeMonths start finish, wholeMonths start finish % 12, finish.serial - t,
    finish.serial - t', ?_, ?_, ?_, ?_, ?_, ?_, by omega, by omega, ⟨by omega, by omega⟩, ⟨by omega, by omega⟩,
    ⟨by omega, by omega⟩, fun hmillion => ⟨⟨t, hmoved hmillion, by omega⟩, t', ?_, by omega⟩⟩
  · exact hgives _ .years _ rfl (by rw [distance, htdiv])
  · exact hgives _ .months _ rfl rfl
  · exact hgives _ .days _ rfl rfl
  · exact hgives _ .monthsOfYear _ rfl (by rw [distance, htmod])
  · exact hgives _ .daysOfMonth _ rfl hdays
  · exact hgives _ .daysOfYear _ rfl (by rw [distance, htdiv, hdays'])
  · rw [Int.mul_comm]
    exact hmoved' (by omega)

/-- From a leap day to the end of the next February a year is not yet over. -/
theorem distances_decompose_leapDay : (Value.ofInt 43890).Holds 43890 ∧ (Value.ofInt 44255).Holds 44255 ∧
    (61 : ℤ) ≤ 43890 ∧ (43890 : ℤ) ≤ 44255 ∧ 44255 ≤ Calendar.lastSerial ∧ ∃ years months restDays yearDays t t' : ℤ,
      Gives "DATEDIF" [.ofInt 43890, .ofInt 44255, .text "Y"] (.ofInt years) ∧
      Gives "DATEDIF" [.ofInt 43890, .ofInt 44255, .text "M"] (.ofInt months) ∧
      Gives "DATEDIF" [.ofInt 43890, .ofInt 44255, .text "MD"] (.ofInt restDays) ∧
      Gives "DATEDIF" [.ofInt 43890, .ofInt 44255, .text "YD"] (.ofInt yearDays) ∧
      Gives "EDATE" [.ofInt 43890, .ofInt months] (.ofInt t) ∧ t + restDays = 44255 ∧
      Gives "EDATE" [.ofInt 43890, .ofInt (12 * years)] (.ofInt t') ∧ t' + yearDays = 44255 := by
  have hstart : (Value.ofInt 43890).Holds 43890 := Value.holds_ofInt (by norm_num)
  have hfinish : (Value.ofInt 44255).Holds 44255 := Value.holds_ofInt (by norm_num)
  have hlast : 44255 ≤ Calendar.lastSerial := by decide
  obtain ⟨years, months, -, restDays, yearDays, hyears, hmonths, -, -, hrest, hyear, -, hfew, -, -, -, hmoved⟩ :=
    distances_decompose hstart hfinish (by norm_num) (by norm_num) hlast
  obtain ⟨⟨t, ht, hsum⟩, t', ht', hsum'⟩ := hmoved (by omega)
  exact ⟨hstart, hfinish, by norm_num, by norm_num, hlast, years, months, restDays, yearDays, t, t', hyears, hmonths,
    hrest, hyear, ht, hsum, ht', hsum'⟩

end DateFunction

end Spreadsheet
