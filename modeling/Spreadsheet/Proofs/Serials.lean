import Spreadsheet.Calendar.DateText
import Spreadsheet.Proofs.FloatValues

/-!
# Serials of dates and times

A serial with a fraction is rounded several times, but a day of seconds is so coarse that the second nearest to it is
the one it was made from.

* `dateOfWhole?_serial` : the date of a whole serial;
* `exists_splitSerial`, `exists_day` : a float is split at the second nearest to it, and so in the range of its day;
* `splitSerial_of_near`, `splitSerial_of_represents` : the day and the second of a float near a whole number of seconds,
  and of a whole serial;
* `represents_dayFraction` : the fraction of a time of day;
* `splitSerial_serialNumber`, `splitSerial_add` : dates without and with a time.
-/

namespace Spreadsheet.Calendar

open Binary64 (Represents RoundsTo)

/-! ## Whole serials -/

theorem dateOfWhole?_serial (d : Date) : dateOfWhole? d.serial = some d := by
  have hnumber : serialEpoch + (if 60 ≤ d.serial then d.serial else d.serial + 1) = d.dayNumber := by
    unfold Date.serial
    dsimp only
    split <;> split <;> omega
  rw [dateOfWhole?, hnumber, Date.ofDayNumber?, dif_pos ⟨d.first_le, d.le_last⟩]

/-- No date has the serial of the 29 February 1900. -/
theorem serial_ne_sixty (d : Date) : d.serial ≠ 60 := by
  unfold Date.serial
  dsimp only
  split <;> omega

theorem abs_serial_lt (d : Date) : |d.serial| < 2 ^ 27 := by
  have hfirst := d.first_le
  have hlast := d.le_last
  have hyears : daysBeforeYear firstYear = -95746130 ∧ daysBeforeYear (lastYear + 1) = 95745399 := by decide
  rw [abs_lt]
  unfold Date.serial serialEpoch
  dsimp only
  split <;> omega

/-! ## Fractions -/

theorem represents_86400 : Represents 86400.0 86400 :=
  ⟨⟨false, 86400 * 2 ^ 36, -36⟩, rfl, by norm_num [Binary64.Binary.value]⟩

theorem represents_1440 : Represents 1440.0 1440 :=
  ⟨⟨false, 1440 * 2 ^ 42, -42⟩, rfl, by norm_num [Binary64.Binary.value]⟩

theorem represents_24 : Represents 24.0 24 :=
  ⟨⟨false, 24 * 2 ^ 48, -48⟩, rfl, by norm_num [Binary64.Binary.value]⟩

/-- The second that a float is split at is the nearest one, up to a rounding. -/
theorem exists_splitSerial {x : Float} {q : ℚ} (hx : Represents x q) (hq : |q * 86400| < 10 ^ 15 - 1) :
    ∃ z : ℤ, |z - q * 86400| ≤ 9 / 16 ∧ splitSerial x = some (z / secondsPerDay, (z % secondsPerDay).toNat) := by
  obtain ⟨r, hr, herror⟩ := hx.mul_near represents_86400 (c := 50) (by norm_num) (by norm_num)
    (by norm_num at *; linarith)
  obtain ⟨b, hb, hvalue⟩ := hr.nearest
  have hnear : |Binary64.halfAway r - q * 86400| ≤ 9 / 16 := by
    have hround := Binary64.abs_halfAway_sub_le r
    norm_num at herror
    rw [abs_le] at *
    constructor <;> linarith
  refine ⟨_, hnear, ?_⟩
  have hmost : |Binary64.halfAway r| ≤ 10 ^ 15 := by
    have hmost : |(Binary64.halfAway r : ℚ)| ≤ 10 ^ 15 := by
      rw [abs_lt] at hq
      rw [abs_le] at *
      constructor <;> linarith
    exact_mod_cast hmost
  rw [splitSerial, hb]
  dsimp only
  rw [Binary64.Binary.truncate_of_value hvalue, if_neg]
  rw [abs_le] at hmost
  omega

/-- The day and the second of a float less than a quarter of a second away from a whole number of seconds. -/
theorem splitSerial_of_near {x : Float} {q : ℚ} {z : ℤ} (hx : Represents x q) (hz : |z| < 2 ^ 49)
    (hnear : |q * 86400 - z| ≤ 1 / 4) :
    splitSerial x = some (z / secondsPerDay, (z % secondsPerDay).toNat) := by
  have hz' : |(z : ℚ)| < 2 ^ 49 := by exact_mod_cast hz
  rw [abs_lt] at hz'
  rw [abs_le] at hnear
  obtain ⟨w, hw, hsplit⟩ := exists_splitSerial hx (by rw [abs_lt]; constructor <;> linarith)
  have hclose : |(w : ℚ) - z| < 1 := by
    rw [abs_le] at hw
    rw [abs_lt]
    constructor <;> linarith
  have hlt : |w - z| < 1 := by exact_mod_cast hclose
  rw [hsplit, Int.sub_eq_zero.1 (Int.abs_lt_one_iff.1 hlt)]

/-- A float in a range of days, up to the last second of the last day, is split at one of these days. -/
theorem exists_day {x : Float} {q : ℚ} {first last : ℤ} (hx : Represents x q) (hfirst : |first| < 2 ^ 32)
    (hlast : |last| < 2 ^ 32) (hq : q ∈ Set.Icc (first : ℚ) (last + 86399 / 86400)) :
    ∃ n ∈ Set.Icc first last, ∃ s, splitSerial x = some (n, s) := by
  obtain ⟨hleast, hmost⟩ := hq
  have hfirst' : |(first : ℚ)| < 2 ^ 32 := by exact_mod_cast hfirst
  have hlast' : |(last : ℚ)| < 2 ^ 32 := by exact_mod_cast hlast
  obtain ⟨z, hz, hsplit⟩ := exists_splitSerial hx (by rw [abs_lt] at *; constructor <;> linarith)
  rw [abs_le] at hz
  refine ⟨z / secondsPerDay, ⟨?_, ?_⟩, _, hsplit⟩
  · have hlow : first * 86400 - 1 < z := by
      have : (first * 86400 - 1 : ℚ) < z := by linarith
      exact_mod_cast this
    rw [secondsPerDay]
    omega
  · have hhigh : z < last * 86400 + 86400 := by
      have : (z : ℚ) < last * 86400 + 86400 := by linarith
      exact_mod_cast this
    rw [secondsPerDay]
    omega

theorem splitSerial_of_represents {x : Float} {n : ℤ} (hx : Represents x n) (hn : |n| < 2 ^ 32) :
    splitSerial x = some (n, 0) := by
  rw [abs_lt] at hn
  have hsplit := splitSerial_of_near hx (z := n * secondsPerDay) (by rw [abs_lt, secondsPerDay]; omega)
    (by simp [secondsPerDay])
  rw [hsplit, Int.mul_ediv_cancel _ (by decide), Int.mul_emod_left]
  rfl

theorem represents_dayFraction {hour minute second : ℕ} (hhour : hour ≤ 23) (hminute : minute ≤ 59)
    (hsecond : second ≤ 59) :
    ∃ q, Represents (dayFraction (Float.ofNat hour) (Float.ofNat minute) (Float.ofNat second)) q ∧
      |q - (hour * 3600 + minute * 60 + second : ℕ) / 86400| ≤ 2 ^ (-50 : ℤ) := by
  have hpart : ∀ {n : ℕ} {y : Float} {d : ℚ}, Represents y d → n ≤ 59 → n < d →
      ∃ q, Represents (Float.ofNat n / y) q ∧ |q - n / d| ≤ 2 ^ (-54 : ℤ) := by
    intro n y d hy hn hlt
    have hd : 0 < d := (Nat.cast_nonneg n).trans_lt hlt
    have hnumber : Represents (Float.ofNat n) n := Binary64.represents_ofNat (by omega)
    refine hnumber.div_near hy hd.ne' (c := 0) (by norm_num) (by norm_num) ?_
    rw [abs_of_nonneg (by positivity), zpow_zero, div_lt_one hd]
    exact hlt
  have hh : (hour : ℚ) ≤ 23 := by exact_mod_cast hhour
  have hm : (minute : ℚ) ≤ 59 := by exact_mod_cast hminute
  have hs : (second : ℚ) ≤ 59 := by exact_mod_cast hsecond
  have hh₀ : (0 : ℚ) ≤ hour := Nat.cast_nonneg _
  have hm₀ : (0 : ℚ) ≤ minute := Nat.cast_nonneg _
  have hs₀ : (0 : ℚ) ≤ second := Nat.cast_nonneg _
  obtain ⟨q₁, hq₁, h₁⟩ := hpart (n := hour) represents_24 (by omega) (by linarith)
  obtain ⟨q₂, hq₂, h₂⟩ := hpart (n := minute) represents_1440 (by omega) (by linarith)
  obtain ⟨q₃, hq₃, h₃⟩ := hpart (n := second) represents_86400 (by omega) (by linarith)
  norm_num [abs_le] at h₁ h₂ h₃
  obtain ⟨q₄, hq₄, h₄⟩ := hq₁.add_near hq₂ (c := 1) (by norm_num) (by norm_num)
    (by rw [abs_lt]; norm_num; exact ⟨by linarith, by linarith⟩)
  norm_num [abs_le] at h₄
  obtain ⟨q₅, hq₅, h₅⟩ := hq₄.add_near hq₃ (c := 2) (by norm_num) (by norm_num)
    (by rw [abs_lt]; norm_num; exact ⟨by linarith, by linarith⟩)
  norm_num [abs_le] at h₅
  refine ⟨q₅, hq₅, ?_⟩
  push_cast
  norm_num [abs_le]
  exact ⟨by linarith, by linarith⟩

/-! ## Dates -/

theorem represents_serialNumber (d : Date) : Represents d.serialNumber d.serial :=
  Binary64.represents_ofInt ((abs_serial_lt d).trans (by norm_num))

theorem splitSerial_serialNumber (d : Date) : splitSerial d.serialNumber = some (d.serial, 0) :=
  splitSerial_of_represents (represents_serialNumber d) ((abs_serial_lt d).trans (by norm_num))

variable {f : Float} {q : ℚ} {s : ℕ}

/-- The sum of a serial and a fraction of a day is rounded far below a second. -/
theorem represents_serialNumber_add (d : Date) (hf : Represents f q) (hs : s < secondsPerDay)
    (hnear : |q - s / 86400| ≤ 2 ^ (-50 : ℤ)) :
    ∃ r, Represents (d.serialNumber + f) r ∧ |r - (d.serial + q)| ≤ 2 ^ (-26 : ℤ) := by
  have hserial : |(d.serial : ℚ)| < 2 ^ 27 := by exact_mod_cast abs_serial_lt d
  have hs' : (s : ℚ) < 86400 := by exact_mod_cast hs
  have hs₀ : (0 : ℚ) ≤ s := Nat.cast_nonneg s
  norm_num [abs_le] at hnear
  norm_num [abs_lt] at hserial
  exact (represents_serialNumber d).add_near hf (c := 28) (by norm_num) (by norm_num)
    (by norm_num [abs_lt]; exact ⟨by linarith, by linarith⟩)

theorem splitSerial_add (d : Date) (hf : Represents f q) (hs : s < secondsPerDay)
    (hnear : |q - s / 86400| ≤ 2 ^ (-50 : ℤ)) : splitSerial (d.serialNumber + f) = some (d.serial, s) := by
  obtain ⟨r, hr, herror⟩ := represents_serialNumber_add d hf hs hnear
  have hserial := abs_serial_lt d
  rw [abs_lt] at hserial
  norm_num [abs_le] at hnear herror
  have hsplit := splitSerial_of_near hr (z := d.serial * secondsPerDay + s)
    (by rw [abs_lt]; rw [secondsPerDay] at *; omega)
    (by push_cast; norm_num [abs_le, secondsPerDay]; exact ⟨by linarith, by linarith⟩)
  have hday : (d.serial * secondsPerDay + s) / secondsPerDay = d.serial := by rw [secondsPerDay] at *; omega
  have hsecond : ((d.serial * secondsPerDay + s) % secondsPerDay).toNat = s := by rw [secondsPerDay] at *; omega
  rw [hsplit, hday, hsecond]

end Spreadsheet.Calendar
