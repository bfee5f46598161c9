import Spreadsheet.Binary64.Number
import Spreadsheet.Proofs.DateDisplay

/-!
# Finite numbers

Most operations may leave the finite floats, and are checked where it matters. Here are those that need no check: a
sign, a percentage, the difference of two whole parts that are not negative, an integer of 64 bits, and whatever the
calendar computes.

* `Number.isFinite_neg`, `Number.isFinite_percent` : signs and percentages;
* `isFinite_floor`, `isFinite_sub_truncate` : whole parts, and their differences;
* `isFinite_of_sub`, `isFinite_of_mul`, `isFinite_of_div`, `isFinite_of_mapMagnitude` : finite results have finite
  operands;
* `isFinite_ofNat`, `isFinite_ofInt`, `abs_toInt64Range_le` : integers;
* `isFinite_serialNumber`, `isFinite_of_parseDate?`, `isFinite_serialOfTime` : serials;
* `serialCivil?_le`, `serialTime?_le` : the parts of dates and times.
-/

namespace Spreadsheet

namespace Binary64

open Float.Model (UnpackedFloat Format)

variable {x y : Float}

theorem isNaN_of_isFinite (h : x.isFinite) : x.isNaN = false := by
  have hunpack : x.toModel.unpack.isFinite = true := h
  show x.toModel.unpack.isNaN = false
  cases hx : x.toModel.unpack with
  | notANumber =>
    rw [hx] at hunpack
    cases hunpack
  | _ => rfl

theorem isFinite_floor (h : x.isFinite) : (floor x).isFinite := by
  obtain ⟨q, hq⟩ := exists_represents h
  exact hq.floor.isFinite

theorem represents_truncate {q : ℚ} (h : Represents x q) (hx : ¬x < 0.0) : ∃ r, Represents (truncate x) r ∧ 0 ≤ r := by
  obtain ⟨r, hr, hnonneg⟩ := h.mapMagnitude (f := fun _ n d => n / d) fun _ n d _ => Nat.div_le_self n d
  exact ⟨r, hr, hnonneg (h.nonneg hx)⟩

/-- A difference of whole parts of floats that are not negative is no larger than one of them. -/
theorem isFinite_sub_truncate (hx : x.isFinite) (hx₀ : ¬x < 0.0) (hy : y.isFinite) (hy₀ : ¬y < 0.0) :
    (truncate x - truncate y).isFinite := by
  obtain ⟨p, hp⟩ := exists_represents hx
  obtain ⟨q, hq⟩ := exists_represents hy
  obtain ⟨r, hr, hr₀⟩ := represents_truncate hp hx₀
  obtain ⟨s, hs, hs₀⟩ := represents_truncate hq hy₀
  have hr₁ := hr.abs_le
  have hs₁ := hs.abs_le
  rw [abs_of_nonneg hr₀] at hr₁
  rw [abs_of_nonneg hs₀] at hs₁
  obtain ⟨d, hd, -⟩ := hr.sub hs (abs_le.2 ⟨by linarith, by linarith⟩)
  exact hd.isFinite

/-! ## Finite results -/

/-- No operation makes a finite float of what is not. -/
theorem isFinite_of_pack {u : UnpackedFloat} (h : (Float.ofModel (.pack u)).isFinite) : u.isFinite := by
  have hunpack : (UnpackedFloat.unpack Format.binary64 (UnpackedFloat.pack Format.binary64 u)).isFinite = true := h
  cases u with
  | notANumber => exact absurd hunpack (by decide)
  | infinity s => cases s <;> exact absurd hunpack (by decide)
  | zero s => rfl
  | finite s m e hm => rfl

theorem isFinite_of_sub (h : (x - y).isFinite) : x.isFinite ∧ y.isFinite := by
  have hsub : (UnpackedFloat.sub Format.binary64 x.toModel.unpack y.toModel.unpack).isFinite = true :=
    isFinite_of_pack h
  show x.toModel.unpack.isFinite = true ∧ y.toModel.unpack.isFinite = true
  generalize x.toModel.unpack = u at *
  generalize y.toModel.unpack = w at *
  cases u with
  | infinity s =>
    cases w with
    | infinity t => cases s <;> cases t <;> cases hsub
    | _ => cases hsub
  | _ => cases w <;> first | exact ⟨rfl, rfl⟩ | cases hsub

theorem isFinite_of_mul (h : (x * y).isFinite) : x.isFinite ∧ y.isFinite := by
  have hmul : (UnpackedFloat.mul Format.binary64 x.toModel.unpack y.toModel.unpack).isFinite = true :=
    isFinite_of_pack h
  show x.toModel.unpack.isFinite = true ∧ y.toModel.unpack.isFinite = true
  generalize x.toModel.unpack = u at *
  generalize y.toModel.unpack = w at *
  cases u <;> cases w <;> first | exact ⟨rfl, rfl⟩ | cases hmul

theorem isFinite_of_mapMagnitude {f : Bool → ℕ → ℕ → ℕ} (h : (mapMagnitude f x).isFinite) : x.isFinite := by
  cases hexact : exact x with
  | finite b => exact Represents.isFinite ⟨b, hexact, rfl⟩
  | _ => rwa [mapMagnitude, hexact] at h

/-- Nor does division, but for the zeros that an infinite divisor gives. -/
theorem isFinite_of_div {q : ℚ} (h : Represents (x / y) q) (hq : q ≠ 0) : x.isFinite ∧ y.isFinite := by
  have hdiv : (UnpackedFloat.div Format.binary64 x.toModel.unpack y.toModel.unpack).isFinite = true :=
    isFinite_of_pack h.isFinite
  have hzero : ∀ s, UnpackedFloat.div Format.binary64 x.toModel.unpack y.toModel.unpack ≠ .zero s := by
    intro s hs
    have hquotient : Represents (x / y) 0 := by
      show Represents (.ofModel (.pack (UnpackedFloat.div Format.binary64 x.toModel.unpack y.toModel.unpack))) 0
      rw [hs]
      exact represents_pack (.zero s)
    exact hq ((represents_iff_stands.1 h).unique (represents_iff_stands.1 hquotient))
  show x.toModel.unpack.isFinite = true ∧ y.toModel.unpack.isFinite = true
  generalize x.toModel.unpack = u at *
  generalize y.toModel.unpack = w at *
  cases u <;> cases w <;> first | exact ⟨rfl, rfl⟩ | exact absurd rfl (hzero _) | cases hdiv

/-! ## Integers -/

theorem isFinite_ofNat {n : ℕ} (hn : n ≤ 2 ^ 63) : (Float.ofNat n).isFinite := by
  have hsize : |(n : ℚ)| < 2 ^ (64 : ℤ) := by
    rw [Nat.abs_cast]
    exact_mod_cast (by omega : n < 2 ^ 64)
  obtain ⟨r, hr, -⟩ := exists_represents_ofNat ((le_abs_self _).trans (Represents.le_largest hsize (by norm_num)))
  exact hr.isFinite

theorem isFinite_ofInt {z : ℤ} (hz : |z| ≤ 2 ^ 63) : (Float.ofInt z).isFinite := by
  rw [abs_le] at hz
  cases z with
  | ofNat n => exact isFinite_ofNat (by simp at hz; omega)
  | negSucc n =>
    obtain ⟨q, hq⟩ := exists_represents (isFinite_ofNat (n := n + 1) (by omega))
    exact hq.neg.isFinite

theorem abs_toInt64Range_le (x : Float) : |toInt64Range x| ≤ 2 ^ 63 := by
  rw [abs_le]
  unfold toInt64Range saturate
  split
  · omega
  · split <;> omega
  · omega

/-! ## Numbers -/

namespace Number

variable {x : Number}

/-- The opposite of a finite number is finite. -/
theorem isFinite_neg (h : x.float.isFinite) : (-x).float.isFinite := by
  cases x with
  | negativeNaN => exact absurd h (by decide)
  | ofFloat x =>
    have hneg : (-(ofFloat x) : Number) = if x.isNaN then negativeNaN else ofFloat (-x) := rfl
    obtain ⟨q, hq⟩ := exists_represents (x := x) h
    rw [hneg, show x.isNaN = false from isNaN_of_isFinite h]
    exact hq.neg.isFinite

theorem represents_hundred : Represents 100.0 100 :=
  ⟨⟨false, 100 * 2 ^ 46, -46⟩, rfl, by norm_num [Binary.value]⟩

/-- A hundredth of a finite number is finite. -/
theorem isFinite_percent (h : x.float.isFinite) : (x / (100.0 : Float)).float.isFinite := by
  obtain ⟨q, hq⟩ := exists_represents h
  have hsize : |q / 100| ≤ largest := by
    have := hq.abs_le
    rw [abs_div, abs_of_pos (by norm_num : (0 : ℚ) < 100)]
    linarith [abs_nonneg q]
  obtain ⟨r, hr, -⟩ := hq.div represents_hundred (by norm_num) hsize
  have hquotient : x / (100.0 : Float) = if x.isNaN then x else if (100.0 : Float).isNaN then ofFloat 100.0
      else ofResult (x.float / 100.0) := rfl
  have hhundred : (100.0 : Float).isNaN = false := isNaN_of_isFinite represents_hundred.isFinite
  rw [hquotient, show x.isNaN = false from isNaN_of_isFinite h, hhundred]
  simp only [Bool.false_eq_true, if_false]
  rw [ofResult, isNaN_of_isFinite hr.isFinite]
  exact hr.isFinite

end Number

end Binary64

/-! ## Dates -/

namespace Calendar

open Binary64 (Represents)

theorem isFinite_serialNumber (d : Date) : d.serialNumber.isFinite := (represents_serialNumber d).isFinite

theorem isFinite_of_parseDate? {text : String} {order : DateOrder} {p : RecognisedDate}
    (h : parseDate? text order = some p) : p.serial.isFinite := by
  obtain ⟨w, -, hp⟩ := Option.bind_eq_some_iff.1 h
  obtain ⟨d, -, htime, rfl⟩ := recognise_eq_some.1 hp
  exact (splitSerial_serialWith htime).1

theorem represents_secondsOfDay {s : ℕ} (hs : s < secondsPerDay) :
    ∃ q, Represents (Float.ofNat s / 86400.0) q ∧ |q - s / 86400| ≤ 2 ^ (-54 : ℤ) := by
  have hlt : (s : ℚ) < 86400 := by exact_mod_cast hs
  have hnumber : Represents (Float.ofNat s) s := Binary64.represents_ofNat (by rw [secondsPerDay] at hs; omega)
  refine hnumber.div_near represents_86400 (by norm_num) (c := 0) (by norm_num) (by norm_num) ?_
  rw [abs_of_nonneg (by positivity), zpow_zero, div_lt_one (by norm_num)]
  exact hlt

/-- Seconds as a part of a day. -/
theorem isFinite_partOfDay {x : Float} (hx : x.isFinite) : (x / 86400.0).isFinite := by
  obtain ⟨q, hq⟩ := Binary64.exists_represents hx
  have hsize : |q / 86400| ≤ Binary64.largest := by
    have := hq.abs_le
    rw [abs_div, abs_of_pos (by norm_num : (0 : ℚ) < 86400)]
    linarith [abs_nonneg q]
  obtain ⟨r, hr, -⟩ := hq.div represents_86400 (by norm_num) hsize
  exact hr.isFinite

theorem isFinite_serialOfTime (d : Date) {c : Clock} (h : c.seconds < secondsPerDay) : (serialOfTime d c).isFinite := by
  obtain ⟨q, hq, hnear⟩ := represents_secondsOfDay h
  obtain ⟨r, hr, -⟩ := represents_serialNumber_add d hq h (hnear.trans (zpow_le_zpow_right₀ one_le_two (by norm_num)))
  exact hr.isFinite

/-! ### Parts -/

theorem monthOfDay_le (leap : Bool) (month n later : ℕ) :
    (monthOfDay leap month n later).1 ≤ month + later ∧ (monthOfDay leap month n later).2 ≤ n := by
  induction later generalizing month n with
  | zero => exact ⟨le_rfl, le_rfl⟩
  | succ later ih =>
    rw [monthOfDay]
    split
    · exact ⟨Nat.le_add_right _ _, le_rfl⟩
    · obtain ⟨hmonth, hday⟩ := ih (month + 1) (n - daysInMonth leap month)
      exact ⟨by omega, by omega⟩

namespace Date

variable (d : Date)

theorem abs_dayNumber_le : |d.dayNumber| ≤ 2 ^ 27 := by
  have hfirst := d.first_le
  have hlast := d.le_last
  have hyears : daysBeforeYear firstYear = -95746130 ∧ daysBeforeYear (lastYear + 1) = 95745399 := by decide
  rw [abs_le]
  omega

theorem abs_year_le : |d.year| ≤ 2 ^ 20 := by
  have hnumber := d.abs_dayNumber_le
  have hyear : d.year = yearOfDay d.dayNumber := rfl
  rw [abs_le] at hnumber ⊢
  rw [hyear, yearOfDay]
  split
  · omega
  · split <;> omega

theorem month_le : d.month ≤ 12 := (monthOfDay_le _ 1 _ 11).1

theorem day_le : d.day ≤ 366 := by
  have hday : d.day ≤ (d.dayNumber - daysBeforeYear (yearOfDay d.dayNumber)).toNat := (monthOfDay_le _ 1 _ 11).2
  have hyear := (daysBeforeYear_yearOfDay d.dayNumber).2
  rw [daysBeforeYear_succ, daysInYear] at hyear
  split at hyear <;> omega

end Date

/-- What sheets show of a serial has few digits. -/
theorem serialCivil?_le {x : Float} {c : Civil} (h : serialCivil? x = some c) :
    |c.year| ≤ 2 ^ 20 ∧ c.month ≤ 12 ∧ c.day ≤ 366 := by
  obtain ⟨whole, -, h⟩ := Option.bind_eq_some_iff.1 h
  dsimp only at h
  split at h
  · cases h
    decide
  · obtain ⟨d, -, rfl⟩ := Option.map_eq_some_iff.1 h
    exact ⟨d.abs_year_le, d.month_le, d.day_le⟩

/-- The seconds past midnight make up less than a day. -/
theorem splitSerial_lt {x : Float} {whole : ℤ} {s : ℕ} (h : splitSerial x = some (whole, s)) : s < secondsPerDay := by
  unfold splitSerial at h
  split at h
  · dsimp only at h
    split at h
    · cases h
    · cases h
      rw [secondsPerDay]
      omega
  · cases h

theorem serialTime?_le {x : Float} {d : Date} {c : Clock} (h : serialTime? x = some (d, c)) :
    c.hour ≤ secondsPerDay ∧ c.minute ≤ secondsPerDay ∧ c.second ≤ secondsPerDay := by
  obtain ⟨⟨whole, s⟩, hsplit, h⟩ := Option.bind_eq_some_iff.1 h
  obtain ⟨d, -, hclock⟩ := Option.map_eq_some_iff.1 h
  have hs := splitSerial_lt hsplit
  cases hclock
  rw [Clock.ofSeconds]
  dsimp only
  exact ⟨by omega, by omega, by omega⟩

end Calendar

end Spreadsheet
