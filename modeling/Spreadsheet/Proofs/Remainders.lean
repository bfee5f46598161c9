import Spreadsheet.Proofs.BuiltinCalls
import Spreadsheet.Proofs.ExactFloats

/-!
# Remainders

A remainder is what a dividend exceeds a multiple of the divisor by. The multiple is found by way of a rounded quotient,
which counts as the next whole number from `10 ^ -9` below it on; the product with the divisor is rounded and so is the
difference. Rounding the difference never turns a right remainder into a wrong one or a wrong one into a right one, so
it is the choice of the multiple that decides, and whole numbers that are not too large get the right one.

* `RoundsTo.eq_sub`, `RoundsTo.abs_sub_sub_le` : differences of floats;
* `Math.wholeQuotient`, `Math.represents_floor_snapped` : the whole part of a snapped quotient;
* `Math.RemainderSteps`, `Math.exists_remainderSteps` : the numbers that a remainder goes through;
* `Math.RemainderSteps.result_iff`, `Math.RemainderSteps.result_of_int` : which results are those of remainders;
* `modulo_sign_iff` : sign and size of what `MOD` gives.
-/

namespace Spreadsheet

namespace Binary64

variable {x y d : Float} {p q m s v r : ℚ} {c : ℤ}

/-! ## Differences -/

theorem RoundsTo.eq_of_multiples {j k e : ℤ} (h : RoundsTo (j * 2 ^ e - k * 2 ^ e) r) (he : -1074 ≤ e)
    (hsize : |(j : ℚ) * 2 ^ e - k * 2 ^ e| < 2 ^ (e + 53)) : r = j * 2 ^ e - k * 2 ^ e := by
  have hpos : (0 : ℚ) < 2 ^ e := by positivity
  have hmultiple : (j : ℚ) * 2 ^ e - k * 2 ^ e = (j - k : ℤ) * 2 ^ e := by
    push_cast
    ring
  have hdigits : |j - k| < 2 ^ 53 := by
    rw [hmultiple, abs_mul, abs_of_pos hpos, add_comm, zpow_add₀ (by norm_num)] at hsize
    exact_mod_cast lt_of_mul_lt_mul_right hsize hpos.le
  rw [hmultiple] at h ⊢
  exact h.eq_of_dyadic hdigits.le he

/-- A difference of floats that is less than the last digit of the least normal float allows is exact. -/
theorem RoundsTo.eq_sub_of_small (h : RoundsTo (p - q) r) (hx : Represents x p) (hy : Represents y q)
    (hsize : |p - q| < 2 ^ (-1021 : ℤ)) : r = p - q := by
  obtain ⟨j, rfl⟩ := hx.exists_multiple_least
  obtain ⟨k, rfl⟩ := hy.exists_multiple_least
  exact h.eq_of_multiples le_rfl hsize

theorem RoundsTo.eq_sub (h : RoundsTo (p - q) r) (hx : Represents x p) (hy : Represents y q) (hp : (2 : ℚ) ^ c ≤ |p|)
    (hq : (2 : ℚ) ^ c ≤ |q|) (hsize : |p - q| < 2 ^ (c + 1)) : r = p - q := by
  rcases le_total c (-1022) with hc | hc
  · exact h.eq_sub_of_small hx hy (hsize.trans_le (zpow_le_zpow_right₀ one_le_two (by omega)))
  · obtain ⟨j, rfl⟩ := hx.exists_multiple hp
    obtain ⟨k, rfl⟩ := hy.exists_multiple hq
    exact h.eq_of_multiples (by omega) (hsize.trans_le (zpow_le_zpow_right₀ one_le_two (by omega)))

theorem RoundsTo.abs_sub_sub_le (h : RoundsTo (p - q) r) (hx : Represents x p) (hy : Represents y q) :
    |r - (p - q)| ≤ 2 ^ (-53 : ℤ) * |p - q| := by
  rcases le_or_gt (2 ^ (-1022 : ℤ)) |p - q| with hlarge | hsmall
  · exact h.abs_sub_le_mul hlarge
  · rw [h.eq_sub_of_small hx hy (hsmall.trans_le (zpow_le_zpow_right₀ one_le_two (by norm_num))), sub_self, abs_zero]
    positivity

theorem RoundsTo.le_neg_two_mul (h : RoundsTo v r) (hx : Represents x q) (hle : v ≤ -(2 * q)) : r ≤ -(2 * q) := by
  obtain ⟨k, e, hk, he, rfl⟩ := hx.exists_dyadic
  have htwice : 2 * ((k : ℚ) * 2 ^ e) = k * 2 ^ (e + 1) := by
    rw [zpow_add_one₀ (by norm_num)]
    ring
  rw [htwice] at hle ⊢
  linarith [h.neg.le_of_dyadic_le hk.le (by omega) (by linarith : (k : ℚ) * 2 ^ (e + 1) ≤ -v)]

end Binary64

namespace Math

open Binary64 (Represents RoundsTo halfAway)

variable {p q v m r : ℚ}

/-! ## The steps of a remainder -/

/-- How far below a whole number a quotient may lie to count as that number. -/
def tolerance : ℚ := 4835703278458517 / 2 ^ 82

theorem represents_tolerance : Represents 1e-9 tolerance :=
  ⟨⟨false, 4835703278458517, -82⟩, rfl, by norm_num [Binary64.Binary.value, tolerance]⟩

/-- The last whole number before a quotient exceeds it by the tolerance. -/
def wholeQuotient (v : ℚ) : ℤ := ⌈v + tolerance⌉ - 1

/-- A quotient is rounded to `v`, its whole part times the divisor to `m`, and what the dividend exceeds this by to
`r`. -/
structure RemainderSteps (p q v m r : ℚ) : Prop where
  dividend : ∃ x, Represents x p
  divisor : ∃ x, Represents x q
  product : ∃ x, Represents x m
  quotient_rounds : RoundsTo (p / q) v
  product_rounds : RoundsTo (q * wholeQuotient v) m
  result_rounds : RoundsTo (p - m) r

namespace RemainderSteps

theorem neg (h : RemainderSteps p q v m r) : RemainderSteps (-p) (-q) v (-m) (-r) where
  dividend := by
    obtain ⟨x, hx⟩ := h.dividend
    exact ⟨-x, hx.neg⟩
  divisor := by
    obtain ⟨x, hx⟩ := h.divisor
    exact ⟨-x, hx.neg⟩
  product := by
    obtain ⟨x, hx⟩ := h.product
    exact ⟨-x, hx.neg⟩
  quotient_rounds := by
    rw [neg_div_neg_eq]
    exact h.quotient_rounds
  product_rounds := by
    rw [neg_mul]
    exact h.product_rounds.neg
  result_rounds := by
    rw [← neg_sub']
    exact h.result_rounds.neg

theorem difference_of_result (h : RemainderSteps p q v m r) (hr : 0 ≤ r ∧ r < q) : 0 ≤ p - m ∧ p - m < q := by
  obtain ⟨x, hx⟩ := h.dividend
  obtain ⟨y, hy⟩ := h.product
  obtain ⟨d, hd⟩ := h.divisor
  constructor
  · by_contra hneg
    have herror := h.result_rounds.abs_sub_sub_le hx hy
    rw [abs_of_neg (not_le.1 hneg)] at herror
    norm_num at herror
    linarith [(abs_le.1 herror).2]
  · by_contra hlarge
    exact (h.result_rounds.le_of_represents hd (not_lt.1 hlarge)).not_gt hr.2

theorem result_eq (h : RemainderSteps p q v m r) (hq : 0 < q) (hnonneg : 0 ≤ p - m) (hlt : p - m < q) (hp : q ≤ |p|)
    (hm : q ≤ |m|) : r = p - m := by
  obtain ⟨x, hx⟩ := h.dividend
  obtain ⟨y, hy⟩ := h.product
  obtain ⟨c, hc, hc'⟩ := exists_mem_Ico_zpow hq one_lt_two
  refine h.result_rounds.eq_sub hx hy (hc.trans hp) (hc.trans hm) ?_
  rw [abs_of_nonneg hnonneg]
  exact hlt.trans hc'

/-- A quotient of minus one is not as close to zero as rounding can be to one. -/
theorem result_lt_of_minusOne (h : RemainderSteps p q v m r) (hq : 0 < q) (hnonneg : 0 ≤ p - m) (hlt : p - m < q)
    (hk : wholeQuotient v = -1) : r < q := by
  obtain ⟨x, hx⟩ := h.dividend
  obtain ⟨y, hy⟩ := h.product
  obtain ⟨d, hd⟩ := h.divisor
  have hproduct := h.product_rounds
  rw [hk, Int.cast_neg, Int.cast_one, mul_neg_one] at hproduct
  obtain rfl := hproduct.eq_of_represents hd.neg
  have hbelow : v + tolerance ≤ 0 := by
    have hceil : ⌈v + tolerance⌉ ≤ 0 := by
      rw [wholeQuotient] at hk
      omega
    exact_mod_cast Int.ceil_le.1 hceil
  have hfar : tolerance * q ≤ 2 * -p := by
    have hquotient := h.quotient_rounds.abs_le_two_mul
    rw [abs_div, abs_of_pos hq, abs_of_neg (by linarith : p < 0), ← mul_div_assoc] at hquotient
    exact (le_div_iff₀ hq).1 ((by linarith [neg_le_abs v] : tolerance ≤ |v|).trans hquotient)
  have herror := h.result_rounds.abs_sub_sub_le hx hy
  rw [abs_of_nonneg hnonneg] at herror
  have hnear := (abs_le.1 herror).2
  rw [tolerance] at hfar
  norm_num at hfar hnear
  linarith

/-- Rounding does not take a difference up to the divisor. The dividend and the product are as large as the divisor
unless the whole part of the quotient is zero or minus one. -/
theorem result_lt (h : RemainderSteps p q v m r) (hq : 0 < q) (hnonneg : 0 ≤ p - m) (hlt : p - m < q) : r < q := by
  obtain ⟨x, hx⟩ := h.dividend
  obtain ⟨d, hd⟩ := h.divisor
  have hproduct := h.product_rounds
  rcases lt_trichotomy (wholeQuotient v) 0 with hk | hk | hk
  · rcases (Int.le_sub_one_of_lt hk).lt_or_eq with hk | hk
    · have hm : m ≤ -(2 * q) := hproduct.le_neg_two_mul hd (by
        have hk : (wholeQuotient v : ℚ) ≤ -2 := by exact_mod_cast Int.le_sub_one_of_lt hk
        linarith [mul_le_mul_of_nonneg_left hk hq.le])
      rw [h.result_eq hq hnonneg hlt ((by linarith : q ≤ -p).trans (neg_le_abs p))
        ((by linarith : q ≤ -m).trans (neg_le_abs m))]
      exact hlt
    · exact h.result_lt_of_minusOne hq hnonneg hlt hk
  · obtain rfl : m = 0 := RoundsTo.eq_of_int (n := 0) (by simpa [hk] using hproduct) (by norm_num)
    have hresult := h.result_rounds
    rw [sub_zero] at hresult hlt
    rwa [hresult.eq_of_represents hx]
  · have hm : q ≤ m := hproduct.le_of_represents hd (le_mul_of_one_le_right hq.le (by exact_mod_cast hk))
    rw [h.result_eq hq hnonneg hlt ((by linarith : q ≤ p).trans (le_abs_self p)) (hm.trans (le_abs_self m))]
    exact hlt

theorem result_iff (h : RemainderSteps p q v m r) (hq : q ≠ 0) :
    (0 ≤ r / q ∧ r / q < 1) ↔ 0 ≤ (p - m) / q ∧ (p - m) / q < 1 := by
  -- both signs of the divisor at once
  have hiff : ∀ {p q m r : ℚ}, RemainderSteps p q v m r → 0 < q →
      ((0 ≤ r / q ∧ r / q < 1) ↔ 0 ≤ (p - m) / q ∧ (p - m) / q < 1) := by
    intro p q m r h hq
    rw [le_div_iff₀ hq, div_lt_one hq, le_div_iff₀ hq, div_lt_one hq, zero_mul]
    refine ⟨h.difference_of_result, fun ⟨hnonneg, hlt⟩ => ⟨?_, h.result_lt hq hnonneg hlt⟩⟩
    exact h.result_rounds.le_of_represents Binary64.represents_zero hnonneg
  rcases lt_or_gt_of_ne hq with hq | hq
  · have hneg := hiff h.neg (neg_pos.2 hq)
    rwa [neg_div_neg_eq, ← neg_sub', neg_div_neg_eq] at hneg
  · exact hiff h hq

theorem result_iff_of_exact (h : RemainderSteps p q v m r) (hq : q ≠ 0) (hm : m = q * wholeQuotient v) :
    (0 ≤ r / q ∧ r / q < 1) ↔ wholeQuotient v = ⌊p / q⌋ := by
  rw [h.result_iff hq, hm, sub_div, mul_div_cancel_left₀ _ hq, eq_comm, Int.floor_eq_iff, sub_nonneg,
    sub_lt_iff_lt_add']

section WholeNumbers

variable {a b : ℤ}

/-- A quotient of whole numbers stays a part of the divisor away from the next whole number. -/
theorem one_le_gap (a : ℤ) (hb : b ≠ 0) : 1 ≤ (⌊(a / b : ℚ)⌋ + 1 - a / b : ℚ) * |(b : ℚ)| := by
  have hb₀ : (b : ℚ) ≠ 0 := by exact_mod_cast hb
  have hlt := Int.lt_floor_add_one (a / b : ℚ)
  generalize ⌊(a / b : ℚ)⌋ = k at *
  have hnumerator : (k + 1 - a / b : ℚ) * b = ((k + 1) * b - a : ℤ) := by
    push_cast
    rw [sub_mul, div_mul_cancel₀ _ hb₀]
  have hne : (k + 1) * b - a ≠ 0 := by
    intro hzero
    rw [hzero, Int.cast_zero, mul_eq_zero] at hnumerator
    exact hnumerator.elim (fun hnext => by linarith) hb₀
  rw [← abs_of_pos (by linarith : (0 : ℚ) < k + 1 - a / b), ← abs_mul, hnumerator]
  exact_mod_cast Int.one_le_abs hne

variable (hv : RoundsTo (a / b : ℚ) v) (hb : b ≠ 0) (ha : |a| ≤ 2 ^ 52) (hmost : |b| < 5 * 10 ^ 8)
include hv hb ha hmost

/-- Rounding makes up half of that at most. -/
theorem quotient_error : (v - a / b) * (2 * |(b : ℚ)|) ≤ 1 := by
  have hb₀ : (b : ℚ) ≠ 0 := by exact_mod_cast hb
  have ha' : |(a : ℚ)| ≤ 2 ^ 52 := by exact_mod_cast ha
  have hmost' : |(b : ℚ)| < 5 * 10 ^ 8 := by exact_mod_cast hmost
  rcases eq_or_ne a 0 with rfl | ha₀
  · have hzero : v = (0 : ℤ) := RoundsTo.eq_of_int (by simpa using hv) (by norm_num)
    simp [hzero]
  · have hone : (1 : ℚ) ≤ |(a : ℚ)| := by exact_mod_cast Int.one_le_abs ha₀
    have hpart : |(a / b : ℚ)| * |(b : ℚ)| = |(a : ℚ)| := by rw [← abs_mul, div_mul_cancel₀ _ hb₀]
    have hnormal : (2 : ℚ) ^ (-1022 : ℤ) ≤ |(a / b : ℚ)| := calc
      (2 : ℚ) ^ (-1022 : ℤ) ≤ 2 ^ (-30 : ℤ) := zpow_le_zpow_right₀ one_le_two (by norm_num)
      _ ≤ |(a : ℚ)| / |(b : ℚ)| := by
        rw [le_div_iff₀ (abs_pos.2 hb₀)]
        norm_num
        linarith
      _ = |(a / b : ℚ)| := (abs_div _ _).symm
    have hrounding := hv.abs_sub_le_mul hnormal
    norm_num at hrounding
    calc (v - a / b) * (2 * |(b : ℚ)|)
        ≤ 1 / 9007199254740992 * |(a / b : ℚ)| * (2 * |(b : ℚ)|) :=
          mul_le_mul_of_nonneg_right ((le_abs_self _).trans hrounding) (by positivity)
      _ = |(a : ℚ)| * 2 / 9007199254740992 := by rw [← hpart]; ring
      _ ≤ 1 := by linarith

/-- The tolerance makes up less than the other half. -/
theorem wholeQuotient_of_int : wholeQuotient v = ⌊(a / b : ℚ)⌋ := by
  have hgap := one_le_gap a hb
  have herror := quotient_error hv hb ha hmost
  have hle := Int.floor_le (a / b : ℚ)
  have hlt := Int.lt_floor_add_one (a / b : ℚ)
  generalize ⌊(a / b : ℚ)⌋ = k at *
  have hone : (1 : ℚ) ≤ |(b : ℚ)| := by exact_mod_cast Int.one_le_abs hb
  have hlow : (k : ℚ) ≤ v := by
    have hsize : |(a / b : ℚ)| ≤ 2 ^ 52 := by
      rw [abs_div]
      exact (div_le_self (abs_nonneg _) hone).trans (by exact_mod_cast ha)
    rw [abs_le] at hsize
    have hk : |(k : ℚ)| ≤ 2 ^ 53 := abs_le.2 ⟨by linarith, by linarith⟩
    simpa using hv.le_of_dyadic_le (k := k) (e := 0) (by exact_mod_cast hk) (by norm_num) (by simpa using hle)
  have hroom : tolerance * (2 * |(b : ℚ)|) ≤ 1 := by
    have hmost' : |(b : ℚ)| ≤ 5 * 10 ^ 8 - 1 := by
      have : |b| ≤ 5 * 10 ^ 8 - 1 := by omega
      exact_mod_cast this
    rw [tolerance]
    linarith
  have htolerance : 0 < tolerance := by norm_num [tolerance]
  rw [wholeQuotient, sub_eq_iff_eq_add, Int.ceil_eq_iff]
  push_cast
  refine ⟨by linarith, le_of_mul_le_mul_right ?_ (by positivity : 0 < 2 * |(b : ℚ)|)⟩
  linarith

end WholeNumbers

theorem result_of_int {a b : ℤ} (h : RemainderSteps a b v m r) (hb : b ≠ 0) (ha : |a| ≤ 2 ^ 52)
    (hmost : |b| < 5 * 10 ^ 8) : r = (a - b * ⌊(a / b : ℚ)⌋ : ℤ) := by
  have hproduct := h.product_rounds
  have hresult := h.result_rounds
  rw [wholeQuotient_of_int h.quotient_rounds hb ha hmost] at hproduct
  have hb₀ : (b : ℚ) ≠ 0 := by exact_mod_cast hb
  have hrest : |a - b * ⌊(a / b : ℚ)⌋| < |b| := by
    have hfract : (a - b * ⌊(a / b : ℚ)⌋ : ℚ) = b * Int.fract (a / b : ℚ) := by
      rw [Int.fract, mul_sub, mul_div_cancel₀ _ hb₀]
    have hlt : |(a - b * ⌊(a / b : ℚ)⌋ : ℚ)| < |(b : ℚ)| := by
      rw [hfract, abs_mul, abs_of_nonneg (Int.fract_nonneg (a / b : ℚ))]
      exact mul_lt_of_lt_one_right (abs_pos.2 hb₀) (Int.fract_lt_one _)
    exact_mod_cast hlt
  generalize ⌊(a / b : ℚ)⌋ = k at *
  have hrest := hrest.trans hmost
  rw [abs_lt] at hrest
  rw [abs_le] at ha
  have hexact : m = (b * k : ℤ) := RoundsTo.eq_of_int (by exact_mod_cast hproduct) (by rw [abs_lt]; omega)
  rw [hexact] at hresult
  exact RoundsTo.eq_of_int (by exact_mod_cast hresult) (by rw [abs_lt]; omega)

end RemainderSteps

/-! ## Remainders of floats -/

variable {x d : Float}

theorem represents_sub_nearest (h : Represents x v) : Represents (x - Binary64.nearest x) (v - halfAway v) := by
  have hnear := Binary64.abs_halfAway_sub_le v
  rw [abs_sub_comm] at hnear
  have hsmall : |v - halfAway v| < 2 ^ (0 : ℤ) := hnear.trans_lt (by norm_num)
  obtain ⟨r, hr, hround⟩ := h.sub h.nearest (Represents.le_largest hsmall (by norm_num))
  rcases lt_or_ge |v| (2 ^ (-1 : ℤ)) with hv | hv
  · have hzero : halfAway v = 0 := Binary64.halfAway_eq_of_near (by simpa using hv.trans_eq (by norm_num))
    rw [hzero, Int.cast_zero, sub_zero] at hround ⊢
    rwa [← hround.eq_of_represents h]
  · obtain ⟨j, hj⟩ := h.exists_multiple hv
    generalize halfAway v = z at *
    have hwhole : (z : ℚ) = (z * 2 ^ 53 : ℤ) * 2 ^ (-1 - 52 : ℤ) := by
      push_cast
      rw [mul_assoc]
      norm_num
    rw [hj, hwhole] at hround hsmall ⊢
    rwa [← hround.eq_of_multiples (by norm_num) (hsmall.trans_eq (by norm_num))]

theorem wholeQuotient_eq (v : ℚ) : wholeQuotient v = if |v - halfAway v| < tolerance then halfAway v else ⌊v⌋ := by
  have hpos : 0 < tolerance := by norm_num [tolerance]
  have hhalf : tolerance < 1 / 2 := by norm_num [tolerance]
  rw [wholeQuotient, sub_eq_iff_eq_add, Int.ceil_eq_iff]
  push_cast
  rw [add_sub_cancel_right]
  split
  · rename_i hsnap
    rw [abs_lt] at hsnap
    constructor <;> linarith
  · rename_i hsnap
    have hfloor := Int.floor_le v
    refine ⟨by linarith, not_lt.1 fun hnext => hsnap ?_⟩
    -- the next whole number would be the nearest
    have hclose : |v - (⌊v⌋ + 1 : ℤ)| < tolerance := by
      push_cast
      rw [abs_lt]
      constructor <;> linarith [Int.lt_floor_add_one v]
    rwa [Binary64.halfAway_eq_of_near (hclose.trans hhalf)]

theorem represents_floor_snapped (h : Represents x v) :
    Represents (Binary64.floor (snapped x)) (wholeQuotient v) := by
  have hsnap : (x - Binary64.nearest x).abs < 1e-9 ↔ |v - halfAway v| < tolerance :=
    (represents_sub_nearest h).abs.lt_iff represents_tolerance
  rw [wholeQuotient_eq, snapped]
  by_cases hnear : |v - halfAway v| < tolerance
  · rw [if_pos (hsnap.2 hnear), if_pos hnear]
    simpa using h.nearest.floor
  · rw [if_neg (mt hsnap.1 hnear), if_neg hnear]
    exact h.floor

theorem isFinite_of_snapped (h : (snapped x).isFinite) : x.isFinite := by
  rw [snapped] at h
  split at h
  · exact Binary64.isFinite_of_mapMagnitude h
  · exact h

theorem exists_remainderSteps (hx : Represents x p) (hd : Represents d q) (hq : q ≠ 0)
    (hfinite : (x - d * Binary64.floor (snapped (x / d))).isFinite) : ∃ v m r,
      RemainderSteps p q v m r ∧ Represents (x / d) v ∧ Represents (x - d * Binary64.floor (snapped (x / d))) r := by
  obtain ⟨-, hproduct⟩ := Binary64.isFinite_of_sub hfinite
  obtain ⟨-, hfloor⟩ := Binary64.isFinite_of_mul hproduct
  obtain ⟨v, hv, hquotient⟩ := hx.div_of_isFinite hd hq (isFinite_of_snapped (Binary64.isFinite_of_mapMagnitude hfloor))
  obtain ⟨m, hm, hmultiple⟩ := hd.mul_of_isFinite (represents_floor_snapped hv) hproduct
  obtain ⟨r, hr, hresult⟩ := hx.sub_of_isFinite hm hfinite
  exact ⟨v, m, r, ⟨⟨x, hx⟩, ⟨d, hd⟩, ⟨_, hm⟩, hquotient, hmultiple, hresult⟩, hv, hr⟩

theorem gives_binary_iff [RegexLibrary] {name : String} {f : Float → Float → Outcome Float} {u : Value}
    (hf : binary name f ∈ mathFunctions) : Gives name [.number x, .number d] u ↔
      Outcome.toValue (do return .number (← f x d)) = u := by
  have hgives : Gives name [.number x, .number d] _ := gives_of_mem (f := binary name f)
    (by simp [builtinFunctions, hf]) rfl (Nat.le_refl 2) (by rintro most ⟨⟩; exact Nat.le_refl 2)
  exact hgives.iff_eq

theorem gives_modulo_iff [RegexLibrary] {u : Binary64.Number} : Gives "MOD" [.number x, .number d] (.number u) ↔
    (d == 0.0) = false ∧ (x - d * Binary64.floor (snapped (x / d))).isFinite ∧
      u = .ofFloat (x - d * Binary64.floor (snapped (x / d))) := by
  rw [gives_binary_iff (f := modulo) (by simp [mathFunctions]), modulo, finite]
  cases hzero : d == 0.0 with
  | true => exact ⟨nofun, nofun⟩
  | false =>
    by_cases hfinite : (x - d * Binary64.floor (snapped (x / d))).isFinite
    · simp only [Bool.false_eq_true, if_false, hfinite, true_and]
      exact ⟨fun h => (Value.number.inj h).symm, fun h => congrArg Value.number h.symm⟩
    · simp only [Bool.false_eq_true, if_false, hfinite, false_and, and_false, iff_false]
      nofun

end Math

open Binary64 (Represents)

/-- A remainder that is a number is zero or has the sign of the divisor, and is smaller than it, just if the difference
that was rounded is so; where the product is exact, just if the snapped quotient has the right whole part. Whole numbers
below the bounds have the remainder of integers. -/
theorem modulo_sign_iff [RegexLibrary] {x d : Float} {p q : ℚ} {u : Binary64.Number} (hx : Represents x p)
    (hd : Represents d q)
    (hq : q ≠ 0) (hu : Gives "MOD" [.number x, .number d] (.number u)) :
    ∃ v m r, Math.RemainderSteps p q v m r ∧ Represents (x / d) v ∧ Represents u.float r ∧
      (((r = 0 ∨ 0 < r * q) ∧ |r| < |q|) ↔ 0 ≤ (p - m) / q ∧ (p - m) / q < 1) ∧
      (m = q * Math.wholeQuotient v → (((r = 0 ∨ 0 < r * q) ∧ |r| < |q|) ↔ Math.wholeQuotient v = ⌊p / q⌋)) ∧
      ∀ a b : ℤ, p = a → q = b → |a| ≤ 2 ^ 52 → |b| < 5 * 10 ^ 8 → r = (a - b * ⌊(a / b : ℚ)⌋ : ℤ) := by
  obtain ⟨-, hfinite, rfl⟩ := Math.gives_modulo_iff.1 hu
  obtain ⟨v, m, r, hsteps, hv, hr⟩ := Math.exists_remainderSteps hx hd hq hfinite
  have hsign : ((r = 0 ∨ 0 < r * q) ∧ |r| < |q|) ↔ 0 ≤ r / q ∧ r / q < 1 := by
    have hsame : (r = 0 ∨ 0 < r * q) ↔ 0 ≤ r / q := by
      rw [← mul_div_mul_right r q hq, le_div_iff₀ (mul_self_pos.2 hq), zero_mul, le_iff_eq_or_lt,
        eq_comm (a := (0 : ℚ)), mul_eq_zero, or_iff_left hq]
    rw [hsame]
    refine and_congr_right fun hnonneg => ?_
    rw [← div_lt_one (abs_pos.2 hq), ← abs_div, abs_of_nonneg hnonneg]
  refine ⟨v, m, r, hsteps, hv, hr, hsign.trans (hsteps.result_iff hq),
    fun hm => hsign.trans (hsteps.result_iff_of_exact hq hm), ?_⟩
  rintro a b rfl rfl ha hb
  exact hsteps.result_of_int (by exact_mod_cast hq) ha hb

theorem modulo_sign_minusThree : Represents (Float.ofInt (-3)) (-3 : ℤ) ∧ Represents (Float.ofInt 2) (2 : ℤ) ∧
    ((2 : ℤ) : ℚ) ≠ 0 ∧ Gives "MOD" [.number (Float.ofInt (-3)), .number (Float.ofInt 2)] (.number (1.0 : Float)) ∧
    ∃ v m, Math.RemainderSteps (-3 : ℤ) (2 : ℤ) v m 1 ∧ Represents 1.0 1 := by
  have hx : Represents (Float.ofInt (-3)) (-3 : ℤ) := Binary64.represents_ofInt (by norm_num)
  have hd : Represents (Float.ofInt 2) (2 : ℤ) := Binary64.represents_ofInt (by norm_num)
  have hgives : Gives "MOD" [.number (Float.ofInt (-3)), .number (Float.ofInt 2)] (.number (1.0 : Float)) :=
    Math.gives_modulo_iff.2 ⟨by decide +kernel, by decide +kernel, congrArg _ (by decide +kernel)⟩
  obtain ⟨v, m, r, hsteps, -, hr, -, -, hint⟩ := modulo_sign_iff hx hd (by norm_num) hgives
  have hfloor : ⌊((-3 : ℤ) / (2 : ℤ) : ℚ)⌋ = -2 := by norm_num [Int.floor_eq_iff]
  have hone := hint (-3) 2 rfl rfl (by norm_num) (by norm_num)
  rw [hfloor] at hone
  obtain rfl : r = 1 := hone.trans (by norm_num)
  exact ⟨hx, hd, by norm_num, hgives, v, m, hsteps, hr⟩

/-- A quotient just below zero counts as zero. -/
theorem modulo_snapped_minusOne : Represents (Float.ofInt (-1)) (-1 : ℤ) ∧
    Represents (Float.ofInt (10 ^ 10)) (10 ^ 10 : ℤ) ∧
    Gives "MOD" [.number (Float.ofInt (-1)), .number (Float.ofInt (10 ^ 10))] (.number (Float.ofInt (-1))) ∧
    ¬((-1 : ℤ) = 0 ∨ 0 < (-1 : ℤ) * 10 ^ 10) :=
  ⟨Binary64.represents_ofInt (by norm_num), Binary64.represents_ofInt (by norm_num),
    Math.gives_modulo_iff.2 ⟨by decide +kernel, by decide +kernel, congrArg _ (by decide +kernel)⟩, by norm_num⟩

end Spreadsheet
