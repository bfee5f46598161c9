import Mathlib
import Spreadsheet.Decimal.Layout

/-!
# Digits that are not zero

* `reaches_iff`, `reaches_magnitudeExponent` : a positive fraction reaches the power of ten of its first digit;
* `roundEven_pos`, `toPlaces_pos`, `significant_pos` : what is more than a half of the last place is not rounded to
  zero, and the first digits of a positive fraction are not all zero.
-/

namespace Spreadsheet.Decimal

variable {num den : ℕ} {e shift : ℤ}

theorem shifted_div (num den : ℕ) (shift : ℤ) :
    ((shifted num den shift).1 / (shifted num den shift).2 : ℚ) = num / den * 10 ^ shift := by
  rw [shifted]
  push_cast
  rcases le_total 0 shift with h | h
  · obtain ⟨k, rfl⟩ := Int.eq_ofNat_of_zero_le h
    simp [mul_div_right_comm]
  · obtain ⟨k, rfl⟩ : ∃ k : ℕ, shift = -k := ⟨(-shift).toNat, by omega⟩
    simp [div_eq_mul_inv, mul_assoc, mul_comm]

theorem shifted_pos (hden : 0 < den) (shift : ℤ) : 0 < (shifted num den shift).2 :=
  Nat.mul_pos hden (by positivity)

theorem reaches_iff (hden : 0 < den) : reaches num den e ↔ (10 : ℚ) ^ e ≤ num / den := by
  have hpos : (0 : ℚ) < (shifted num den (-e)).2 := by exact_mod_cast shifted_pos hden (-e)
  have hten : (0 : ℚ) < 10 ^ e := by positivity
  have hone : (10 : ℚ) ^ e ≤ num / den ↔ 1 ≤ ((shifted num den (-e)).1 / (shifted num den (-e)).2 : ℚ) := by
    rw [shifted_div, zpow_neg, ← div_eq_mul_inv, one_le_div hten]
  rw [hone, one_le_div hpos, Nat.cast_le, reaches]
  exact decide_eq_true_iff

theorem reaches_raiseExponent (steps : ℕ) (h : reaches num den e) :
    reaches num den (raiseExponent num den e steps) := by
  induction steps generalizing e with
  | zero => exact h
  | succ steps ih =>
    rw [raiseExponent]
    split
    · rename_i hnext
      exact ih hnext
    · exact h

/-- The bit lengths of a fraction bound it from below. -/
theorem two_zpow_le_div (hnum : 0 < num) (hden : 0 < den) :
    (2 : ℚ) ^ ((num.log2 : ℤ) - den.log2 - 1) ≤ num / den := by
  have hlow : (2 : ℚ) ^ num.log2 ≤ num := by exact_mod_cast Nat.log2_self_le hnum.ne'
  have hhigh : (den : ℚ) ≤ 2 ^ (den.log2 + 1) := by exact_mod_cast Nat.lt_log2_self.le
  have hsplit : (2 : ℚ) ^ ((num.log2 : ℤ) - den.log2 - 1) = 2 ^ num.log2 / 2 ^ (den.log2 + 1) := by
    rw [sub_sub, zpow_sub₀ (by norm_num), zpow_natCast]
    exact_mod_cast rfl
  rw [hsplit]
  exact div_le_div₀ (Nat.cast_nonneg num) hlow (by exact_mod_cast hden) hhigh

/-- The logarithm of two lies between `1233 / 4096` and `1234 / 4096`. -/
theorem ten_pow_bounds : (10 : ℚ) ^ 1233 ≤ 2 ^ 4096 ∧ (2 : ℚ) ^ 4096 ≤ 10 ^ 1234 := by
  have hnat : 10 ^ 1233 ≤ 2 ^ 4096 ∧ 2 ^ 4096 ≤ 10 ^ 1234 := by decide +kernel
  have hcast : ∀ (a b m n : ℕ), a ^ m ≤ b ^ n → (a : ℚ) ^ m ≤ b ^ n := fun _ _ _ _ h => by exact_mod_cast h
  constructor
  · simpa only [Nat.cast_ofNat] using hcast 10 2 _ _ hnat.1
  · simpa only [Nat.cast_ofNat] using hcast 2 10 _ _ hnat.2

theorem ten_zpow_le_two_zpow {bits : ℤ} (h : 0 ≤ bits ∧ 4096 * e ≤ 1233 * bits ∨ bits < 0 ∧ 4096 * e ≤ 1234 * bits) :
    (10 : ℚ) ^ e ≤ 2 ^ bits := by
  refine le_of_pow_le_pow_left₀ (n := 4096) (by norm_num) (by positivity) ?_
  rw [← zpow_natCast, ← zpow_natCast, ← zpow_mul, ← zpow_mul, mul_comm e, mul_comm bits]
  rcases h with ⟨hbits, hle⟩ | ⟨hbits, hle⟩
  · obtain ⟨n, rfl⟩ := Int.eq_ofNat_of_zero_le hbits
    calc (10 : ℚ) ^ ((4096 : ℕ) * e) ≤ 10 ^ ((1233 : ℕ) * (n : ℤ)) := zpow_le_zpow_right₀ (by norm_num) hle
      _ = (10 ^ 1233) ^ n := by rw [zpow_mul, zpow_natCast, zpow_natCast]
      _ ≤ (2 ^ 4096) ^ n := pow_le_pow_left₀ (by positivity) ten_pow_bounds.1 n
      _ = 2 ^ ((4096 : ℕ) * (n : ℤ)) := by rw [zpow_mul, zpow_natCast, zpow_natCast]
  · obtain ⟨n, rfl⟩ : ∃ n : ℕ, bits = -n := ⟨(-bits).toNat, by omega⟩
    calc (10 : ℚ) ^ ((4096 : ℕ) * e) ≤ 10 ^ ((1234 : ℕ) * -(n : ℤ)) := zpow_le_zpow_right₀ (by norm_num) hle
      _ = ((10 ^ 1234) ^ n)⁻¹ := by rw [zpow_mul, zpow_neg, zpow_natCast, zpow_natCast]
      _ ≤ ((2 ^ 4096) ^ n)⁻¹ := inv_anti₀ (by positivity) (pow_le_pow_left₀ (by positivity) ten_pow_bounds.2 n)
      _ = 2 ^ ((4096 : ℕ) * -(n : ℤ)) := by rw [zpow_mul, zpow_neg, zpow_natCast, zpow_natCast]

theorem reaches_magnitudeExponent (hnum : 0 < num) (hden : 0 < den) :
    reaches num den (magnitudeExponent num den) := by
  refine reaches_raiseExponent 4 ((reaches_iff hden).2 (le_trans (ten_zpow_le_two_zpow ?_) (two_zpow_le_div hnum hden)))
  split <;> omega

theorem roundEven_pos (h : den < 2 * num) : 0 < roundEven num den := by
  have hmod := Nat.div_add_mod num den
  rw [roundEven]
  split
  · rename_i hless
    refine Nat.pos_of_ne_zero fun hzero => ?_
    rw [hzero, mul_zero, zero_add] at hmod
    omega
  · split
    · exact Nat.succ_pos _
    · rename_i hmore
      refine Nat.pos_of_ne_zero fun hzero => ?_
      have hzero : num / den = 0 := (Nat.add_eq_zero_iff.1 hzero).1
      rw [hzero, mul_zero, zero_add] at hmod
      omega

/-- More than half of the last place is not rounded to zero. -/
theorem toPlaces_pos (hden : 0 < den) {places : ℕ} (h : 1 / 2 < (num / den * 10 ^ places : ℚ)) :
    0 < toPlaces num den places := by
  have hden : (0 : ℚ) < den := by exact_mod_cast hden
  rw [div_mul_eq_mul_div, div_lt_div_iff₀ two_pos hden, one_mul, mul_comm _ (2 : ℚ)] at h
  exact roundEven_pos (by exact_mod_cast h)

/-- The first digits of a positive fraction are not all zero. -/
theorem significant_pos (hnum : 0 < num) (hden : 0 < den) {count : ℕ} (hcount : 0 < count) :
    0 < (significant num den count).1 := by
  have hreaches := (reaches_iff hden).1 (reaches_magnitudeExponent hnum hden)
  rw [significant]
  generalize magnitudeExponent num den = e at *
  have hpos : 0 < (shifted num den ((count : ℤ) - 1 - e)).2 := shifted_pos hden _
  have hpos' : (0 : ℚ) < (shifted num den ((count : ℤ) - 1 - e)).2 := by exact_mod_cast hpos
  have hone : (1 : ℚ) ≤ (shifted num den ((count : ℤ) - 1 - e)).1 / (shifted num den ((count : ℤ) - 1 - e)).2 := by
    rw [shifted_div]
    calc (1 : ℚ) ≤ 10 ^ ((count : ℤ) - 1) := one_le_zpow₀ (by norm_num) (by omega)
      _ = 10 ^ e * 10 ^ ((count : ℤ) - 1 - e) := by rw [← zpow_add₀ (by norm_num), add_sub_cancel]
      _ ≤ num / den * 10 ^ ((count : ℤ) - 1 - e) := mul_le_mul_of_nonneg_right hreaches (by positivity)
  rw [one_le_div hpos', Nat.cast_le] at hone
  dsimp only
  split
  · positivity
  · exact roundEven_pos (by omega)

end Spreadsheet.Decimal
