import Spreadsheet.Proofs.WholeNumbers

/-!
# Exact operations on floats

A float is an integer of 53 digits times a power of two. An operation whose result is such a number again gives just
that: products with powers of two, products of small natural numbers and their powers, and a sign times a magnitude.
Where a result is rounded, it changes by a part in `2 ^ 53` at most.

* `Represents.exists_dyadic`, `Represents.exists_multiple`, `Represents.exists_multiple_least` : the digits of a float;
* `RoundsTo.eq_of_represents`, `RoundsTo.le_of_represents` : what is a float already, or on one side of one;
* `RoundsTo.abs_sub_le_div`, `RoundsTo.abs_le_two_mul`, `RoundsTo.abs_sub_le_add` : what rounding changes;
* `Represents.mul_two_zpow`, `Represents.mul_natCast`, `Represents.signum_mul_abs` : products;
* `powerAux_induction`, `represents_natPower`, `exists_natPower` : powers;
* `represents_zero_iff` : the two zeros.
-/

namespace Spreadsheet.Binary64

variable {x y : Float} {p q : ℚ} {c j : ℤ}

/-! ## Digits -/

theorem Represents.exists_dyadic (h : Represents x q) : ∃ k e : ℤ, |k| < 2 ^ 53 ∧ -1074 ≤ e ∧ q = k * 2 ^ e := by
  have hstands := represents_iff_stands.1 h
  cases hunpack : x.toModel.unpack with
  | zero s =>
    rw [hunpack] at hstands
    cases hstands
    exact ⟨0, 0, by norm_num, by norm_num, by simp⟩
  | finite s m e hm =>
    rw [hunpack] at hstands
    cases hstands with
    | finite _ _ hcanonical _ =>
      have hlt : (m : ℤ) < 2 ^ 53 := by exact_mod_cast hcanonical.lt
      cases s with
      | negative => exact ⟨-m, e, by rwa [abs_neg, Nat.abs_cast], hcanonical.least_le, by simp [signed]⟩
      | positive => exact ⟨m, e, by rwa [Nat.abs_cast], hcanonical.least_le, by simp [signed]⟩
  | _ =>
    rw [hunpack] at hstands
    cases hstands

/-- The last digit of a number of 53 digits that reaches `2 ^ c`. -/
theorem le_exponent_of_le {k e : ℤ} (hk : |k| < 2 ^ 53) (hc : (2 : ℚ) ^ c ≤ |(k : ℚ) * 2 ^ e|) : c - 52 ≤ e := by
  have hpos : (0 : ℚ) < 2 ^ e := by positivity
  have hlt : (2 : ℚ) ^ c < 2 ^ (53 + e) := by
    rw [zpow_add₀ (by norm_num)]
    rw [abs_mul, abs_of_pos hpos] at hc
    exact hc.trans_lt (mul_lt_mul_of_pos_right (by exact_mod_cast hk) hpos)
  have := (zpow_lt_zpow_iff_right₀ (by norm_num : (1 : ℚ) < 2)).1 hlt
  omega

theorem exists_multiple_of_le {e t : ℤ} (h : t ≤ e) (k : ℤ) : ∃ j : ℤ, (k : ℚ) * 2 ^ e = j * 2 ^ t := by
  refine ⟨k * 2 ^ (e - t).toNat, ?_⟩
  push_cast
  rw [← zpow_natCast, Int.toNat_of_nonneg (by omega), mul_assoc, ← zpow_add₀ (by norm_num), sub_add_cancel]

theorem Represents.exists_multiple (h : Represents x q) (hq : (2 : ℚ) ^ c ≤ |q|) : ∃ k : ℤ, q = k * 2 ^ (c - 52) := by
  obtain ⟨k, e, hk, -, rfl⟩ := h.exists_dyadic
  exact exists_multiple_of_le (le_exponent_of_le hk hq) k

theorem Represents.exists_multiple_least (h : Represents x q) : ∃ k : ℤ, q = k * 2 ^ (-1074 : ℤ) := by
  obtain ⟨k, e, -, he, rfl⟩ := h.exists_dyadic
  exact exists_multiple_of_le he k

theorem RoundsTo.eq_of_represents {v r : ℚ} (h : RoundsTo v r) (hx : Represents x v) : r = v := by
  obtain ⟨k, e, hk, he, rfl⟩ := hx.exists_dyadic
  exact h.eq_of_dyadic hk.le he

theorem RoundsTo.le_of_represents {v r : ℚ} (h : RoundsTo v r) (hx : Represents x q) (hle : q ≤ v) : q ≤ r := by
  obtain ⟨k, e, hk, he, rfl⟩ := hx.exists_dyadic
  exact h.le_of_dyadic_le hk.le he hle

/-- Rounding changes a number by a part in `2 ^ 53`, and by half the least power where that is more. -/
theorem RoundsTo.abs_sub_le_add {v r : ℚ} (h : RoundsTo v r) : |r - v| ≤ 2 ^ (-53 : ℤ) * |v| + 2 ^ (-1075 : ℤ) := by
  have hleast : (0 : ℚ) ≤ 2 ^ (-1075 : ℤ) := by positivity
  rcases le_or_gt (2 ^ (-1022 : ℤ)) |v| with hnormal | hsmall
  · exact (h.abs_sub_le_mul hnormal).trans (le_add_of_nonneg_right hleast)
  · have hlt : |v| < 2 ^ (-1021 : ℤ) := hsmall.trans (zpow_lt_zpow_right₀ one_lt_two (by norm_num))
    exact (h.abs_sub_le le_rfl hlt).trans (le_add_of_nonneg_left (by positivity))

theorem RoundsTo.abs_sub_le_div {v r : ℚ} (h : RoundsTo v r) (hv : 1 ≤ v) : |r - v| ≤ v / 2 ^ 53 := by
  have hleast : (2 : ℚ) ^ (-1022 : ℤ) ≤ 2 ^ (0 : ℤ) := zpow_le_zpow_right₀ one_le_two (by norm_num)
  rw [zpow_zero] at hleast
  have herror := h.abs_sub_le_mul (hleast.trans (hv.trans (le_abs_self v)))
  rw [abs_of_nonneg (by linarith : 0 ≤ v)] at herror
  exact herror.trans_eq (by norm_num; ring)

theorem RoundsTo.abs_le_two_mul {v r : ℚ} (h : RoundsTo v r) : |r| ≤ 2 * |v| := by
  obtain ⟨t, -, -, ⟨k, rfl⟩, herror⟩ := h
  have hpos : (0 : ℚ) < 2 ^ t := by positivity
  rcases eq_or_ne k 0 with rfl | hk
  · rw [Int.cast_zero, zero_mul, abs_zero]
    positivity
  · have hone : (1 : ℚ) ≤ |(k : ℚ)| := by exact_mod_cast Int.one_le_abs hk
    have habove := abs_sub_abs_le_abs_sub ((k : ℚ) * 2 ^ t) v
    rw [zpow_sub_one₀ (by norm_num)] at herror
    rw [abs_mul, abs_of_pos hpos] at habove ⊢
    nlinarith

theorem RoundsTo.abs_le_two_mul_abs {v r : ℚ} (h : RoundsTo v r) (hv : 1 / 2 ≤ |v|) : |v| ≤ 2 * |r| := by
  have hleast : (2 : ℚ) ^ (-1022 : ℤ) ≤ 2 ^ (-1 : ℤ) := zpow_le_zpow_right₀ one_le_two (by norm_num)
  have herror := h.abs_sub_le_mul (hleast.trans (by norm_num; linarith))
  have hbelow := abs_sub_abs_le_abs_sub v r
  rw [abs_sub_comm] at hbelow
  norm_num at herror
  linarith

theorem RoundsTo.abs_lt_zpow {v r : ℚ} (h : RoundsTo v r) (hv : |v| < 2 ^ c) : |r| < 2 ^ (c + 1) := by
  rw [zpow_add_one₀ (by norm_num)]
  linarith [h.abs_le_two_mul]

/-! ## Products -/

/-- Products with a power of two are exact as long as no digit falls below the least power. -/
theorem Represents.mul_two_zpow (hx : Represents x q) (hy : Represents y (2 ^ j)) (hq : (2 : ℚ) ^ c ≤ |q|)
    (hc : -1022 ≤ c + j) (hsize : |q * 2 ^ j| ≤ largest) : Represents (x * y) (q * 2 ^ j) := by
  obtain ⟨r, hr, hround⟩ := hx.mul hy hsize
  obtain ⟨k, e, hk, -, rfl⟩ := hx.exists_dyadic
  have he := le_exponent_of_le hk hq
  rw [mul_assoc, ← zpow_add₀ (by norm_num)] at hround ⊢
  rwa [hround.eq_of_dyadic hk.le (by omega)] at hr

theorem Represents.mul_natCast {a b : ℕ} (hx : Represents x a) (hy : Represents y b) (hab : a * b < 2 ^ 53) :
    Represents (x * y) (a * b : ℕ) := by
  have hsize : |(a : ℚ) * b| ≤ largest := by
    rw [← Nat.cast_mul]
    exact (represents_ofNat hab).abs_le
  obtain ⟨r, hr, hround⟩ := hx.mul hy hsize
  have hexact : r = (a * b : ℕ) := by
    refine RoundsTo.eq_of_int (n := (a * b : ℕ)) (by exact_mod_cast hround) ?_
    rw [Nat.abs_cast]
    exact_mod_cast hab
  rwa [hexact] at hr

theorem Represents.signum_mul_abs (h : Represents x q) : Represents (signum x * x.abs) q := by
  have hone : Represents (1 : Float) 1 := represents_one
  obtain ⟨σ, hσ, hq⟩ : ∃ σ, Represents (signum x) σ ∧ σ * |q| = q := by
    obtain ⟨b, hb, rfl⟩ := h
    have hnonneg : (0 : ℚ) ≤ b.mantissa * 2 ^ b.exponent := by positivity
    rw [signum, hb, Binary.value]
    dsimp only
    split
    · exact ⟨-1, hone.neg, by rw [neg_one_mul, neg_one_mul, abs_neg, abs_of_nonneg hnonneg]⟩
    · exact ⟨1, hone, by rw [one_mul, one_mul, abs_of_nonneg hnonneg]⟩
  obtain ⟨r, hr, hround⟩ := hσ.mul h.abs (by rw [hq]; exact h.abs_le)
  rw [hq] at hround
  rwa [hround.eq_of_represents h] at hr

/-! ### Powers -/

/-- Squaring keeps the product of the accumulator and of the power that is left, so a power has what products have. -/
theorem powerAux_induction (P : Float → ℚ → Prop) (limit : ℚ)
    (hmul : ∀ {x y : Float} {a b : ℚ}, P x a → P y b → 1 ≤ a * b → a * b ≤ limit → P (x * y) (a * b)) {acc : Float}
    {a b : ℚ} {n : ℕ} (hacc : P acc a) (hx : P x b) (ha : 1 ≤ a) (hb : 1 ≤ b) (hlimit : a * b ^ n ≤ limit) :
    P (powerAux acc x n) (a * b ^ n) := by
  induction n using Nat.strong_induction_on generalizing acc x a b with
  | _ n ih =>
    rw [powerAux]
    have hsplit : a * b ^ n = a * b ^ (n % 2) * (b * b) ^ (n / 2) := by
      rw [← pow_two, ← pow_mul, mul_assoc, ← pow_add, Nat.mod_add_div]
    rw [hsplit] at hlimit ⊢
    have hleast : 1 ≤ a * b ^ (n % 2) := one_le_mul_of_one_le_of_one_le ha (one_le_pow₀ hb)
    have hsquare : 1 ≤ b * b := one_le_mul_of_one_le_of_one_le hb hb
    have hacc' : P (if n % 2 = 1 then acc * x else acc) (a * b ^ (n % 2)) := by
      split
      · rename_i hodd
        rw [hodd, pow_one] at hleast hlimit ⊢
        exact hmul hacc hx hleast ((le_mul_of_one_le_right (by linarith) (one_le_pow₀ hsquare)).trans hlimit)
      · rename_i heven
        rwa [Nat.mod_two_ne_one.1 heven, pow_zero, mul_one]
    split
    · rename_i hlast
      rwa [hlast, pow_zero, mul_one]
    · rename_i hmore
      have hle : b * b ≤ limit :=
        calc b * b ≤ (b * b) ^ (n / 2) := le_self_pow₀ hsquare hmore
          _ ≤ a * b ^ (n % 2) * (b * b) ^ (n / 2) := le_mul_of_one_le_left (by positivity) hleast
          _ ≤ limit := hlimit
      exact ih (n / 2) (by omega) hacc' (hmul hx hx hsquare hle) hleast hsquare hlimit

theorem represents_natPower {b n : ℕ} (hx : Represents x b) (hb : 0 < b) (hsize : b ^ n < 2 ^ 53) :
    Represents (natPower x n) (b ^ n : ℕ) := by
  have hone : Represents (1 : Float) (1 : ℕ) := Nat.cast_one (R := ℚ) ▸ represents_one
  have hlimit : (b ^ n : ℚ) ≤ 2 ^ 53 - 1 := by
    rw [le_sub_iff_add_le]
    exact_mod_cast hsize
  obtain ⟨k, hk, hpower⟩ := powerAux_induction (fun x q => ∃ k : ℕ, q = k ∧ Represents x k) (2 ^ 53 - 1)
    (by
      rintro x y _ _ ⟨a, rfl, hx⟩ ⟨b, rfl, hy⟩ - hle
      have hlt : a * b < 2 ^ 53 := by exact_mod_cast (by linarith : (a * b : ℚ) < 2 ^ 53)
      exact ⟨a * b, by push_cast; ring, hx.mul_natCast hy hlt⟩)
    ⟨1, by norm_num, hone⟩ ⟨b, rfl, hx⟩ le_rfl (by exact_mod_cast hb) (n := n) (by rwa [one_mul])
  rw [one_mul] at hk
  rwa [show k = b ^ n by exact_mod_cast hk.symm] at hpower

/-- Other powers may grow by a rounding with each factor. -/
theorem exists_natPower {n : ℕ} (hx : Represents x q) (hq : 1 ≤ q)
    (hsize : (1 + 1 / 2 ^ 53) * (q * (1 + 1 / 2 ^ 53)) ^ n ≤ largest) :
    ∃ r, Represents (natPower x n) r ∧ 1 ≤ r ∧ r ≤ (q * (1 + 1 / 2 ^ 53)) ^ n := by
  have hone : Represents (1 : Float) 1 := represents_one
  obtain ⟨r, hr, hleast, hmost⟩ := powerAux_induction
    (fun x a => ∃ r, Represents x r ∧ 1 ≤ r ∧ r * (1 + 1 / 2 ^ 53) ≤ a) largest
    (by
      rintro x y a b ⟨r, hx, hr, hra⟩ ⟨s, hy, hs, hsb⟩ - hle
      have hrs : 1 ≤ r * s := one_le_mul_of_one_le_of_one_le hr hs
      have hproduct : r * (1 + 1 / 2 ^ 53) * (s * (1 + 1 / 2 ^ 53)) ≤ a * b :=
        mul_le_mul hra hsb (by positivity) (by linarith)
      obtain ⟨t, ht, hround⟩ := hx.mul hy (by
        rw [abs_of_nonneg (by linarith)]
        nlinarith)
      have herror := (abs_le.1 (hround.abs_sub_le_div hrs)).2
      refine ⟨t, ht, ?_, by nlinarith⟩
      simpa using hround.le_of_dyadic_le (k := 1) (e := 0) (by norm_num) (by norm_num) (by simpa using hrs))
    ⟨1, hone, le_rfl, by rw [one_mul]⟩ ⟨q, hx, hq, le_rfl⟩ (by norm_num) (by nlinarith) (n := n) hsize
  exact ⟨r, hr, hleast, by nlinarith⟩

/-! ## Zeros -/

theorem represents_zero_iff : Represents x 0 ↔ x = 0.0 ∨ x = -0.0 := by
  constructor
  · intro h
    have hstands := represents_iff_stands.1 h
    have hzero : ∀ s, x.toModel.unpack = .zero s → x = 0.0 ∨ x = -0.0 := by
      rintro (_ | _) hunpack
      · exact Or.inr (eq_of_unpack hunpack)
      · exact Or.inl (eq_of_unpack hunpack)
    cases hunpack : x.toModel.unpack with
    | zero s => exact hzero s hunpack
    | finite s m e hm =>
      rw [hunpack] at hstands
      generalize hq : (0 : ℚ) = q at hstands
      cases hstands with
      | finite =>
        have hpos : (0 : ℚ) < m * 2 ^ e := by positivity
        cases s <;> simp only [signed] at hq <;> linarith
    | _ =>
      rw [hunpack] at hstands
      cases hstands
  · rintro (rfl | rfl)
    · exact represents_zero
    · exact neg_zero (G := ℚ) ▸ represents_zero.neg

/-- A count above zero is never taken for zero, however far it is rounded. -/
theorem ofNat_eq_zero_iff {n : ℕ} : Float.ofNat n = 0.0 ↔ n = 0 := by
  constructor
  · intro h
    have hzero : Represents (Float.ofNat n) 0 := represents_zero_iff.2 (.inl h)
    obtain ⟨r, hr, hround⟩ := exists_represents_ofNat_of_isFinite hzero.isFinite
    obtain rfl := hr.unique hzero
    by_contra hn
    have hone : (1 : ℚ) ≤ n := by exact_mod_cast Nat.pos_of_ne_zero hn
    have hle := hround.le_of_represents represents_one hone
    norm_num at hle
  · rintro rfl
    rfl

end Spreadsheet.Binary64
