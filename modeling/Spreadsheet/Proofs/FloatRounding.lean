import Mathlib
import Spreadsheet.Power

/-!
# Rounding to 53 binary digits

The operations on floats work on a sign, a mantissa and an exponent. A result that needs too many digits is shifted to
the right while two bits keep track of what is lost, and then rounded to the nearest mantissa.

* `Located` : a mantissa with its two bits stands next below a value;
* `RoundsTo` : the values that a number may be rounded to;
* `Canonical`, `Stands` : the floats that there are, with what they stand for; `largest` : the largest one;
* `Rounded` : the same with exponents that there is no room for; `Rounded.stands` : below the limit there is;
* `Rounded.roundWithAccuracy`, `Rounded.normalize` : rounding;
* `Stands.add`, `Stands.sub`, `Stands.mul`, `Stands.div` : arithmetic is rounded.
-/

namespace Spreadsheet.Binary64

open Float.Model (UnpackedFloat Format totalExponent)
open Float.Model.UnpackedFloat (Sign ExtendedMantissa Accuracy accuracyOfFraction)

/-! ## Shifting to the right -/

/-- The mantissa is the whole part of a value, and its two bits tell on which side of the middle the rest lies. -/
def Located : ExtendedMantissa → ℚ → Prop
  | ⟨m, false, false⟩, x => x = m
  | ⟨m, false, true⟩, x => m < x ∧ x < m + 1 / 2
  | ⟨m, true, false⟩, x => x = m + 1 / 2
  | ⟨m, true, true⟩, x => m + 1 / 2 < x ∧ x < m + 1

namespace Located

variable {em : ExtendedMantissa} {x : ℚ}

theorem bounds (h : Located em x) : em.mantissa ≤ x ∧ x < em.mantissa + 1 := by
  obtain ⟨m, _ | _, _ | _⟩ := em <;> simp only [Located] at h
  · exact ⟨h.ge, by linarith⟩
  · exact ⟨h.1.le, by linarith [h.2]⟩
  · exact ⟨by linarith, by linarith⟩
  · exact ⟨by linarith [h.1], h.2⟩

theorem shiftRightOne (h : Located em x) : Located em.shiftRightOne (x / 2) := by
  obtain ⟨m, round, sticky⟩ := em
  have hm : (m : ℚ) = 2 * (m / 2 : ℕ) + (m % 2 : ℕ) := by exact_mod_cast (Nat.div_add_mod m 2).symm
  rcases Nat.mod_two_eq_zero_or_one m with hr | hr <;> rw [hr] at hm <;>
    cases round <;> cases sticky <;> simp [Located, ExtendedMantissa.shiftRightOne, hr] at h hm ⊢ <;>
    first | linarith | exact ⟨by linarith, by linarith⟩

theorem shiftRight (h : Located em x) (n : ℕ) : Located (em >>> n) (x / 2 ^ n) := by
  induction n with
  | zero => rwa [pow_zero, div_one]
  | succ n ih =>
    have hshift : em >>> (n + 1) = (em >>> n).shiftRightOne := rfl
    rw [hshift, pow_succ, ← div_div]
    exact ih.shiftRightOne

/-- The rounded mantissa is the nearest. -/
theorem abs_roundedMantissa_sub_le (h : Located em x) : |(em.roundedMantissa : ℚ) - x| ≤ 1 / 2 := by
  obtain ⟨m, _ | _, _ | _⟩ := em <;>
    simp only [Located] at h <;>
    simp only [ExtendedMantissa.roundedMantissa, ExtendedMantissa.accuracy, Accuracy.roundToNearestEven]
  · simp [h]
  · exact abs_le.2 ⟨by linarith, by linarith⟩
  · have heven : ((m % 2 : ℕ) : ℚ) = 0 ∨ ((m % 2 : ℕ) : ℚ) = 1 := by
      rcases Nat.mod_two_eq_zero_or_one m with hr | hr <;> simp [hr]
    push_cast
    rcases heven with hr | hr <;> rw [hr, h] <;> norm_num
  · push_cast
    exact abs_le.2 ⟨by linarith, by linarith⟩

theorem ofMantissa (m : ℕ) : Located (.ofMantissaAndAccuracy m .exact) m := rfl

theorem ofFraction (num : ℕ) {den : ℕ} (hden : 0 < den) :
    Located (.ofMantissaAndAccuracy (num / den) (accuracyOfFraction (num % den) den)) (num / den) := by
  have hpos : (0 : ℚ) < den := by exact_mod_cast hden
  have hlt : ((num % den : ℕ) : ℚ) / den < 1 := (div_lt_one hpos).2 (by exact_mod_cast Nat.mod_lt num hden)
  have hnum : (num : ℚ) / den = (num / den : ℕ) + ((num % den : ℕ) : ℚ) / den := by
    rw [div_eq_iff hpos.ne', add_mul, div_mul_cancel₀ _ hpos.ne', mul_comm]
    exact_mod_cast (Nat.div_add_mod num den).symm
  have hhalf : ∀ {c : ℕ}, (c : ℚ) / den < 1 / 2 ↔ 2 * c < den := by
    intro c
    rw [div_lt_div_iff₀ hpos two_pos, one_mul, mul_comm]
    exact_mod_cast Iff.rfl
  rw [accuracyOfFraction, hnum]
  split
  · rename_i hzero
    simp [Located, ExtendedMantissa.ofMantissaAndAccuracy, hzero]
  · rename_i hrest
    have hrest : (0 : ℚ) < ((num % den : ℕ) : ℚ) / den := by
      have : 0 < num % den := Nat.pos_of_ne_zero hrest
      positivity
    rcases lt_trichotomy (2 * (num % den)) den with hside | hside | hside
    · rw [compare_lt_iff_lt.2 hside]
      exact ⟨by linarith, by linarith [hhalf.2 hside]⟩
    · rw [compare_eq_iff_eq.2 hside]
      have hmiddle : ((num % den : ℕ) : ℚ) / den = 1 / 2 := by
        rw [div_eq_div_iff hpos.ne' two_ne_zero, one_mul, mul_comm]
        exact_mod_cast hside
      exact congrArg _ hmiddle
    · rw [compare_gt_iff_gt.2 hside]
      have hmore : 1 / 2 < ((num % den : ℕ) : ℚ) / den := by
        rw [div_lt_div_iff₀ two_pos hpos, one_mul, mul_comm _ (2 : ℚ)]
        exact_mod_cast hside
      exact ⟨by linarith, by linarith⟩

end Located

theorem mantissa_shiftRight (em : ExtendedMantissa) (n : ℕ) : (em >>> n).mantissa = em.mantissa / 2 ^ n := by
  induction n with
  | zero => exact (Nat.div_one _).symm
  | succ n ih =>
    show (em >>> n).mantissa / 2 = _
    rw [ih, Nat.div_div_eq_div_mul, ← pow_succ]

theorem mantissa_ofMantissaAndAccuracy (m : ℕ) (accuracy : Accuracy) :
    (ExtendedMantissa.ofMantissaAndAccuracy m accuracy).mantissa = m := by
  cases accuracy with
  | exact => rfl
  | inexact side => cases side <;> rfl

theorem roundedMantissa_le (em : ExtendedMantissa) :
    em.mantissa ≤ em.roundedMantissa ∧ em.roundedMantissa ≤ em.mantissa + 1 := by
  obtain ⟨m, _ | _, _ | _⟩ := em <;>
    simp only [ExtendedMantissa.roundedMantissa, ExtendedMantissa.accuracy, Accuracy.roundToNearestEven] <;> omega

/-! ## Rounded values -/

/-- A number is rounded to a multiple of a power of two that leaves it 53 digits, or of the least power there is, and
to one of the nearest. -/
def RoundsTo (v r : ℚ) : Prop :=
  ∃ t : ℤ, -1074 ≤ t ∧ (2 ^ (t + 52) ≤ |v| ∨ t = -1074) ∧ (∃ k : ℤ, r = k * 2 ^ t) ∧ |r - v| ≤ 2 ^ (t - 1)

namespace RoundsTo

variable {v r : ℚ}

theorem neg (h : RoundsTo v r) : RoundsTo (-v) (-r) := by
  obtain ⟨t, ht, hv, ⟨k, rfl⟩, herror⟩ := h
  refine ⟨t, ht, by rwa [abs_neg], ⟨-k, by push_cast; ring⟩, ?_⟩
  rwa [neg_sub_neg, abs_sub_comm]

theorem zero : RoundsTo 0 0 := ⟨-1074, le_rfl, Or.inr rfl, ⟨0, by simp⟩, by simp⟩

/-- Rounding a number of magnitude below `2 ^ c` adds less than a digit of `2 ^ (c - 53)`. -/
theorem abs_sub_le (h : RoundsTo v r) {c : ℤ} (hc : -1021 ≤ c) (hv : |v| < 2 ^ c) : |r - v| ≤ 2 ^ (c - 54) := by
  obtain ⟨t, -, hsize, -, herror⟩ := h
  have ht : t - 1 ≤ c - 54 := by
    rcases hsize with hsize | rfl
    · have := (zpow_lt_zpow_iff_right₀ (by norm_num : (1 : ℚ) < 2)).1 (hsize.trans_lt hv)
      omega
    · omega
  exact herror.trans (zpow_le_zpow_right₀ (by norm_num) ht)

/-- Rounding keeps to one side of a float: the numbers of 53 digits, no digit being worth less than the least power. -/
theorem le_of_dyadic_le (h : RoundsTo v r) {k e : ℤ} (hk : |k| ≤ 2 ^ 53) (he : -1074 ≤ e) (hle : k * 2 ^ e ≤ v) :
    k * 2 ^ e ≤ r := by
  obtain ⟨t, -, hsize, ⟨j, rfl⟩, herror⟩ := h
  have hpos : (0 : ℚ) < 2 ^ t := by positivity
  -- a multiple of the power that `v` is rounded to lies between
  obtain ⟨i, hki, hiv⟩ : ∃ i : ℤ, (k : ℚ) * 2 ^ e ≤ i * 2 ^ t ∧ i * 2 ^ t ≤ v := by
    rcases le_or_gt t e with hte | hte
    · obtain ⟨s, rfl⟩ : ∃ s : ℕ, e = t + s := ⟨(e - t).toNat, by omega⟩
      have hmultiple : (k : ℚ) * 2 ^ (t + s : ℤ) = (k * 2 ^ s : ℤ) * 2 ^ t := by
        rw [zpow_add₀ (by norm_num), zpow_natCast]
        push_cast
        ring
      exact ⟨k * 2 ^ s, hmultiple.le, hmultiple ▸ hle⟩
    · have hsize : (2 : ℚ) ^ (52 : ℤ) * 2 ^ t ≤ |v| := by
        rw [← zpow_add₀ (by norm_num), add_comm]
        exact hsize.resolve_right (by omega)
      have hbound : |(k : ℚ) * 2 ^ e| ≤ 2 ^ (52 : ℤ) * 2 ^ t := by
        have hhalf : (2 : ℚ) ^ (53 : ℤ) * 2 ^ (t - 1) = 2 ^ (52 : ℤ) * 2 ^ t := by
          rw [← zpow_add₀ (by norm_num), ← zpow_add₀ (by norm_num)]
          congr 1
          ring
        rw [abs_mul, abs_of_pos (by positivity : (0 : ℚ) < 2 ^ e), ← hhalf]
        exact mul_le_mul (by exact_mod_cast hk) (zpow_le_zpow_right₀ one_le_two (by omega)) (by positivity)
          (by positivity)
      rw [abs_le] at hbound
      rcases le_total 0 v with hv | hv
      · rw [abs_of_nonneg hv] at hsize
        exact ⟨2 ^ 52, by exact_mod_cast hbound.2, by exact_mod_cast hsize⟩
      · rw [abs_of_nonpos hv] at hsize
        exact ⟨-2 ^ 52, by push_cast at hsize ⊢; linarith, by push_cast at hbound ⊢; linarith⟩
  refine hki.trans (mul_le_mul_of_nonneg_right ?_ hpos.le)
  have hij : (i - j : ℚ) * 2 ^ t ≤ 1 / 2 * 2 ^ t := by
    have := (abs_le.1 herror).1
    rw [zpow_sub_one₀ (by norm_num)] at this
    linarith
  have hij : (i - j : ℚ) < 1 := (le_of_mul_le_mul_right hij hpos).trans_lt (by norm_num)
  exact_mod_cast Int.le_of_sub_one_lt (by exact_mod_cast (by linarith : (i : ℚ) - 1 < j))

/-- Floats need no rounding. -/
theorem eq_of_dyadic {k e : ℤ} (h : RoundsTo (k * 2 ^ e) r) (hk : |k| ≤ 2 ^ 53) (he : -1074 ≤ e) : r = k * 2 ^ e := by
  have hneg := h.neg.le_of_dyadic_le (k := -k) (by rwa [abs_neg]) he (by push_cast; linarith)
  push_cast at hneg
  exact le_antisymm (by linarith) (h.le_of_dyadic_le hk he le_rfl)

/-- So do integers of 53 digits. -/
theorem eq_of_int {n : ℤ} (h : RoundsTo n r) (hn : |n| < 2 ^ 53) : r = n := by
  simpa using eq_of_dyadic (k := n) (e := 0) (by simpa using h) hn.le (by norm_num)

/-- Rounding a number above the least power changes it by less than a part in `2 ^ 53`. -/
theorem abs_sub_le_mul (h : RoundsTo v r) (hv : 2 ^ (-1022 : ℤ) ≤ |v|) : |r - v| ≤ 2 ^ (-53 : ℤ) * |v| := by
  obtain ⟨t, -, hsize, -, herror⟩ := h
  have hsize : (2 : ℚ) ^ (t + 52) ≤ |v| := by
    rcases hsize with hsize | rfl
    · exact hsize
    · exact hv
  calc |r - v| ≤ 2 ^ (t - 1) := herror
    _ = 2 ^ (-53 : ℤ) * 2 ^ (t + 52) := by rw [← zpow_add₀ (by norm_num)]; congr 1; ring
    _ ≤ 2 ^ (-53 : ℤ) * |v| := mul_le_mul_of_nonneg_left hsize (by positivity)

end RoundsTo

/-! ## The floats that there are -/

/-- The largest float. -/
def largest : ℚ := (2 ^ 53 - 1) * 2 ^ (971 : ℤ)

/-- Up to the largest float, rounding stays below the next power of two. -/
theorem RoundsTo.abs_lt {v r : ℚ} (h : RoundsTo v r) (hv : |v| ≤ largest) : |r| < 2 ^ (1024 : ℤ) := by
  have hroom : largest + 2 ^ (970 : ℤ) < 2 ^ (1024 : ℤ) := by
    have hdigit : (2 : ℚ) ^ (971 : ℤ) = 2 * 2 ^ (970 : ℤ) := by rw [← zpow_one_add₀ (by norm_num)]; rfl
    have hlimit : (2 : ℚ) ^ (1024 : ℤ) = 2 ^ (54 : ℤ) * 2 ^ (970 : ℤ) := by rw [← zpow_add₀ (by norm_num)]; rfl
    have hpos : (0 : ℚ) < 2 ^ (970 : ℤ) := by positivity
    rw [largest, hdigit, hlimit]
    generalize (2 : ℚ) ^ (970 : ℤ) = u at hpos ⊢
    norm_num
    linarith
  have hlimit : largest < 2 ^ (1024 : ℤ) := (lt_add_of_pos_right _ (by positivity)).trans hroom
  obtain ⟨t, -, hsize, -, herror⟩ := h
  have ht : t - 1 ≤ 970 := by
    rcases hsize with hsize | rfl
    · have := (zpow_lt_zpow_iff_right₀ (by norm_num : (1 : ℚ) < 2)).1 ((hsize.trans hv).trans_lt hlimit)
      omega
    · omega
  calc |r| = |v + (r - v)| := by rw [add_sub_cancel]
    _ ≤ |v| + |r - v| := abs_add_le _ _
    _ ≤ largest + 2 ^ (970 : ℤ) := add_le_add hv (herror.trans (zpow_le_zpow_right₀ one_le_two ht))
    _ < 2 ^ (1024 : ℤ) := hroom

/-- Mantissas of 53 digits, or fewer with the least exponent. -/
structure Canonical (m : ℕ) (e : ℤ) : Prop where
  lt : m < 2 ^ 53
  full : 2 ^ 52 ≤ m ∨ e = -1074
  least_le : -1074 ≤ e

/-- Below the limit there is room for the exponent. -/
theorem Canonical.le_most {m : ℕ} {e : ℤ} (h : Canonical m e) (hlt : (m : ℚ) * 2 ^ e < 2 ^ (1024 : ℤ)) : e ≤ 971 := by
  rcases h.full with hfull | rfl
  · have hdigits : (2 : ℚ) ^ (52 + e) ≤ m * 2 ^ e := by
      rw [zpow_add₀ (by norm_num)]
      exact mul_le_mul_of_nonneg_right (by exact_mod_cast hfull) (by positivity)
    have := (zpow_lt_zpow_iff_right₀ (by norm_num : (1 : ℚ) < 2)).1 (hdigits.trans_lt hlt)
    omega
  · norm_num

/-- What a sign and a magnitude make up. -/
def signed : Sign → ℚ → ℚ
  | .negative, q => -q
  | .positive, q => q

theorem abs_signed {s : Sign} {q : ℚ} (h : 0 ≤ q) : |signed s q| = q := by
  cases s
  · exact (abs_neg q).trans (abs_of_nonneg h)
  · exact abs_of_nonneg h

@[simp] theorem signed_zero (s : Sign) : signed s 0 = 0 := by
  cases s <;> simp [signed]

theorem signed_mul_signed (s t : Sign) (p q : ℚ) : signed s p * signed t q = signed (s * t) (p * q) := by
  cases s <;> cases t
  · exact neg_mul_neg p q
  · exact neg_mul p q
  · exact mul_neg p q
  · rfl

theorem signed_div_signed (s t : Sign) (p q : ℚ) : signed s p / signed t q = signed (s / t) (p / q) := by
  cases s <;> cases t
  · exact neg_div_neg_eq p q
  · exact neg_div q p
  · exact div_neg p
  · rfl

theorem RoundsTo.signed {v r : ℚ} (h : RoundsTo v r) (s : Sign) : RoundsTo (signed s v) (signed s r) := by
  cases s
  · exact h.neg
  · exact h

/-- A zero, or a sign with a canonical mantissa and exponent that floats have room for, and the number it stands
for. -/
inductive Stands : UnpackedFloat → ℚ → Prop
  | zero (s : Sign) : Stands (.zero s) 0
  | finite (s : Sign) {m : ℕ} {e : ℤ} (hm : 0 < m) (hcanonical : Canonical m e) (hmost : e ≤ 971) :
      Stands (.finite s m e hm) (signed s (m * 2 ^ e))

/-- The same, whether or not there is room for the exponent. -/
inductive Rounded : UnpackedFloat → ℚ → Prop
  | zero (s : Sign) : Rounded (.zero s) 0
  | finite (s : Sign) {m : ℕ} {e : ℤ} (hm : 0 < m) (hcanonical : Canonical m e) :
      Rounded (.finite s m e hm) (signed s (m * 2 ^ e))

theorem Stands.rounded {u : UnpackedFloat} {q : ℚ} (h : Stands u q) : Rounded u q := by
  cases h with
  | zero s => exact .zero s
  | finite s hm hcanonical => exact .finite s hm hcanonical

/-- Below the limit, there is room for the exponent. -/
theorem Rounded.stands {u : UnpackedFloat} {q : ℚ} (h : Rounded u q) (hlt : |q| < 2 ^ (1024 : ℤ)) : Stands u q := by
  cases h with
  | zero s => exact .zero s
  | finite s hm hcanonical =>
    rw [abs_signed (by positivity)] at hlt
    exact .finite s hm hcanonical (hcanonical.le_most hlt)

theorem targetExponent_eq (total : ℤ) : Format.binary64.targetExponent total = max (total - 53) (-1074) := rfl

theorem lt_two_pow_of_log2 {m n : ℕ} (h : m.log2 < n) : m < 2 ^ n :=
  Nat.lt_log2_self.trans_le (Nat.pow_le_pow_right Nat.two_pos h)

theorem log2_mul_two_pow {m : ℕ} (hm : m ≠ 0) (k : ℕ) : (m * 2 ^ k).log2 = m.log2 + k := by
  rw [Nat.log2_eq_iff (by positivity), pow_add, Nat.add_right_comm, pow_add]
  exact ⟨Nat.mul_le_mul_right _ (Nat.log2_self_le hm), Nat.mul_lt_mul_of_pos_right Nat.lt_log2_self (by positivity)⟩

theorem log2_le_of_lt {m n : ℕ} (h : m < 2 ^ (n + 1)) : m.log2 ≤ n := by
  by_cases hm : m = 0
  · simp [hm]
  · exact Nat.le_of_lt_succ ((Nat.log2_lt hm).2 h)

section Shifts

open Float.Model.UnpackedFloat (shiftToTargetExponent shiftToExponent)

/-- The first shift leaves 53 digits, or the least exponent, and rounds what is lost. -/
theorem shift_located {m : ℕ} {e : ℤ} {accuracy : Accuracy} {x : ℚ}
    (hx : Located (.ofMantissaAndAccuracy m accuracy) x) (he : e ≤ Format.binary64.targetExponent (totalExponent m e)) :
    ∃ R t, (shiftToTargetExponent Format.binary64 m e accuracy).1.roundedMantissa = R ∧
      (shiftToTargetExponent Format.binary64 m e accuracy).2 = t ∧ R ≤ 2 ^ 53 ∧ -1074 ≤ t ∧
      (2 ^ 52 ≤ R ∨ t = -1074) ∧ RoundsTo (x * 2 ^ e) (R * 2 ^ t) := by
  rw [targetExponent_eq, totalExponent] at he
  obtain ⟨k, hk⟩ : ∃ k : ℕ, max ((m.log2 : ℤ) + 1 + e - 53) (-1074) = e + k :=
    ⟨(max ((m.log2 : ℤ) + 1 + e - 53) (-1074) - e).toNat, by omega⟩
  have hshift : shiftToTargetExponent Format.binary64 m e accuracy =
      (ExtendedMantissa.ofMantissaAndAccuracy m accuracy >>> k, e + k) := by
    have hamount : (max ((m.log2 : ℤ) + 1 + e - 53) (-1074) - e).toNat = k := by omega
    simp only [shiftToTargetExponent, shiftToExponent, targetExponent_eq, totalExponent, hamount]
  rw [hshift]
  dsimp only
  have hshifted := hx.shiftRight k
  have hbounds := hshifted.bounds
  have hnear := hshifted.abs_roundedMantissa_sub_le
  have hrounded := roundedMantissa_le (ExtendedMantissa.ofMantissaAndAccuracy m accuracy >>> k)
  rw [mantissa_shiftRight, mantissa_ofMantissaAndAccuracy] at hbounds hrounded
  have hpos : (0 : ℚ) < 2 ^ (e + k) := by positivity
  have hvalue : x * 2 ^ e = x / 2 ^ k * 2 ^ (e + k) := by
    rw [zpow_add₀ (by norm_num), zpow_natCast]
    field_simp
  have hlt : m / 2 ^ k < 2 ^ 53 := by
    rw [Nat.div_lt_iff_lt_mul (by positivity), ← pow_add]
    exact lt_two_pow_of_log2 (by omega)
  have hfull : 2 ^ 52 ≤ m / 2 ^ k ∨ e + k = -1074 := by
    by_cases hleast : e + k = -1074
    · exact Or.inr hleast
    · have hlog : m.log2 = 52 + k := by omega
      have hm : m ≠ 0 := by
        rintro rfl
        rw [Nat.log2_zero] at hlog
        omega
      rw [Nat.le_div_iff_mul_le (by positivity), ← pow_add, ← hlog]
      exact Or.inl (Nat.log2_self_le hm)
  have hnonneg : 0 ≤ x * 2 ^ e := by
    rw [hvalue]
    exact mul_nonneg ((Nat.cast_nonneg _).trans hbounds.1) hpos.le
  have hlarge : 2 ^ (e + k + 52) ≤ x * 2 ^ e ∨ e + k = -1074 := by
    refine hfull.imp_left fun hfull => ?_
    rw [hvalue, zpow_add₀ (by norm_num), mul_comm]
    refine mul_le_mul_of_nonneg_right (le_trans ?_ hbounds.1) hpos.le
    exact_mod_cast hfull
  refine ⟨_, _, rfl, rfl, by omega, by omega, by omega, ?_⟩
  refine ⟨e + k, by omega, by rwa [abs_of_nonneg hnonneg], ⟨_, by rw [Int.cast_natCast]⟩, ?_⟩
  rw [hvalue, ← sub_mul, abs_mul, abs_of_pos hpos, zpow_sub_one₀ (by norm_num), mul_comm]
  exact mul_le_mul_of_nonneg_left (by linarith) hpos.le

/-- Rounding up may carry into one more digit, which is shifted away. -/
theorem shift_rounded {m : ℕ} {t : ℤ} (hm : m ≤ 2 ^ 53) (ht : -1074 ≤ t) (hfull : 2 ^ 52 ≤ m ∨ t = -1074) :
    ∃ m' e', (shiftToTargetExponent Format.binary64 m t .exact).1.mantissa = m' ∧
      (shiftToTargetExponent Format.binary64 m t .exact).2 = e' ∧ Canonical m' e' ∧
      (m' : ℚ) * 2 ^ e' = m * 2 ^ t ∧ e' ≤ t + 1 := by
  refine ⟨_, _, rfl, rfl, ?_⟩
  simp only [shiftToTargetExponent, shiftToExponent,
    targetExponent_eq, totalExponent, mantissa_shiftRight, mantissa_ofMantissaAndAccuracy]
  rcases hm.lt_or_eq with hlt | rfl
  · have hlog := log2_le_of_lt hlt
    have hnone : (max ((m.log2 : ℤ) + 1 + t - 53) (-1074) - t).toNat = 0 := by omega
    simp only [hnone, pow_zero, Nat.div_one, Nat.cast_zero, add_zero]
    exact ⟨⟨hlt, hfull, ht⟩, trivial, by omega⟩
  · have hone : (max (((2 ^ 53 : ℕ).log2 : ℤ) + 1 + t - 53) (-1074) - t).toNat = 1 := by
      rw [Nat.log2_two_pow]
      omega
    simp only [hone]
    refine ⟨⟨by norm_num, Or.inl (by norm_num), by omega⟩, ?_, by omega⟩
    rw [zpow_add₀ (by norm_num)]
    norm_num
    ring

end Shifts

/-! ## Rounding -/

section Exponents

open Float.Model.UnpackedFloat

theorem decreaseExponent_eq (m : ℕ) (e target : ℤ) : (decreaseExponent m e target).2 = min e target ∧
    ((decreaseExponent m e target).1 : ℚ) * 2 ^ min e target = m * 2 ^ e ∧
    (m ≠ 0 → totalExponent (decreaseExponent m e target).1 (min e target) = totalExponent m e) := by
  obtain ⟨k, hk⟩ : ∃ k : ℕ, (e - target).toNat = k := ⟨_, rfl⟩
  have hmin : min e target = e - k := by omega
  rw [decreaseExponent, hk, hmin]
  refine ⟨rfl, ?_, fun hm => ?_⟩
  · rw [Nat.shiftLeft_eq, Nat.cast_mul, Nat.cast_pow, zpow_sub₀ (by norm_num), zpow_natCast]
    push_cast
    field_simp
  · rw [totalExponent, totalExponent, Nat.shiftLeft_eq, log2_mul_two_pow hm]
    push_cast
    ring

end Exponents

namespace Rounded

open Float.Model.UnpackedFloat

/-- What is rounded lies near the value that its mantissa and accuracy locate. -/
theorem roundWithAccuracy {m : ℕ} {e : ℤ} {accuracy : Accuracy} {x : ℚ} (s : Sign)
    (hx : Located (.ofMantissaAndAccuracy m accuracy) x) (he : e ≤ Format.binary64.targetExponent (totalExponent m e)) :
    ∃ r, Rounded (UnpackedFloat.roundWithAccuracy Format.binary64 s m e accuracy) r ∧
      RoundsTo (signed s (x * 2 ^ e)) r := by
  obtain ⟨R, t, hR, ht, hle, hleast, hfull, hround⟩ := shift_located hx he
  obtain ⟨m', e', hm', he', hcanonical, hsame, hnext⟩ := shift_rounded hle hleast hfull
  rw [← hsame] at hround
  unfold UnpackedFloat.roundWithAccuracy
  simp only [hR, ht, hm', he']
  split
  · rename_i hzero
    refine ⟨0, .zero s, ?_⟩
    rw [hzero] at hround
    simpa using hround.signed s
  · exact ⟨_, .finite s _ hcanonical, hround.signed s⟩

theorem round {m : ℕ} {e : ℤ} (s : Sign) (hm : m ≠ 0) :
    ∃ r, Rounded (UnpackedFloat.round Format.binary64 s m e) r ∧ RoundsTo (signed s (m * 2 ^ e)) r := by
  obtain ⟨hexponent, hvalue, htotal⟩ :=
    decreaseExponent_eq m e (Format.binary64.targetExponent (totalExponent m e))
  rw [UnpackedFloat.round]
  dsimp only
  rw [hexponent, ← hvalue]
  refine roundWithAccuracy s (Located.ofMantissa _) ?_
  rw [htotal hm]
  exact min_le_right _ _

/-- A whole number of some power of two is rounded. -/
theorem normalize (z e : ℤ) (s : Sign) :
    ∃ r, Rounded (UnpackedFloat.normalize Format.binary64 z e s) r ∧ RoundsTo (z * 2 ^ e) r := by
  rw [UnpackedFloat.normalize]
  rcases lt_trichotomy z 0 with hz | rfl | hz
  · obtain ⟨m, rfl⟩ : ∃ m : ℕ, z = -m := ⟨(-z).toNat, by omega⟩
    have hcompare : compare (-(m : ℤ)) 0 = .lt := compare_lt_iff_lt.2 hz
    rw [hcompare]
    have hm : (-(-(m : ℤ))).toNat = m := by omega
    simpa [hm, signed] using round (m := m) (e := e) .negative (by omega)
  · exact ⟨0, .zero s, by simpa using RoundsTo.zero⟩
  · obtain ⟨m, rfl⟩ : ∃ m : ℕ, z = m := ⟨z.toNat, by omega⟩
    have hcompare : compare (m : ℤ) 0 = .gt := compare_gt_iff_gt.2 hz
    rw [hcompare]
    simpa [signed] using round (m := m) (e := e) .positive (by omega)

/-- A product of enough digits, or with an exponent below the least, is rounded. -/
theorem mul_finite (s t : Sign) {m n : ℕ} {e d : ℤ} (hm : 0 < m) (hn : 0 < n)
    (hdigits : 2 ^ 52 ≤ m * n ∨ e + d ≤ -1074) :
    ∃ r, Rounded (UnpackedFloat.mul Format.binary64 (.finite s m e hm) (.finite t n d hn)) r ∧
      RoundsTo (signed s (m * 2 ^ e) * signed t (n * 2 ^ d)) r := by
  have hproduct : signed s (m * 2 ^ e) * signed t (n * 2 ^ d) = signed (s * t) ((m * n : ℕ) * 2 ^ (e + d)) := by
    have hmagnitude : (m * 2 ^ e : ℚ) * (n * 2 ^ d) = (m * n : ℕ) * 2 ^ (e + d) := by
      rw [zpow_add₀ (by norm_num)]
      push_cast
      ring
    rw [← hmagnitude]
    exact signed_mul_signed s t _ _
  rw [hproduct]
  refine roundWithAccuracy (s * t) (Located.ofMantissa _) ?_
  rw [targetExponent_eq, totalExponent]
  rcases hdigits with hdigits | hleast
  · have := (Nat.le_log2 (by positivity)).2 hdigits
    omega
  · omega

end Rounded

namespace Stands

open Float.Model.UnpackedFloat

variable {u w : UnpackedFloat} {p q : ℚ}

/-- What a float stands for needs no rounding. -/
theorem roundsTo_self (h : Stands u q) : RoundsTo q q := by
  cases h with
  | zero => exact .zero
  | @finite s m e hm hcanonical =>
    have hself : RoundsTo (m * 2 ^ e) (m * 2 ^ e) := by
      refine ⟨e, hcanonical.least_le, hcanonical.full.imp_left fun hfull => ?_, ⟨m, by simp⟩, by simp; positivity⟩
      rw [abs_of_nonneg (by positivity), zpow_add₀ (by norm_num), mul_comm]
      exact mul_le_mul_of_nonneg_right (by exact_mod_cast hfull) (by positivity)
    exact hself.signed s

/-- No float is larger than the largest one. -/
theorem abs_le (h : Stands u q) : |q| ≤ largest := by
  cases h with
  | zero s =>
    rw [abs_zero, largest]
    positivity
  | @finite s m e hm hcanonical hmost =>
    rw [abs_signed (by positivity), largest]
    have hdigits : (m : ℚ) ≤ 2 ^ 53 - 1 := by
      have : (m : ℚ) + 1 ≤ 2 ^ 53 := by exact_mod_cast hcanonical.lt
      linarith
    exact mul_le_mul hdigits (zpow_le_zpow_right₀ one_le_two hmost) (by positivity) (by norm_num)

theorem neg (h : Stands u q) : Stands u.neg (-q) := by
  cases h with
  | zero s =>
    rw [neg_zero]
    exact .zero (-s)
  | @finite s m e hm hcanonical hmost =>
    have hsigned : -signed s (m * 2 ^ e) = signed (-s) (m * 2 ^ e) := by
      cases s
      · exact neg_neg _
      · rfl
    rw [hsigned]
    exact .finite (-s) hm hcanonical hmost

/-! ## Arithmetic -/

/-- Sums are rounded. -/
theorem add (hu : Stands u p) (hw : Stands w q) :
    ∃ r, Rounded (UnpackedFloat.add Format.binary64 u w) r ∧ RoundsTo (p + q) r := by
  cases hu with
  | zero s =>
    cases hw with
    | zero t =>
      refine ⟨0, ?_, by simpa using RoundsTo.zero⟩
      rw [UnpackedFloat.add]
      split <;> exact .zero _
    | finite t hm hcanonical hmost =>
      have hself := Stands.finite t hm hcanonical hmost
      exact ⟨_, hself.rounded, by simpa using hself.roundsTo_self⟩
  | @finite s m e hm hcanonical hmost =>
    cases hw with
    | zero t =>
      have hself := Stands.finite s hm hcanonical hmost
      exact ⟨_, hself.rounded, by simpa using hself.roundsTo_self⟩
    | @finite t n d hn _ _ =>
      have hleft := (decreaseExponent_eq m e (min e d)).2.1
      have hright := (decreaseExponent_eq n d (min e d)).2.1
      rw [min_eq_right (min_le_left e d)] at hleft
      rw [min_eq_right (min_le_right e d)] at hright
      have happly : ∀ (s : Sign) (m : ℕ) (q : ℚ), (s.apply m : ℚ) * q = signed s (m * q) := by
        intro s m q
        cases s <;> simp [Sign.apply, signed]
      have hsum : ((s.apply (decreaseExponent m e (min e d)).1 + t.apply (decreaseExponent n d (min e d)).1 : ℤ) : ℚ) *
          2 ^ min e d = signed s (m * 2 ^ e) + signed t (n * 2 ^ d) := by
        push_cast
        rw [add_mul, happly, happly, hleft, hright]
      rw [← hsum]
      exact Rounded.normalize _ _ .positive

theorem sub_eq_add (u w : UnpackedFloat) :
    UnpackedFloat.sub Format.binary64 u w = UnpackedFloat.add Format.binary64 u w.neg := by
  cases u with
  | finite s m e hm =>
    cases w with
    | finite t n d hn =>
      have hopposite : ∀ z : ℤ, (-t).apply z = -t.apply z := by
        intro z
        cases t
        · exact (neg_neg z).symm
        · rfl
      show UnpackedFloat.normalize _ (s.apply _ - t.apply _) _ _ =
        UnpackedFloat.normalize _ (s.apply _ + (-t).apply _) _ _
      rw [hopposite, Int.sub_eq_add_neg]
    | _ => rfl
  | _ => cases w <;> rfl

/-- Differences are rounded. -/
theorem sub (hu : Stands u p) (hw : Stands w q) :
    ∃ r, Rounded (UnpackedFloat.sub Format.binary64 u w) r ∧ RoundsTo (p - q) r := by
  rw [sub_eq_add_neg p q, sub_eq_add]
  exact hu.add hw.neg

/-- Products are rounded. -/
theorem mul (hu : Stands u p) (hw : Stands w q) :
    ∃ r, Rounded (UnpackedFloat.mul Format.binary64 u w) r ∧ RoundsTo (p * q) r := by
  cases hu with
  | zero s =>
    cases hw with
    | zero t => exact ⟨0, .zero _, by simpa using RoundsTo.zero⟩
    | finite t => exact ⟨0, .zero _, by simpa using RoundsTo.zero⟩
  | @finite s m e hm hcanonical _ =>
    cases hw with
    | zero t => exact ⟨0, .zero _, by simpa using RoundsTo.zero⟩
    | @finite t n d hn hcanonical' _ =>
      refine Rounded.mul_finite s t hm hn ?_
      -- a factor with all digits leaves the product enough of them
      rcases hcanonical.full with hfull | hleast
      · exact Or.inl (hfull.trans (Nat.le_mul_of_pos_right m hn))
      · rcases hcanonical'.full with hfull | hleast'
        · exact Or.inl (hfull.trans (Nat.le_mul_of_pos_left n hm))
        · exact Or.inr (by omega)

/-- A quotient has all its digits, unless its exponent is the least. -/
theorem divCore_eq {m n : ℕ} (e d : ℤ) (hm : 0 < m) (hn : 0 < n) : ∃ (E : ℤ) (k : ℕ), e - d = E + k ∧
    divCore Format.binary64 m e n d = (m * 2 ^ k / n, E, accuracyOfFraction (m * 2 ^ k % n) n) ∧
    E ≤ Format.binary64.targetExponent (totalExponent (m * 2 ^ k / n) E) := by
  obtain ⟨E, hE⟩ : ∃ E, min (e - d) (Format.binary64.targetExponent (totalExponent m e - totalExponent n d)) = E :=
    ⟨_, rfl⟩
  obtain ⟨k, hk⟩ : ∃ k : ℕ, e - d = E + k := ⟨(e - d - E).toNat, by omega⟩
  have hamount : (e - d - E).toNat = k := by omega
  refine ⟨E, k, hk, by simp only [divCore, hE, hamount, Nat.shiftLeft_eq], ?_⟩
  rw [targetExponent_eq, totalExponent, totalExponent] at hE
  rw [targetExponent_eq, totalExponent]
  by_cases hleast : E ≤ -1074
  · omega
  · have hlog : n.log2 + 1 + 52 ≤ m.log2 + k := by omega
    have hlarge : 2 ^ 52 * n ≤ m * 2 ^ k := calc
      2 ^ 52 * n ≤ 2 ^ 52 * 2 ^ (n.log2 + 1) := Nat.mul_le_mul_left _ Nat.lt_log2_self.le
      _ = 2 ^ (n.log2 + 1 + 52) := by rw [← pow_add, add_comm]
      _ ≤ 2 ^ (m.log2 + k) := Nat.pow_le_pow_right Nat.two_pos hlog
      _ = 2 ^ m.log2 * 2 ^ k := pow_add _ _ _
      _ ≤ m * 2 ^ k := Nat.mul_le_mul_right _ (Nat.log2_self_le hm.ne')
    have hfull : 2 ^ 52 ≤ m * 2 ^ k / n := (Nat.le_div_iff_mul_le hn).2 hlarge
    have hdigits := (Nat.le_log2 (by omega)).2 hfull
    omega

/-- Quotients are rounded. -/
theorem div (hu : Stands u p) (hw : Stands w q) (hq : q ≠ 0) :
    ∃ r, Rounded (UnpackedFloat.div Format.binary64 u w) r ∧ RoundsTo (p / q) r := by
  cases hw with
  | zero t => exact absurd rfl hq
  | @finite t n d hn _ _ =>
    cases hu with
    | zero s => exact ⟨0, .zero _, by simpa using RoundsTo.zero⟩
    | @finite s m e hm _ _ =>
      obtain ⟨E, k, hk, hcore, hE⟩ := divCore_eq e d hm hn
      have hquotient : signed s (m * 2 ^ e) / signed t (n * 2 ^ d) =
          signed (s / t) ((m * 2 ^ k : ℕ) / n * 2 ^ E) := by
        have hmagnitude : (m * 2 ^ e : ℚ) / (n * 2 ^ d) = (m * 2 ^ k : ℕ) / n * 2 ^ E := by
          rw [show e = E + k + d by omega, zpow_add₀ (by norm_num), zpow_add₀ (by norm_num), zpow_natCast]
          push_cast
          field_simp
        rw [← hmagnitude]
        exact signed_div_signed s t _ _
      rw [hquotient]
      show ∃ r, Rounded (UnpackedFloat.roundWithAccuracy Format.binary64 (s / t) (divCore Format.binary64 m e n d).1
        (divCore Format.binary64 m e n d).2.1 (divCore Format.binary64 m e n d).2.2) r ∧ _
      rw [hcore]
      exact Rounded.roundWithAccuracy (s / t) (Located.ofFraction _ hn) hE

end Stands

end Spreadsheet.Binary64
