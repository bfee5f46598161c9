import Spreadsheet.Proofs.FloatOrder

/-!
# Whole numbers in floats

Up to 53 digits, sums and differences of integers are exact, and not only as numbers: only zero has two floats, and
opposite floats add up to the one without a sign. Whatever is read off a float as a whole number is the integer that it
stands for.

* `Represents.unique`, `Represents.eq_of_ne_zero` : one number for a float, and one float for a number;
* `ofInt_add`, `ofInt_sub` : sums and differences;
* `Represents.abs`, `Represents.truncate` : magnitudes and whole parts;
* `saturate_of_represents`, `saturate_truncate` : integers within bounds.
-/

namespace Spreadsheet.Binary64

open Float.Model (UnpackedFloat Format)
open Float.Model.UnpackedFloat (Sign decreaseExponent)

variable {x y : Float} {p q : ℚ} {u w : UnpackedFloat} {a b z : ℤ}

/-! ## One float for a number -/

theorem Represents.unique (hp : Represents x p) (hq : Represents x q) : p = q :=
  (represents_iff_stands.1 hp).unique (represents_iff_stands.1 hq)

/-- A number other than zero has one sign, mantissa and exponent. -/
theorem Stands.eq_of_ne_zero (hu : Stands u q) (hw : Stands w q) (hq : q ≠ 0) : u = w := by
  cases hu with
  | zero s => exact absurd rfl hq
  | @finite s m e hm hcanonical =>
    have hpos : (0 : ℚ) < m * 2 ^ e := by positivity
    generalize hv : signed s (m * 2 ^ e) = v at hw hq
    cases hw with
    | zero t => exact absurd rfl hq
    | @finite t n d hn hcanonical' =>
      have hpos' : (0 : ℚ) < n * 2 ^ d := by positivity
      obtain ⟨rfl, hvalue⟩ : s = t ∧ (m : ℚ) * 2 ^ e = n * 2 ^ d := by
        cases s <;> cases t <;> simp only [signed] at hv
        · exact ⟨rfl, neg_injective hv⟩
        · linarith
        · linarith
        · exact ⟨rfl, hv⟩
      have horder := hcanonical.compare_eq hcanonical'
      rw [compare_eq_iff_eq.2 hvalue, Ordering.then_eq_eq, compare_eq_iff_eq, compare_eq_iff_eq] at horder
      obtain ⟨rfl, rfl⟩ := horder
      rfl

theorem eq_of_unpack (h : x.toModel.unpack = y.toModel.unpack) : x = y := by
  obtain ⟨⟨⟨b⟩, hb⟩⟩ := x
  obtain ⟨⟨⟨c⟩, hc⟩⟩ := y
  obtain rfl : b = c := (UnpackedFloat.unpack_inj_of_valid hb hc).1 h
  rfl

/-- Only zero has two floats. -/
theorem Represents.eq_of_ne_zero (hx : Represents x q) (hy : Represents y q) (hq : q ≠ 0) : x = y :=
  eq_of_unpack ((represents_iff_stands.1 hx).eq_of_ne_zero (represents_iff_stands.1 hy) hq)

/-! ## Sums and differences -/

/-- Opposite floats add up to the zero without a sign. -/
theorem add_neg_self (hx : Represents x q) (hq : q ≠ 0) : x + -x = 0.0 := by
  have hstands := represents_iff_stands.1 hx
  have hneg : (-x).toModel.unpack = x.toModel.unpack.neg := unpack_pack hstands.neg
  show Float.ofModel (.pack (UnpackedFloat.add Format.binary64 x.toModel.unpack (-x).toModel.unpack)) = 0.0
  rw [hneg]
  cases hunpack : x.toModel.unpack with
  | zero s =>
    rw [hunpack] at hstands
    cases hstands
    exact absurd rfl hq
  | finite s m e hm =>
    have hopposite : ∀ n : ℤ, s.apply n + (-s).apply n = 0 := by
      intro n
      cases s
      · exact neg_add_cancel n
      · exact add_neg_cancel n
    have hsum : UnpackedFloat.add Format.binary64 (.finite s m e hm) (UnpackedFloat.neg (.finite s m e hm)) =
        .zero .positive := by
      show UnpackedFloat.normalize _ (s.apply (decreaseExponent m e (min e e)).1 +
        (-s).apply (decreaseExponent m e (min e e)).1) _ _ = _
      rw [hopposite]
      rfl
    rw [hsum]
    rfl
  | _ =>
    rw [hunpack] at hstands
    cases hstands

theorem ofInt_neg (hz : |z| < 2 ^ 53) (hne : z ≠ 0) : Float.ofInt (-z) = -Float.ofInt z := by
  have hneg : Represents (Float.ofInt (-z)) (-z : ℤ) := represents_ofInt (by rwa [abs_neg])
  exact hneg.eq_of_ne_zero (by exact_mod_cast (represents_ofInt hz).neg) (by exact_mod_cast neg_ne_zero.2 hne)

/-- Sums of integers are exact, down to the sign of a zero. -/
theorem ofInt_add (ha : |a| < 2 ^ 53) (hb : |b| < 2 ^ 53) (hsum : |a + b| < 2 ^ 53) :
    Float.ofInt a + Float.ofInt b = Float.ofInt (a + b) := by
  have hab := represents_ofInt hsum
  obtain ⟨r, hr, hround⟩ := (represents_ofInt ha).add (represents_ofInt hb) (by exact_mod_cast hab.abs_le)
  obtain rfl : r = (a + b : ℤ) := RoundsTo.eq_of_int (by exact_mod_cast hround) (by exact_mod_cast hsum)
  by_cases hzero : a + b = 0
  · by_cases ha₀ : a = 0
    · obtain rfl := ha₀
      obtain rfl : b = 0 := by omega
      rfl
    · obtain rfl : b = -a := by omega
      rw [ofInt_neg ha ha₀, add_neg_self (represents_ofInt ha) (by exact_mod_cast ha₀), hzero]
      rfl
  · exact hr.eq_of_ne_zero hab (by exact_mod_cast hzero)

theorem represents_ofInt_sub (ha : |a| < 2 ^ 53) (hb : |b| < 2 ^ 53) (hdifference : |a - b| < 2 ^ 53) :
    Represents (Float.ofInt a - Float.ofInt b) (a - b : ℤ) := by
  have hab := represents_ofInt hdifference
  obtain ⟨r, hr, hround⟩ := (represents_ofInt ha).sub (represents_ofInt hb) (by exact_mod_cast hab.abs_le)
  obtain rfl : r = (a - b : ℤ) := RoundsTo.eq_of_int (by exact_mod_cast hround) (by exact_mod_cast hdifference)
  exact hr

/-! ## Magnitudes and whole parts -/

theorem Represents.abs (h : Represents x q) : Represents x.abs |q| := by
  have hstands := represents_iff_stands.1 h
  refine represents_pack ?_
  cases hunpack : x.toModel.unpack with
  | zero s =>
    rw [hunpack] at hstands
    cases hstands
    rw [abs_zero]
    exact .zero _
  | finite s m e hm =>
    rw [hunpack] at hstands
    cases hstands with
    | finite _ _ hcanonical hmost =>
      rw [abs_signed (by positivity)]
      exact .finite .positive hm hcanonical hmost
  | _ =>
    rw [hunpack] at hstands
    cases hstands

variable {lo hi : ℤ}

theorem saturate_of_represents (h : Represents x z) : saturate lo hi x = max lo (min hi z) := by
  obtain ⟨b, hb, hvalue⟩ := h
  rw [saturate, hb]
  dsimp only
  rw [Binary.truncate_of_value hvalue]

/-- Rounded toward zero, a finite float stands for its whole part. -/
theorem represents_truncate_of_exact {b : Binary} (h : exact x = .finite b) (hfraction : ¬0 ≤ b.exponent) :
    Represents (truncate x) b.truncate := by
  obtain ⟨hnumerator, -⟩ := Binary.fraction_of_exponent hfraction
  have hlt : b.numerator / b.denominator < 2 ^ 53 :=
    (Nat.div_le_self _ _).trans_lt (hnumerator ▸ mantissa_lt_of_exact h)
  rw [Binary64.truncate, mapMagnitude, h, Binary.truncate]
  dsimp only
  rw [if_neg hfraction]
  split
  · exact_mod_cast (represents_ofNat hlt).neg
  · exact_mod_cast represents_ofNat hlt

/-- A whole number is its own whole part. -/
theorem Represents.truncate (h : Represents x z) : Represents (truncate x) z := by
  obtain ⟨b, hb, hvalue⟩ := h
  by_cases hfraction : 0 ≤ b.exponent
  · rw [Binary64.truncate, Binary64.mapMagnitude, hb]
    dsimp only
    rw [if_pos hfraction]
    exact ⟨b, hb, hvalue⟩
  · have htruncate := represents_truncate_of_exact hb hfraction
    rwa [Binary.truncate_of_value hvalue] at htruncate

theorem saturate_truncate (x : Float) : saturate lo hi (truncate x) = saturate lo hi x := by
  cases hexact : exact x with
  | finite b =>
    by_cases hfraction : 0 ≤ b.exponent
    · rw [Binary64.truncate, mapMagnitude, hexact]
      dsimp only
      rw [if_pos hfraction]
    · rw [saturate_of_represents (represents_truncate_of_exact hexact hfraction), saturate, hexact]
  | _ => rw [Binary64.truncate, mapMagnitude, hexact]

/-- Within the 64-bit integers, a whole number is read as it is. -/
theorem Represents.toInt64Range (h : Represents x z) (hz : |z| < 2 ^ 63) : toInt64Range x = z := by
  rw [abs_lt] at hz
  rw [Binary64.toInt64Range, saturate_of_represents h]
  omega

theorem represents_zero : Represents 0.0 0 := ⟨⟨false, 0, -1074⟩, rfl, by norm_num [Binary.value]⟩

theorem represents_one : Represents 1.0 1 := ⟨⟨false, 2 ^ 52, -52⟩, rfl, by norm_num [Binary.value]⟩

end Spreadsheet.Binary64
