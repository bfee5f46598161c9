import Spreadsheet.Proofs.ExactFloats

/-!
# Floats without a sign

Sums, products and quotients of floats whose sign bit is not set have none either, also when they are infinite or no
numbers, and so have their roundings. Such a float is never less than zero.

* `Unsigned`, `unsigned_iff_negative` : the sign bit, and the sign of the exact value;
* `Unsigned.add`, `Unsigned.mul`, `Unsigned.div`, `Unsigned.nearest` : what keeps it off;
* `Unsigned.not_lt` : no such float is less than zero;
* `isFinite_abs` : magnitudes.
-/

namespace Spreadsheet.Binary64

open Float.Model (UnpackedFloat Format)
open Float.Model.UnpackedFloat (Sign packComponents)

variable {x y : Float} {u w : UnpackedFloat}

/-- The sign bit is not set. -/
def Unsigned (x : Float) : Prop := x.toBits.toNat < 2 ^ 63

/-- The sign is positive, if there is one. -/
def Positive : UnpackedFloat → Prop
  | .notANumber => True
  | .infinity s | .zero s | .finite s _ _ _ => s = .positive

/-! ## Signs of unpacked floats -/

theorem Positive.roundWithAccuracy (m : ℕ) (e : ℤ) (accuracy : Float.Model.UnpackedFloat.Accuracy) :
    Positive (UnpackedFloat.roundWithAccuracy Format.binary64 .positive m e accuracy) := by
  unfold UnpackedFloat.roundWithAccuracy
  dsimp only
  split <;> rfl

theorem Positive.mul (hu : Positive u) (hw : Positive w) : Positive (UnpackedFloat.mul Format.binary64 u w) := by
  cases u <;> cases w <;> simp only [Positive] at hu hw <;> subst_vars <;>
    first | trivial | exact Positive.roundWithAccuracy ..

theorem Positive.div (hu : Positive u) (hw : Positive w) : Positive (UnpackedFloat.div Format.binary64 u w) := by
  cases u <;> cases w <;> simp only [Positive] at hu hw <;> subst_vars <;>
    first | trivial | exact Positive.roundWithAccuracy ..

theorem Positive.normalize {z : ℤ} (hz : 0 ≤ z) (e : ℤ) :
    Positive (UnpackedFloat.normalize Format.binary64 z e .positive) := by
  unfold UnpackedFloat.normalize
  split
  · rename_i hneg
    exact absurd (compare_lt_iff_lt.1 hneg) hz.not_gt
  · rfl
  · exact Positive.roundWithAccuracy ..

theorem Positive.add (hu : Positive u) (hw : Positive w) : Positive (UnpackedFloat.add Format.binary64 u w) := by
  cases u <;> cases w <;> simp only [Positive] at hu hw <;> subst_vars <;>
    first | trivial | exact Positive.normalize (Int.add_nonneg (Int.natCast_nonneg _) (Int.natCast_nonneg _)) _

theorem Positive.abs (u : UnpackedFloat) : Positive u.abs := by
  cases u <;> trivial

/-! ## Sign bits -/

theorem toNat_packComponents_lt (g : BitVec 11) (f : BitVec 52) :
    (packComponents Format.binary64 .positive g f).toNat < 2 ^ 63 := by
  have hbits : (0#1 ++ g ++ f).toNat = g.toNat <<< 52 + f.toNat := by
    rw [BitVec.toNat_append, BitVec.toNat_append, Nat.shiftLeft_add_eq_or_of_lt f.isLt]
    simp
  have hg := g.isLt
  have hf := f.isLt
  show (0#1 ++ g ++ f).toNat < 2 ^ 63
  rw [hbits, Nat.shiftLeft_eq]
  omega

theorem Positive.unsigned (h : Positive u) : Unsigned (.ofModel (.pack u)) := by
  show (UnpackedFloat.pack Format.binary64 u).toNat < 2 ^ 63
  cases u <;> simp only [Positive] at h <;> subst_vars
  · exact toNat_packComponents_lt ..
  · exact toNat_packComponents_lt ..
  · exact toNat_packComponents_lt ..
  · unfold UnpackedFloat.pack
    dsimp only
    split
    · exact toNat_packComponents_lt ..
    · split
      · exact toNat_packComponents_lt ..
      · exact toNat_packComponents_lt ..

namespace Unsigned

theorem positive (h : Unsigned x) : Positive x.toModel.unpack := by
  have hsign : ¬2 ^ 63 ≤ x.toModel.toBits.toBitVec.toNat := not_le.2 h
  rw [Float.Model.unpack, unpack_eq_ofFields_toNat, if_neg hsign]
  unfold ofFields
  split
  · split <;> trivial
  · split
    · split <;> trivial
    · trivial

theorem add (hx : Unsigned x) (hy : Unsigned y) : Unsigned (x + y) := (hx.positive.add hy.positive).unsigned

theorem mul (hx : Unsigned x) (hy : Unsigned y) : Unsigned (x * y) := (hx.positive.mul hy.positive).unsigned

theorem div (hx : Unsigned x) (hy : Unsigned y) : Unsigned (x / y) := (hx.positive.div hy.positive).unsigned

/-- It is never less than zero. -/
theorem not_lt (h : Unsigned x) : ¬x < 0.0 := by
  have hpositive := h.positive
  rw [lt_iff_compare]
  cases hunpack : x.toModel.unpack <;> rw [hunpack] at hpositive <;> simp only [Positive] at hpositive <;>
    subst_vars <;> nofun

end Unsigned

theorem unsigned_abs (x : Float) : Unsigned x.abs := (Positive.abs _).unsigned

/-- The exact value is negative if the sign bit is set. -/
theorem unsigned_iff_negative {b : Binary} (h : exact x = .finite b) : Unsigned x ↔ b.negative = false := by
  unfold exact at h
  dsimp only at h
  split at h
  · split at h <;> cases h
  · split at h <;> cases h <;> simp [Unsigned]

theorem unsigned_iff_negative_infinite {negative : Bool} (h : exact x = .infinite negative) :
    Unsigned x ↔ negative = false := by
  unfold exact at h
  dsimp only at h
  split at h
  · split at h <;> cases h
    simp [Unsigned]
  · split at h <;> cases h

theorem Represents.unsigned {q : ℚ} (h : Represents x q) (hq : 0 < q) : Unsigned x := by
  obtain ⟨b, hb, rfl⟩ := h
  rw [unsigned_iff_negative hb]
  by_contra hnegative
  have hmagnitude : (0 : ℚ) ≤ b.mantissa * 2 ^ b.exponent := by positivity
  rw [Binary.value, if_pos (by simpa using hnegative)] at hq
  linarith

theorem unsigned_ofNat {n : ℕ} (hn : n < 2 ^ 53) : Unsigned (Float.ofNat n) := by
  rcases Nat.eq_zero_or_pos n with rfl | hpos
  · show (0 : ℕ) < 2 ^ 63
    norm_num
  · exact (represents_ofNat hn).unsigned (by exact_mod_cast hpos)

namespace Unsigned

theorem signum (h : Unsigned x) : Unsigned (signum x) := by
  have hone : Unsigned 1 := Represents.unsigned represents_one one_pos
  unfold Binary64.signum
  split
  · exact h
  · rename_i negative hexact
    rw [(unsigned_iff_negative_infinite hexact).1 h]
    exact hone
  · rename_i b hexact
    rw [(unsigned_iff_negative hexact).1 h]
    exact hone

theorem nearest (h : Unsigned x) : Unsigned (nearest x) := by
  unfold Binary64.nearest mapMagnitude
  split
  · rename_i b hexact
    split
    · exact h
    · rename_i hfraction
      obtain ⟨hnumerator, hdenominator⟩ := Binary.fraction_of_exponent hfraction
      have hmantissa := mantissa_lt_of_exact hexact
      rw [(unsigned_iff_negative hexact).1 h]
      refine unsigned_ofNat ?_
      rw [Nat.div_lt_iff_lt_mul (by omega), hnumerator]
      omega
  · exact h

theorem natPower (h : Unsigned x) (n : ℕ) : Unsigned (natPower x n) :=
  powerAux_induction (fun x _ => Unsigned x) 1 (a := 1) (b := 1) (fun hx hy _ _ => hx.mul hy)
    (Represents.unsigned represents_one one_pos) h le_rfl le_rfl (by norm_num)

end Unsigned

/-! ## Magnitudes -/

theorem isFinite_abs : x.abs.isFinite = x.isFinite := by
  cases h : x.isFinite with
  | true =>
    obtain ⟨q, hq⟩ := exists_represents h
    exact hq.abs.isFinite
  | false =>
    have hunpack : x.toModel.unpack.isFinite = false := h
    show (UnpackedFloat.unpack Format.binary64
      (UnpackedFloat.pack Format.binary64 x.toModel.unpack.abs)).isFinite = false
    cases hx : x.toModel.unpack with
    | notANumber => rfl
    | infinity s => exact congrArg UnpackedFloat.isFinite (unpack_packComponents .positive (-1) 0)
    | _ =>
      rw [hx] at hunpack
      cases hunpack

end Spreadsheet.Binary64
