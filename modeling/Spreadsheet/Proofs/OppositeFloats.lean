import Spreadsheet.Proofs.RoundedFloats

/-!
# Opposite floats

The sign of a float takes no part in rounding its magnitude. Products and quotients change only their sign with one of
their operands, and sums of floats without a sign do with both; so the number rounded at decimal places has the
opposite number rounded as its opposite, whether or not they are finite.

* `exact_eq` : the exact value, read off the sign, mantissa and exponent;
* `zero_iff_of_exact`, `lt_zero_iff_of_not_finite` : the negative zero and the negative infinity;
* `unpack_neg`, `eq_abs_or_eq_neg_abs` : signs and magnitudes;
* `neg_mul_eq`, `neg_div_eq`, `neg_add_neg_eq`, `signum_neg`, `nearest_neg` : operations on opposites;
* `Format.abs_roundHalfAway_abs` : magnitudes are rounded as numbers with a sign are.
-/

namespace Spreadsheet

namespace Binary64

open Float.Model (UnpackedFloat Format)
open Float.Model.UnpackedFloat (Sign Accuracy)

variable {x y : Float} {u w : UnpackedFloat}

/-! ## Unpacked floats -/

theorem neg_neg_sign (s : Sign) : - -s = s := by
  cases s <;> rfl

theorem neg_neg_unpacked (u : UnpackedFloat) : u.neg.neg = u := by
  cases u <;> simp only [UnpackedFloat.neg, neg_neg_sign]

theorem neg_roundWithAccuracy (s : Sign) (m : ℕ) (e : ℤ) (accuracy : Accuracy) :
    UnpackedFloat.roundWithAccuracy Format.binary64 (-s) m e accuracy =
      (UnpackedFloat.roundWithAccuracy Format.binary64 s m e accuracy).neg := by
  unfold UnpackedFloat.roundWithAccuracy
  dsimp only
  split <;> rfl

theorem neg_mul_unpacked (u w : UnpackedFloat) :
    UnpackedFloat.mul Format.binary64 u.neg w = (UnpackedFloat.mul Format.binary64 u w).neg := by
  have hsign : ∀ s t : Sign, -s * t = -(s * t) := by
    rintro (_ | _) (_ | _) <;> rfl
  cases u <;> cases w <;> simp only [UnpackedFloat.neg, UnpackedFloat.mul, hsign, neg_roundWithAccuracy]

theorem neg_div_unpacked (u w : UnpackedFloat) :
    UnpackedFloat.div Format.binary64 u.neg w = (UnpackedFloat.div Format.binary64 u w).neg := by
  have hsign : ∀ s t : Sign, -s / t = -(s / t) := by
    rintro (_ | _) (_ | _) <;> rfl
  cases u <;> cases w <;> simp only [UnpackedFloat.neg, UnpackedFloat.div, hsign, neg_roundWithAccuracy]

theorem neg_normalize {z : ℤ} (hz : z ≠ 0) (e : ℤ) (s : Sign) :
    UnpackedFloat.normalize Format.binary64 (-z) e s = (UnpackedFloat.normalize Format.binary64 z e s).neg := by
  have hround : ∀ (s : Sign) (m : ℕ), UnpackedFloat.round Format.binary64 (-s) m e =
      (UnpackedFloat.round Format.binary64 s m e).neg := fun s m => neg_roundWithAccuracy ..
  rw [UnpackedFloat.normalize, UnpackedFloat.normalize]
  rcases lt_or_gt_of_ne hz with hz | hz
  · rw [compare_gt_iff_gt.2 (neg_pos.2 hz), compare_lt_iff_lt.2 hz]
    exact hround .negative _
  · rw [compare_lt_iff_lt.2 (neg_lt_zero.2 hz), compare_gt_iff_gt.2 hz, neg_neg]
    exact hround .positive _

/-- Sums change their sign where nothing cancels out. -/
theorem neg_add_neg_unpacked (hu : Positive u) (hw : Positive w) :
    UnpackedFloat.add Format.binary64 u.neg w.neg = (UnpackedFloat.add Format.binary64 u w).neg := by
  cases u with
  | finite s m e hm =>
    cases w with
    | finite t n d hn =>
      obtain rfl : s = .positive := hu
      obtain rfl : t = .positive := hw
      have hpos : 0 < (UnpackedFloat.decreaseExponent m e (min e d)).1 := by
        rw [UnpackedFloat.decreaseExponent, Nat.shiftLeft_eq]
        positivity
      show UnpackedFloat.normalize Format.binary64 (-(UnpackedFloat.decreaseExponent m e (min e d)).1 +
          -(UnpackedFloat.decreaseExponent n d (min e d)).1) _ _ = (UnpackedFloat.normalize Format.binary64
        ((UnpackedFloat.decreaseExponent m e (min e d)).1 + (UnpackedFloat.decreaseExponent n d (min e d)).1) _ _).neg
      rw [← neg_add]
      exact neg_normalize (by omega) _ _
    | _ => rfl
  | _ => cases w <;> simp only [Positive] at hu hw <;> subst_vars <;> rfl

/-- The sign is a bit of its own. -/
theorem unpack_pack_neg (u : UnpackedFloat) :
    UnpackedFloat.unpack Format.binary64 (UnpackedFloat.pack Format.binary64 u.neg) =
      (UnpackedFloat.unpack Format.binary64 (UnpackedFloat.pack Format.binary64 u)).neg := by
  have hfields : ∀ (s : Sign) (field fraction : ℕ), ofFields (-s) field fraction = (ofFields s field fraction).neg := by
    intro s field fraction
    unfold ofFields
    split
    · split <;> rfl
    · split
      · split <;> rfl
      · rfl
  have hcomponents : ∀ (s : Sign) (g : BitVec 11) (f : BitVec 52),
      UnpackedFloat.unpack Format.binary64 (UnpackedFloat.packComponents Format.binary64 (-s) g f) =
        (UnpackedFloat.unpack Format.binary64 (UnpackedFloat.packComponents Format.binary64 s g f)).neg := by
    intro s g f
    rw [unpack_packComponents, unpack_packComponents, hfields]
  cases u with
  | notANumber => rfl
  | infinity s => exact hcomponents s _ _
  | zero s => exact hcomponents s _ _
  | finite s m e hm =>
    rw [UnpackedFloat.neg]
    unfold UnpackedFloat.pack
    dsimp only
    split
    · exact hcomponents s _ _
    · split
      · exact hcomponents s _ _
      · exact hcomponents s _ _

/-! ## Signs and magnitudes -/

theorem unpack_pack_unpack (x : Float) :
    UnpackedFloat.unpack Format.binary64 (UnpackedFloat.pack Format.binary64 x.toModel.unpack) = x.toModel.unpack := by
  cases hunpack : x.toModel.unpack with
  | notANumber => rfl
  | infinity s => cases s <;> rfl
  | zero s => exact unpack_pack (.zero s)
  | finite s m e hm =>
    have hfinite : x.isFinite := by
      show x.toModel.unpack.isFinite = true
      rw [hunpack]
      rfl
    obtain ⟨q, hq⟩ := exists_represents hfinite
    rw [← hunpack]
    exact unpack_pack (represents_iff_stands.1 hq)

theorem unpack_neg (x : Float) : (-x).toModel.unpack = x.toModel.unpack.neg := by
  show UnpackedFloat.unpack Format.binary64 (UnpackedFloat.pack Format.binary64 x.toModel.unpack.neg) = _
  rw [unpack_pack_neg, unpack_pack_unpack]

theorem neg_neg_float (x : Float) : - -x = x := by
  refine eq_of_unpack ?_
  rw [unpack_neg, unpack_neg, neg_neg_unpacked]

theorem abs_neg_float (x : Float) : (-x).abs = x.abs := by
  have habs : ∀ u : UnpackedFloat, u.neg.abs = u.abs := fun u => by cases u <;> rfl
  show Float.ofModel (.pack (-x).toModel.unpack.abs) = Float.ofModel (.pack x.toModel.unpack.abs)
  rw [unpack_neg, habs]

/-- A float is its magnitude, or the opposite. -/
theorem eq_abs_or_eq_neg_abs (x : Float) : x = x.abs ∨ x = -x.abs := by
  have hself : Float.ofModel (.pack x.toModel.unpack) = x := eq_of_unpack (unpack_pack_unpack x)
  have hopposite : Float.ofModel (.pack x.toModel.unpack.neg) = -x := rfl
  have hsign : x.toModel.unpack.abs = x.toModel.unpack ∨ x.toModel.unpack.abs = x.toModel.unpack.neg := by
    cases x.toModel.unpack with
    | notANumber => exact Or.inl rfl
    | _ s => cases s <;> first | exact Or.inl rfl | exact Or.inr rfl
  have habs : Float.ofModel (.pack x.toModel.unpack.abs) = x.abs := rfl
  rcases hsign with hsign | hsign
  · rw [hsign, hself] at habs
    exact Or.inl habs
  · rw [hsign, hopposite] at habs
    exact Or.inr (by rw [← habs, neg_neg_float])

/-! ## Arithmetic -/

theorem neg_mul_eq (x y : Float) : -x * y = -(x * y) := by
  refine eq_of_unpack ?_
  rw [unpack_neg]
  show UnpackedFloat.unpack Format.binary64 (UnpackedFloat.pack Format.binary64
    (UnpackedFloat.mul Format.binary64 (-x).toModel.unpack y.toModel.unpack)) = _
  rw [unpack_neg, neg_mul_unpacked, unpack_pack_neg]
  rfl

theorem neg_div_eq (x y : Float) : -x / y = -(x / y) := by
  refine eq_of_unpack ?_
  rw [unpack_neg]
  show UnpackedFloat.unpack Format.binary64 (UnpackedFloat.pack Format.binary64
    (UnpackedFloat.div Format.binary64 (-x).toModel.unpack y.toModel.unpack)) = _
  rw [unpack_neg, neg_div_unpacked, unpack_pack_neg]
  rfl

theorem neg_add_neg_eq (hx : Unsigned x) (hy : Unsigned y) : -x + -y = -(x + y) := by
  refine eq_of_unpack ?_
  rw [unpack_neg]
  show UnpackedFloat.unpack Format.binary64 (UnpackedFloat.pack Format.binary64
    (UnpackedFloat.add Format.binary64 (-x).toModel.unpack (-y).toModel.unpack)) = _
  rw [unpack_neg, unpack_neg, neg_add_neg_unpacked hx.positive hy.positive, unpack_pack_neg]
  rfl

/-! ## Exact values -/

/-- A sign, a mantissa and an exponent as an exact value. -/
def exactOf : UnpackedFloat → Exact
  | .notANumber => .nan
  | .infinity s => .infinite (s matches .negative)
  | .zero s => .finite ⟨s matches .negative, 0, -1074⟩
  | .finite s m e _ => .finite ⟨s matches .negative, m, e⟩

theorem exact_eq (x : Float) : exact x = exactOf x.toModel.unpack := by
  rw [Float.Model.unpack, unpack_eq_ofFields_toNat]
  show exact x = exactOf (ofFields (if 2 ^ 63 ≤ x.toBits.toNat then .negative else .positive)
    (x.toBits.toNat / 2 ^ 52 % 2 ^ 11) (x.toBits.toNat % 2 ^ 52))
  unfold exact ofFields
  dsimp only
  by_cases hsign : 2 ^ 63 ≤ x.toBits.toNat
  all_goals
    simp only [hsign, if_true, if_false, decide_true, decide_false]
    split
    · split <;> rfl
    · split
      · split
        · rename_i hfraction
          rw [hfraction]
          rfl
        · rfl
      · rfl

theorem exact_neg (x : Float) : exact (-x) = match exact x with
    | .nan => .nan
    | .infinite negative => .infinite !negative
    | .finite b => .finite { b with negative := !b.negative } := by
  rw [exact_eq, exact_eq, unpack_neg]
  unfold exactOf
  cases x.toModel.unpack with
  | notANumber => rfl
  | _ s => cases s <;> rfl

/-- The two zeros are told apart by their sign. -/
theorem zero_iff_of_exact {b : Binary} (h : exact x = .finite b) :
    (b.mantissa = 0 ↔ x = 0.0 ∨ x = -0.0) ∧ (b.mantissa = 0 ∧ b.negative ↔ x = -0.0) := by
  have hpositive : exact 0.0 = .finite ⟨false, 0, -1074⟩ := rfl
  have hnegative : exact (-0.0) = .finite ⟨true, 0, -1074⟩ := rfl
  have hzero : b.mantissa = 0 ↔ x = 0.0 ∨ x = -0.0 := by
    refine ⟨fun hmantissa => represents_zero_iff.1 ⟨b, h, by simp [Binary.value, hmantissa]⟩, ?_⟩
    rintro (rfl | rfl)
    · cases hpositive.symm.trans h
      rfl
    · cases hnegative.symm.trans h
      rfl
  refine ⟨hzero, ⟨?_, ?_⟩⟩
  · rintro ⟨hmantissa, hsign⟩
    rcases hzero.1 hmantissa with rfl | rfl
    · cases hpositive.symm.trans h
      cases hsign
    · rfl
  · rintro rfl
    cases hnegative.symm.trans h
    exact ⟨rfl, rfl⟩

/-- Of what is not finite, only the negative infinity is less than zero. -/
theorem lt_zero_iff_of_not_finite (h : x.isFinite = false) : x < 0.0 ↔ exact x = .infinite true := by
  have hfinite : x.toModel.unpack.isFinite = false := h
  rw [lt_iff_compare, exact_eq]
  cases hunpack : x.toModel.unpack with
  | notANumber => exact iff_of_false nofun nofun
  | infinity s =>
    cases s with
    | negative => exact iff_of_true rfl rfl
    | positive => exact iff_of_false nofun nofun
  | _ =>
    rw [hunpack] at hfinite
    cases hfinite

theorem mapMagnitude_neg (f : ℕ → ℕ → ℕ) (x : Float) :
    mapMagnitude (fun _ => f) (-x) = -mapMagnitude (fun _ => f) x := by
  rw [mapMagnitude, mapMagnitude, exact_neg]
  cases exact x with
  | finite b =>
    obtain ⟨negative, m, e⟩ := b
    dsimp only
    split
    · rfl
    · cases negative with
      | true => exact (neg_neg_float _).symm
      | false => rfl
  | _ => rfl

theorem nearest_neg (x : Float) : nearest (-x) = -nearest x := mapMagnitude_neg _ x

theorem signum_neg (x : Float) : signum (-x) = -signum x := by
  rw [signum, signum, exact_neg]
  cases exact x with
  | nan => rfl
  | infinite negative =>
    cases negative with
    | true => exact (neg_neg_float 1).symm
    | false => rfl
  | finite b =>
    obtain ⟨negative, m, e⟩ := b
    cases negative with
    | true => exact (neg_neg_float 1).symm
    | false => rfl

end Binary64

namespace Format

open Binary64 (Unsigned neg_mul_eq neg_div_eq)

variable {x : Float}

/-- The opposite of a number without a sign is rounded to the opposite. -/
theorem roundHalfAway_neg (hx : Unsigned x) (d : ℕ) : roundHalfAway (-x) d = -roundHalfAway x d := by
  have hscaled := hx.mul (unsigned_powerOfTen d)
  rw [roundHalfAway, roundHalfAway, if_neg (Int.natCast_nonneg d).not_gt, if_neg (Int.natCast_nonneg d).not_gt,
    Int.natAbs_natCast]
  dsimp only
  rw [neg_mul_eq, Binary64.signum_neg, Binary64.abs_neg_float, neg_mul_eq, neg_mul_eq, neg_mul_eq,
    Binary64.neg_add_neg_eq hscaled (unsigned_nudge hscaled), Binary64.nearest_neg, neg_div_eq]

/-- A number is rounded to the same magnitude as its magnitude is. -/
theorem abs_roundHalfAway_abs (x : Float) (d : ℕ) : (roundHalfAway x.abs d).abs = (roundHalfAway x d).abs := by
  rcases Binary64.eq_abs_or_eq_neg_abs x with h | h
  · rw [← h]
  · conv_rhs => rw [h, roundHalfAway_neg (Binary64.unsigned_abs x), Binary64.abs_neg_float]

end Format

end Spreadsheet
