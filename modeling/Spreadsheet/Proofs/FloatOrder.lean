import Mathlib.Order.WithBot
import Spreadsheet.Proofs.FiniteNumbers

/-!
# The order of floats

Floats are compared by sign, then by exponent, then by mantissa. Since mantissas are canonical this is the order of the
numbers that the floats stand for, in which the infinities come first and last. A NaN is neither less nor greater than
anything.

* `Canonical.compare_eq` : of two magnitudes the one with the larger exponent is larger;
* `Stands.compare`, `Represents.lt_iff` : finite floats compare as the numbers they stand for;
* `Extended`, `extended` : numbers with two infinities, and the one of a float;
* `lt_iff_extended`, `beq_iff_extended`, `compareNumbers_eq` : all floats but NaN compare as their extended numbers.
-/

namespace Spreadsheet.Binary64

open Float.Model (UnpackedFloat)

/-! ## Finite floats -/

section Magnitudes

variable {m n : ℕ} {e d : ℤ}

theorem Canonical.lt_of_exponent_lt (hm : Canonical m e) (hn : Canonical n d) (h : e < d) :
    (m : ℚ) * 2 ^ e < n * 2 ^ d := by
  have hleast := hm.least_le
  have hfull : 2 ^ 52 ≤ n := hn.full.resolve_right (by omega)
  calc (m : ℚ) * 2 ^ e
      < 2 ^ (53 : ℤ) * 2 ^ e := mul_lt_mul_of_pos_right (by exact_mod_cast hm.lt) (by positivity)
    _ = 2 ^ (53 + e) := (zpow_add₀ (by norm_num) _ _).symm
    _ ≤ 2 ^ (52 + d) := zpow_le_zpow_right₀ one_le_two (by omega)
    _ = 2 ^ (52 : ℤ) * 2 ^ d := zpow_add₀ (by norm_num) _ _
    _ ≤ n * 2 ^ d := mul_le_mul_of_nonneg_right (by exact_mod_cast hfull) (by positivity)

theorem Canonical.compare_eq (hm : Canonical m e) (hn : Canonical n d) :
    (compare e d).then (compare m n) = compare ((m : ℚ) * 2 ^ e) (n * 2 ^ d) := by
  rcases lt_trichotomy e d with h | rfl | h
  · rw [compare_lt_iff_lt.2 h, compare_lt_iff_lt.2 (hm.lt_of_exponent_lt hn h)]
    rfl
  · have hpos : (0 : ℚ) < 2 ^ e := by positivity
    rw [compare_eq_iff_eq.2 rfl, Ordering.eq_then, ← cmp_eq_compare, ← cmp_eq_compare, cmp_mul_pos_right hpos]
    exact (Nat.strictMono_cast.cmp_map_eq m n).symm
  · rw [compare_gt_iff_gt.2 h, compare_gt_iff_gt.2 (hn.lt_of_exponent_lt hm h)]
    rfl

end Magnitudes

variable {u w : UnpackedFloat} {p q : ℚ} {x y : Float}

theorem compare_neg_neg (p q : ℚ) : compare (-p) (-q) = (compare p q).swap := by
  rw [← cmp_eq_compare, ← cmp_eq_compare, cmp_swap]
  exact StrictAnti.cmp_map_eq (fun _ _ h => neg_lt_neg h) p q

theorem Stands.compare (hu : Stands u p) (hw : Stands w q) : u.compare w = some (Ord.compare p q) := by
  cases hu with
  | zero s =>
    cases hw with
    | zero t => exact congrArg some (compare_eq_iff_eq.2 rfl).symm
    | @finite t n d hn =>
      have hpos : (0 : ℚ) < n * 2 ^ d := by positivity
      cases t with
      | negative => exact congrArg some (compare_gt_iff_gt.2 (neg_lt_zero.2 hpos)).symm
      | positive => exact congrArg some (compare_lt_iff_lt.2 hpos).symm
  | @finite s m e hm hu =>
    have hpos : (0 : ℚ) < m * 2 ^ e := by positivity
    cases hw with
    | zero t =>
      cases s with
      | negative => exact congrArg some (compare_lt_iff_lt.2 (neg_lt_zero.2 hpos)).symm
      | positive => exact congrArg some (compare_gt_iff_gt.2 hpos).symm
    | @finite t n d hn hw =>
      have hpos' : (0 : ℚ) < n * 2 ^ d := by positivity
      cases s <;> cases t
      · exact congrArg some ((congrArg Ordering.swap (hu.compare_eq hw)).trans (compare_neg_neg _ _).symm)
      · exact congrArg some (compare_lt_iff_lt.2 ((neg_lt_zero.2 hpos).trans hpos')).symm
      · exact congrArg some (compare_gt_iff_gt.2 ((neg_lt_zero.2 hpos').trans hpos)).symm
      · exact congrArg some (hu.compare_eq hw)

theorem lt_iff_compare : x < y ↔ x.toModel.unpack.compare y.toModel.unpack = some .lt := by
  show decide (_ = true) = true ↔ _
  rw [decide_eq_true_iff]
  exact beq_iff_eq

theorem beq_iff_compare : x == y ↔ x.toModel.unpack.compare y.toModel.unpack = some .eq := by
  show (x.toModel.unpack.compare y.toModel.unpack == some .eq) = true ↔ _
  exact beq_iff_eq

/-- Finite floats are ordered as the numbers they stand for. -/
theorem Represents.lt_iff (hx : Represents x p) (hy : Represents y q) : x < y ↔ p < q := by
  rw [lt_iff_compare, (represents_iff_stands.1 hx).compare (represents_iff_stands.1 hy), Option.some_inj,
    compare_lt_iff_lt]

/-! ## All floats -/

/-- Numbers with an infinity at either end. -/
abbrev Extended := WithBot (WithTop ℚ)

/-- The number of a float; a NaN has none, and gets the least one. -/
def extended (x : Float) : Extended :=
  match x.toModel.unpack with
  | .notANumber => ⊥
  | .infinity .negative => ⊥
  | .infinity .positive => ⊤
  | .zero _ => ((0 : ℚ) : WithTop ℚ)
  | .finite s m e _ => ((signed s (m * 2 ^ e) : ℚ) : WithTop ℚ)

/-- How a float has its number: as an infinity, or as the number it stands for. -/
inductive Measures : UnpackedFloat → Extended → Prop
  | least : Measures (.infinity .negative) ⊥
  | greatest : Measures (.infinity .positive) ⊤
  | stands {u : UnpackedFloat} {q : ℚ} (h : Stands u q) : Measures u (q : WithTop ℚ)

theorem measures_extended (hx : x.isNaN = false) : Measures x.toModel.unpack (extended x) := by
  have hnan : x.toModel.unpack.isNaN = false := hx
  unfold extended
  cases hunpack : x.toModel.unpack with
  | notANumber =>
    rw [hunpack] at hnan
    cases hnan
  | infinity s =>
    cases s with
    | negative => exact .least
    | positive => exact .greatest
  | zero s => exact .stands (.zero s)
  | finite s m e hm =>
    have hfinite : x.isFinite = true := by
      show x.toModel.unpack.isFinite = true
      rw [hunpack]
      rfl
    obtain ⟨q, hq⟩ := exists_represents hfinite
    have hstands := represents_iff_stands.1 hq
    rw [hunpack] at hstands
    cases hstands with
    | finite _ _ hcanonical hmost => exact .stands (.finite s hm hcanonical hmost)

theorem compare_coe (p q : ℚ) : compare ((p : WithTop ℚ) : Extended) (q : WithTop ℚ) = compare p q := by
  rw [← cmp_eq_compare, ← cmp_eq_compare]
  exact StrictMono.cmp_map_eq (fun _ _ h => WithBot.coe_lt_coe.2 (WithTop.coe_lt_coe.2 h)) p q

theorem Measures.compare {a b : Extended} (hu : Measures u a) (hw : Measures w b) :
    u.compare w = some (Ord.compare a b) := by
  have hleast : ∀ q : ℚ, (⊥ : Extended) < (q : WithTop ℚ) := fun q => WithBot.bot_lt_coe _
  have hgreatest : ∀ q : ℚ, ((q : WithTop ℚ) : Extended) < ⊤ := fun q => WithBot.coe_lt_coe.2 (WithTop.coe_lt_top q)
  have hends : (⊥ : Extended) < ⊤ := WithBot.bot_lt_coe _
  cases hu with
  | least =>
    cases hw with
    | least => exact congrArg some (compare_eq_iff_eq.2 rfl).symm
    | greatest => exact congrArg some (compare_lt_iff_lt.2 hends).symm
    | stands h =>
      rw [compare_lt_iff_lt.2 (hleast _)]
      cases h <;> rfl
  | greatest =>
    cases hw with
    | least => exact congrArg some (compare_gt_iff_gt.2 hends).symm
    | greatest => exact congrArg some (compare_eq_iff_eq.2 rfl).symm
    | stands h =>
      rw [compare_gt_iff_gt.2 (hgreatest _)]
      cases h <;> rfl
  | stands h =>
    cases hw with
    | least =>
      rw [compare_gt_iff_gt.2 (hleast _)]
      cases h <;> rfl
    | greatest =>
      rw [compare_lt_iff_lt.2 (hgreatest _)]
      cases h <;> rfl
    | stands h' => rw [h.compare h', compare_coe]

/-- Floats other than NaN are ordered as their extended numbers. -/
theorem lt_iff_extended (hx : x.isNaN = false) (hy : y.isNaN = false) : x < y ↔ extended x < extended y := by
  rw [lt_iff_compare, (measures_extended hx).compare (measures_extended hy), Option.some_inj, compare_lt_iff_lt]

/-- They are equal if their extended numbers are, so both zeros are. -/
theorem beq_iff_extended (hx : x.isNaN = false) (hy : y.isNaN = false) : x == y ↔ extended x = extended y := by
  rw [beq_iff_compare, (measures_extended hx).compare (measures_extended hy), Option.some_inj, compare_eq_iff_eq]

theorem isNaN_of_lt (h : x < y) : x.isNaN = false ∧ y.isNaN = false := by
  rw [lt_iff_compare] at h
  constructor
  · show x.toModel.unpack.isNaN = false
    cases hx : x.toModel.unpack with
    | notANumber =>
      rw [hx] at h
      cases h
    | _ => rfl
  · show y.toModel.unpack.isNaN = false
    cases hy : y.toModel.unpack with
    | notANumber =>
      rw [hy] at h
      cases hx : x.toModel.unpack <;> rw [hx] at h <;> cases h
    | _ => rfl

theorem lt_asymm (h : x < y) : ¬y < x := by
  obtain ⟨hx, hy⟩ := isNaN_of_lt h
  rw [lt_iff_extended hx hy] at h
  rw [lt_iff_extended hy hx]
  exact h.not_gt

theorem compareNumbers_eq (hx : x.isNaN = false) (hy : y.isNaN = false) :
    Value.compareNumbers x y = compare (extended x) (extended y) := by
  simp only [Value.compareNumbers, lt_iff_extended hx hy, lt_iff_extended hy hx]
  rcases lt_trichotomy (extended x) (extended y) with h | h | h
  · rw [if_pos h, compare_lt_iff_lt.2 h]
  · rw [if_neg h.not_lt, if_neg h.not_gt, compare_eq_iff_eq.2 h]
  · rw [if_neg h.not_gt, if_pos h, compare_gt_iff_gt.2 h]

end Spreadsheet.Binary64
