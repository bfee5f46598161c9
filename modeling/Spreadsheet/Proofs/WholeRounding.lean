import Spreadsheet.Proofs.BuiltinCalls
import Spreadsheet.Proofs.Coordinates
import Spreadsheet.Proofs.RoundedFloats

/-!
# Whole numbers at decimal places

Rounding at decimal places scales a number by a power of ten, nudges it by four times the precision of a float and
takes the nearest integer. The nudge grows with what is scaled: from `15 * 2 ^ 45` on it makes up half a unit, together
with the rounding of the sum, and then a whole number moves away from zero.

* `RoundingSteps`, `exists_roundingSteps` : the numbers that rounding goes through;
* `RoundingSteps.result_eq`, `RoundingSteps.lt_result` : which whole numbers stay, and which grow;
* `Format.roundHalfAway_eq_self`, `Format.formatFixed_of_represents` : the same of floats, and the digits shown;
* `roundHalfAway_eq_self_iff` : which whole numbers rounding leaves alone, in `ROUND` and in texts without places.
-/

namespace Spreadsheet

namespace Format

open Binary64 (Represents RoundsTo halfAway)

variable {x y : Float} {q v m s t r : ℚ} {n : ℤ} {d : ℕ}

/-! ## The steps of rounding -/

/-- A number `v` is scaled to `s` and nudged to `t`, and the nearest integer is divided by `m`. -/
structure RoundingSteps (v m s t r : ℚ) : Prop where
  scaled : RoundsTo v s
  nudged : RoundsTo (s + s / 2 ^ 50) t
  float : ∃ y, Represents y t
  result : RoundsTo (halfAway t / m) r

namespace RoundingSteps

theorem neg (h : RoundingSteps v m s t r) : RoundingSteps (-v) m (-s) (-t) (-r) where
  scaled := h.scaled.neg
  nudged := by
    rw [neg_div, ← neg_add]
    exact h.nudged.neg
  float := by
    obtain ⟨y, hy⟩ := h.float
    exact ⟨-y, hy.neg⟩
  result := by
    rw [Binary64.halfAway_neg, Int.cast_neg, neg_div]
    exact h.result.neg

end RoundingSteps

/-- Four times the precision of a float, which no digit is lost by. -/
theorem represents_nudge (hx : Represents x s) (hleast : 1 / 2 ≤ |s|) (hmost : |s| < 2 ^ 104) :
    Represents (Binary64.signum x * x.abs * Binary64.epsilon * 4.0) (s / 2 ^ 50) := by
  have hsmall : ∀ {v : ℚ}, |v| ≤ |s| → |v| ≤ Binary64.largest := fun hv =>
    hv.trans (Represents.le_largest (c := 104) (by exact_mod_cast hmost) (by norm_num))
  have hprecision : Represents _ (s * 2 ^ (-52 : ℤ)) := hx.signum_mul_abs.mul_two_zpow represents_epsilon (c := -1)
    (by norm_num; linarith) (by norm_num) (hsmall (by rw [abs_mul]; norm_num; linarith [abs_nonneg s]))
  have hnudge : Represents _ (s * 2 ^ (-52 : ℤ) * 2 ^ (2 : ℤ)) := hprecision.mul_two_zpow represents_four (c := -53)
    (by rw [abs_mul]; norm_num at *; linarith) (by norm_num)
    (hsmall (by rw [abs_mul, abs_mul]; norm_num; linarith [abs_nonneg s]))
  rwa [mul_assoc, show (2 : ℚ) ^ (-52 : ℤ) * 2 ^ (2 : ℤ) = 1 / 2 ^ 50 by norm_num, mul_one_div] at hnudge

/-- Rounding at decimal places goes through its steps, as no number on the way is too small or too large. -/
theorem exists_roundingSteps (hx : Represents x q) (hd : d ≤ 15) (hleast : 1 ≤ |q * 10 ^ d|)
    (hmost : |q * 10 ^ d| < 2 ^ 103) :
    ∃ s t r, RoundingSteps (q * 10 ^ d) (10 ^ d) s t r ∧ Represents (roundHalfAway x d) r := by
  have hlarge : ∀ {v : ℚ}, |v| < 2 ^ (110 : ℤ) → |v| ≤ Binary64.largest := fun hv =>
    Represents.le_largest hv (by norm_num)
  have hten := represents_powerOfTen hd
  -- the number is scaled
  obtain ⟨s, hs, hscaled⟩ := hx.mul hten (hlarge (hmost.trans (by norm_num)))
  have hs_least : 1 / 2 ≤ |s| := by linarith [hscaled.abs_le_two_mul_abs (by linarith)]
  have hs_most : |s| < 2 ^ 104 := by linarith [hscaled.abs_le_two_mul]
  -- the nudge is added
  have hsum : |s + s / 2 ^ 50| = |s| * (1 + 1 / 2 ^ 50) := by
    rw [← mul_one_div, ← mul_one_add, abs_mul, abs_of_pos (by positivity : (0 : ℚ) < 1 + 1 / 2 ^ 50)]
  obtain ⟨t, ht, hnudged⟩ := hs.add (represents_nudge hs hs_least hs_most)
    (hlarge (by rw [hsum]; norm_num at *; linarith))
  have ht_most := hnudged.abs_le_two_mul
  rw [hsum] at ht_most
  -- the nearest integer is divided
  have hquotient : |(halfAway t : ℚ) / 10 ^ d| ≤ |t| + 1 / 2 := by
    have hpos : (1 : ℚ) ≤ 10 ^ d := one_le_pow₀ (by norm_num)
    have hnear := Binary64.abs_halfAway_sub_le t
    have hle := abs_sub_abs_le_abs_sub (halfAway t : ℚ) t
    rw [abs_div, abs_of_pos (by positivity : (0 : ℚ) < 10 ^ d)]
    exact (div_le_self (abs_nonneg _) hpos).trans (by linarith)
  obtain ⟨r, hr, hresult⟩ := ht.nearest.div hten (by positivity)
    (hlarge (hquotient.trans_lt (by norm_num at *; linarith)))
  refine ⟨s, t, r, ⟨hscaled, hnudged, ⟨_, ht⟩, hresult⟩, ?_⟩
  rw [roundHalfAway, if_neg (Int.natCast_nonneg d).not_gt]
  exact hr

/-! ## Whole numbers -/

namespace RoundingSteps

variable {k : ℕ}

/-- Below the bound the nudge does not reach half a unit. -/
theorem halfAway_eq (h : RoundingSteps k m s t r) (hk : k < 15 * 2 ^ 45) : halfAway t = k := by
  have hk' : (k : ℚ) < 15 * 2 ^ 45 := by exact_mod_cast hk
  obtain rfl : s = k := RoundsTo.eq_of_int (n := k) (by exact_mod_cast h.scaled) (by rw [Nat.abs_cast]; omega)
  have herror := h.nudged.abs_sub_le (c := 49) (by norm_num) (by rw [abs_of_nonneg (by positivity)]; norm_num; linarith)
  refine Binary64.halfAway_eq_of_near ?_
  norm_num at herror
  rw [abs_le] at herror
  rw [abs_lt]
  push_cast
  constructor <;> linarith

theorem add_half_le (h : RoundingSteps k m s t r) (hleast : 15 * 2 ^ 45 < k) (hmost : k < 2 ^ 52) : k + 1 / 2 ≤ t := by
  have hleast' : (15 * 2 ^ 45 : ℚ) < k := by exact_mod_cast hleast
  obtain rfl : s = k := RoundsTo.eq_of_int (n := k) (by exact_mod_cast h.scaled) (by rw [Nat.abs_cast]; omega)
  rcases lt_or_ge k (2 ^ 49) with hsmall | hlarge
  · have hsmall' : (k + 1 : ℚ) ≤ 2 ^ 49 := by exact_mod_cast hsmall
    have herror := h.nudged.abs_sub_le (c := 49) (by norm_num) (by
      rw [abs_of_nonneg (by positivity), zpow_ofNat]
      linarith)
    norm_num at herror
    have ht := (abs_le.1 herror).1
    -- the sum is a multiple of a sixteenth
    obtain ⟨y, hy⟩ := h.float
    obtain ⟨j, hj⟩ := hy.exists_multiple (c := 48) (by
      refine le_trans ?_ (le_abs_self t)
      norm_num
      linarith)
    norm_num at hj
    have hlt : (16 * k + 7 : ℤ) < j := by
      have : (16 * k + 7 : ℚ) < j := by linarith
      exact_mod_cast this
    have hle : (16 * k + 8 : ℚ) ≤ j := by exact_mod_cast hlt
    linarith
  · -- half a unit more is a float
    have hlarge' : (2 ^ 49 : ℚ) ≤ k := by exact_mod_cast hlarge
    have hsum : ((2 * k + 1 : ℤ) : ℚ) * 2 ^ (-1 : ℤ) = k + 1 / 2 := by
      push_cast
      ring
    rw [← hsum]
    refine h.nudged.le_of_dyadic_le (by rw [abs_of_nonneg (by positivity)]; omega) (by norm_num) ?_
    rw [hsum]
    linarith

/-- Above the bound, the nearest integer exceeds what was scaled by more than a float can miss. -/
theorem le_halfAway (h : RoundingSteps k m s t r) (hk : 15 * 2 ^ 45 < k) : k + k / 2 ^ 52 ≤ (halfAway t : ℚ) := by
  have hk' : (15 * 2 ^ 45 : ℚ) < k := by exact_mod_cast hk
  rcases lt_or_ge k (2 ^ 52) with hsmall | hlarge
  · have hsmall' : (k : ℚ) < 2 ^ 52 := by exact_mod_cast hsmall
    have hhalf := h.add_half_le hk hsmall
    have hfloor : (k + 1 : ℤ) ≤ halfAway t := by
      rw [halfAway, if_neg (by linarith), round_eq, Int.le_floor]
      push_cast
      linarith
    have hnext : (k + 1 : ℚ) ≤ halfAway t := by exact_mod_cast hfloor
    linarith
  · have hlarge' : (2 ^ 52 : ℚ) ≤ k := by exact_mod_cast hlarge
    have hs := (abs_le.1 (h.scaled.abs_sub_le_div (by linarith))).1
    have ht := (abs_le.1 (h.nudged.abs_sub_le_div (by linarith))).1
    have hz := (abs_le.1 (Binary64.abs_halfAway_sub_le t)).1
    linarith

theorem lt_result {n : ℕ} (h : RoundingSteps (n * k : ℕ) k s t r) (hk : 15 * 2 ^ 45 < n * k) : n < r := by
  have hn : (1 : ℚ) ≤ n := by exact_mod_cast Nat.pos_of_ne_zero (by rintro rfl; omega)
  have hpos : (0 : ℚ) < k := by exact_mod_cast Nat.pos_of_ne_zero (by rintro rfl; omega)
  have hle : n + n / 2 ^ 52 ≤ (halfAway t : ℚ) / k := by
    have hscaled := h.le_halfAway hk
    push_cast at hscaled
    rw [le_div_iff₀ hpos]
    linarith
  have hr := (abs_le.1 (h.result.abs_sub_le_div (by linarith))).1
  linarith

theorem result_eq {n : ℕ} (h : RoundingSteps (n * k : ℕ) k s t r) (hpos : 0 < k) (hk : n * k < 15 * 2 ^ 45) :
    r = n := by
  have hle : n ≤ n * k := Nat.le_mul_of_pos_right n hpos
  have hwhole : (halfAway t : ℚ) / k = (n : ℤ) := by
    rw [h.halfAway_eq hk]
    push_cast
    exact mul_div_cancel_right₀ _ (by exact_mod_cast hpos.ne')
  have hresult := h.result
  rw [hwhole] at hresult
  exact_mod_cast hresult.eq_of_int (by rw [Nat.abs_cast]; omega)

theorem result_eq_iff {n : ℤ} (h : RoundingSteps (n * k) k s t r) (hpos : 0 < k) (hne : |n| * k ≠ 15 * 2 ^ 45) :
    r = n ↔ |n| * k < 15 * 2 ^ 45 := by
  have hnat : ∀ {n : ℕ} {s t r : ℚ}, RoundingSteps (n * k : ℕ) k s t r → (n * k : ℤ) ≠ 15 * 2 ^ 45 →
      (r = n ↔ (n * k : ℤ) < 15 * 2 ^ 45) := by
    intro n s t r h hne
    refine ⟨fun hr => ?_, fun hlt => h.result_eq hpos (by exact_mod_cast hlt)⟩
    by_contra hge
    exact (h.lt_result (by exact_mod_cast lt_of_le_of_ne (not_lt.1 hge) hne.symm)).ne' hr
  obtain ⟨n, rfl | rfl⟩ := Int.eq_nat_or_neg n
  · rw [Nat.abs_cast] at hne ⊢
    exact hnat (by exact_mod_cast h) hne
  · rw [abs_neg, Nat.abs_cast] at hne ⊢
    rw [← hnat (by simpa using h.neg) hne, Int.cast_neg, Int.cast_natCast, neg_eq_iff_eq_neg]

end RoundingSteps

/-! ## Whole numbers that stay -/

theorem roundHalfAway_zero (hx : Represents x 0) (hd : d ≤ 15) : roundHalfAway x d = x := by
  have hall : ∀ d : ℕ, d < 16 → ∀ x ∈ [0.0, -0.0], roundHalfAway x d = x := by decide +kernel
  exact hall d (by omega) x (by simpa using Binary64.represents_zero_iff.1 hx)

/-- At the bound itself, the sum is half a unit more once it is rounded to even. -/
theorem roundHalfAway_bound (hx : Represents x n) (hn : |n| * 10 ^ d = 15 * 2 ^ 45) (hd : d ≤ 15) :
    roundHalfAway x d ≠ x := by
  have hall : ∀ p ∈ [((15 * 2 ^ 45 : ℤ), 0), (-(15 * 2 ^ 45), 0), (3 * 2 ^ 44, 1), (-(3 * 2 ^ 44), 1)],
      roundHalfAway (Float.ofInt p.1) (p.2 : ℕ) ≠ Float.ofInt p.1 := by decide +kernel
  have hmem : (n, d) ∈ [((15 * 2 ^ 45 : ℤ), 0), (-(15 * 2 ^ 45), 0), (3 * 2 ^ 44, 1), (-(3 * 2 ^ 44), 1)] := by
    simp only [List.mem_cons, Prod.mk.injEq, List.not_mem_nil, or_false]
    rw [abs_eq_max_neg] at hn
    -- a higher power of ten does not divide the bound
    interval_cases d <;> omega
  have hlt : |n| < 2 ^ 53 := by
    have : 0 < (10 : ℤ) ^ d := by positivity
    nlinarith [abs_nonneg n]
  have hne : n ≠ 0 := by
    rintro rfl
    simp at hn
  rw [hx.eq_of_ne_zero (Binary64.represents_ofInt hlt) (by exact_mod_cast hne)]
  exact hall (n, d) hmem

theorem exists_wholeSteps (hx : Represents x n) (hne : n ≠ 0) (hn : |n| ≤ 2 ^ 53) (hd : d ≤ 15) :
    ∃ s t r, RoundingSteps (n * (10 ^ d : ℕ)) (10 ^ d : ℕ) s t r ∧ Represents (roundHalfAway x d) r := by
  have hten : (1 : ℚ) ≤ 10 ^ d ∧ (10 : ℚ) ^ d ≤ 10 ^ 15 :=
    ⟨one_le_pow₀ (by norm_num), pow_le_pow_right₀ (by norm_num) hd⟩
  have hleast : (1 : ℚ) ≤ |(n : ℚ)| := by exact_mod_cast Int.one_le_abs hne
  have hmost : |(n : ℚ)| ≤ 2 ^ 53 := by exact_mod_cast hn
  have habs : |(n : ℚ) * 10 ^ d| = |(n : ℚ)| * 10 ^ d := by
    rw [abs_mul, abs_of_pos (by positivity : (0 : ℚ) < 10 ^ d)]
  exact_mod_cast exists_roundingSteps hx hd (by rw [habs]; nlinarith) (by rw [habs]; nlinarith)

theorem exists_rounded (hx : Represents x n) (hn : |n| ≤ 2 ^ 53) (hd : d ≤ 15) :
    ∃ r, Represents (roundHalfAway x d) r ∧ (r = n ↔ |n| * 10 ^ d < 15 * 2 ^ 45) := by
  rcases eq_or_ne n 0 with rfl | hne
  · rw [roundHalfAway_zero (by exact_mod_cast hx) hd]
    exact ⟨_, hx, by simp⟩
  obtain ⟨s, t, r, hsteps, hr⟩ := exists_wholeSteps hx hne hn hd
  refine ⟨r, hr, ?_⟩
  by_cases hbound : |n| * 10 ^ d = 15 * 2 ^ 45
  · refine iff_of_false ?_ hbound.not_lt
    rintro rfl
    exact roundHalfAway_bound hx hbound hd (hr.eq_of_ne_zero hx (by exact_mod_cast hne))
  · exact_mod_cast hsteps.result_eq_iff (by positivity) (by exact_mod_cast hbound)

theorem exists_roundedInt (hx : Represents x n) (hn : |n| ≤ 2 ^ 53) : ∃ z : ℤ, Represents (roundHalfAway x 0) z := by
  rcases eq_or_ne n 0 with rfl | hne
  · exact ⟨0, by rwa [show roundHalfAway x 0 = x from roundHalfAway_zero (by exact_mod_cast hx) (Nat.zero_le 15)]⟩
  obtain ⟨s, t, r, hsteps, hr⟩ := exists_wholeSteps (d := 0) hx hne hn (Nat.zero_le 15)
  obtain ⟨y, hy⟩ := hsteps.float
  have hresult := hsteps.result
  rw [pow_zero, Nat.cast_one, div_one] at hresult
  exact ⟨halfAway t, hresult.eq_of_represents hy.nearest ▸ hr⟩

theorem roundHalfAway_eq_self (hx : Represents x n) (hn : |n| ≤ 2 ^ 53) (hd : d ≤ 15) :
    roundHalfAway x d = x ↔ |n| * 10 ^ d < 15 * 2 ^ 45 := by
  obtain ⟨r, hr, hiff⟩ := exists_rounded hx hn hd
  rw [← hiff]
  constructor
  · intro h
    rw [h] at hr
    exact hr.unique hx
  · rintro rfl
    rcases eq_or_ne n 0 with rfl | hne
    · exact roundHalfAway_zero (by exact_mod_cast hx) hd
    · exact hr.eq_of_ne_zero hx (by exact_mod_cast hne)

end Format

/-! ## Texts -/

namespace Decimal

theorem roundEven_mul (k : ℕ) {den : ℕ} (hden : 0 < den) : roundEven (k * den) den = k := by
  rw [roundEven, Nat.mul_mod_left, Nat.mul_div_cancel _ hden]
  exact if_pos hden

theorem showInt_injective : Function.Injective showInt := by
  have hdigits : ∀ m n : ℕ, digitsOf m = digitsOf n → m = n := by
    intro m n h
    rw [← digitsValue_digitsOf m, h, digitsValue_digitsOf]
  have hsign : ∀ (m : ℕ) (cs : List Char), '-' :: cs ≠ digitsOf m := by
    intro m cs h
    exact absurd (isAsciiDigit_of_mem (h ▸ List.mem_cons_self)) (by decide)
  intro m n h
  rw [showInt, showInt] at h
  split at h <;> split at h
  · have := hdigits _ _ (List.cons.inj h).2
    omega
  · exact absurd h (hsign _ _)
  · exact absurd h.symm (hsign _ _)
  · have := hdigits _ _ h
    omega

end Decimal

namespace Format

open Binary64 (Represents)

variable {x y : Float} {n z : ℤ} {d : ℕ}

theorem exactPlaces_abs (h : Represents x z) : exactPlaces x.abs 0 = Decimal.digitsOf z.natAbs := by
  obtain ⟨b, hb, hvalue⟩ := h.abs
  have hnegative := (Binary64.unsigned_iff_negative hb).1 (Binary64.unsigned_abs x)
  have hpos : (0 : ℚ) < b.denominator := by exact_mod_cast b.denominator_pos
  have hwhole : b.numerator = z.natAbs * b.denominator := by
    rw [Binary64.Binary.value, hnegative, if_neg Bool.false_ne_true, one_mul, ← b.numerator_div_denominator,
      div_eq_iff hpos.ne'] at hvalue
    rw [← Int.cast_abs, Int.abs_eq_natAbs] at hvalue
    exact_mod_cast hvalue
  rw [exactPlaces, hb]
  dsimp only
  rw [hnegative, hwhole, Decimal.toPlaces, pow_zero, mul_one, Decimal.roundEven_mul _ b.denominator_pos]
  rfl

/-- Without places and commas, a number shows as the integer that it is rounded to. -/
theorem formatFixed_of_represents (h : Represents (roundHalfAway x 0) z) :
    formatFixed x 0 false = String.ofList (Decimal.showInt z) := by
  have hsign : roundHalfAway x 0 < 0.0 ↔ z < 0 := by
    rw [h.lt_iff Binary64.represents_zero]
    exact Int.cast_lt_zero
  show String.ofList (signed (decide (roundHalfAway x 0 < 0.0)) (exactPlaces (roundHalfAway x 0).abs 0)) = _
  rw [exactPlaces_abs h, Decimal.showInt, signed]
  simp only [decide_eq_true_eq, hsign]

end Format

/-! ## Calls -/

open Binary64 (Represents)

variable {x y : Float} {n z : ℤ} {d : ℕ}

namespace Math

theorem gives_withDefault [RegexLibrary] {name : String} (default : Float) {r : Float}
    {f : Float → Float → Outcome Float}
    (hf : withDefault name default f ∈ mathFunctions) (hr : f x y = .ok r) :
    Gives name [.number x, .number y] (.number r) := by
  have hgives : Gives name [.number x, .number y] _ := gives_of_mem (f := withDefault name default f)
    (by simp [builtinFunctions, hf]) rfl (Nat.le_succ 1) (by rintro most ⟨⟩; exact Nat.le_refl 2)
  have hvalue : (do
      let a ← numberArg [.number x, .number y] 0
      return .number (← f a (← optionalNumber [.number x, .number y] 1 default)) : Outcome Value) =
      .ok (.number r) := by
    rw [show numberArg [.number x, .number y] 0 = .ok x from rfl,
      show optionalNumber [.number x, .number y] 1 default = .ok y from rfl, ok_bind, ok_bind, hr, ok_bind]
    rfl
  rwa [hvalue] at hgives

theorem round_eq (hy : Represents y d) (hd : d ≤ 15) : round x y = finite (Format.roundHalfAway x d) := by
  have hplaces : Represents (Binary64.truncate y) (d : ℤ) := Represents.truncate (by exact_mod_cast hy)
  have hfifteen : Represents 15.0 15 := ⟨⟨false, 15 * 2 ^ 49, -49⟩, rfl, by norm_num [Binary64.Binary.value]⟩
  have hleast : Represents (-308.0) (-308) := ⟨⟨true, 77 * 2 ^ 46, -44⟩, rfl, by norm_num [Binary64.Binary.value]⟩
  have hfew : ¬15.0 < Binary64.truncate y := by
    rw [hfifteen.lt_iff hplaces]
    exact_mod_cast hd.not_gt
  have hlarger : Binary64.larger (Binary64.truncate y) (-308.0) = Binary64.truncate y := by
    rw [Binary64.larger, Binary64.isNaN_of_isFinite hplaces.isFinite, if_neg Bool.false_ne_true, if_neg]
    rw [hplaces.lt_iff hleast]
    push_cast
    have : (0 : ℚ) ≤ d := Nat.cast_nonneg d
    linarith
  rw [round, if_neg hfew, hlarger, Binary64.saturate_of_represents hplaces, min_eq_right (by omega),
    max_eq_right (by omega)]

theorem gives_round [RegexLibrary] (hy : Represents y d) (hd : d ≤ 15) (hfinite : (Format.roundHalfAway x d).isFinite) :
    Gives "ROUND" [.number x, .number y] (.number (Format.roundHalfAway x d)) :=
  gives_withDefault 0.0 (f := round) (by simp [mathFunctions])
    (by rw [round_eq hy hd, finite, if_pos hfinite])

end Math

/-- Rounding at up to 15 decimal places leaves a whole number alone just if, scaled by the power of ten, it stays below
`15 * 2 ^ 45`; the same holds of `ROUND` and, without places, of the digits that are shown. -/
theorem roundHalfAway_eq_self_iff [RegexLibrary] (hx : Represents x n) (hn : |n| ≤ 2 ^ 53) (hy : Represents y d)
    (hd : d ≤ 15) :
    (Format.roundHalfAway x d = x ↔ |n| * 10 ^ d < 15 * 2 ^ 45) ∧
      (Gives "ROUND" [.number x, .number y] (.number x) ↔ |n| * 10 ^ d < 15 * 2 ^ 45) ∧
      (Format.formatFixed x 0 false = String.ofList (Decimal.showInt n) ↔ |n| < 15 * 2 ^ 45) := by
  have hself := Format.roundHalfAway_eq_self hx hn hd
  refine ⟨hself, ?_, ?_⟩
  · obtain ⟨r, hr, -⟩ := Format.exists_rounded hx hn hd
    have hgives := Math.gives_round hy hd hr.isFinite
    rw [← hself]
    constructor
    · intro h
      exact Binary64.Number.ofFloat.inj (Value.number.inj (hgives.unique h))
    · intro h
      rwa [h] at hgives
  · obtain ⟨z, hz⟩ := Format.exists_roundedInt hx hn
    have hsame : z = n ↔ |n| * 10 ^ 0 < 15 * 2 ^ 45 := by
      obtain ⟨r, hr, hiff⟩ := Format.exists_rounded (d := 0) hx hn (Nat.zero_le 15)
      rw [← hiff, hr.unique hz, Int.cast_inj]
    rw [pow_zero, mul_one] at hsame
    rw [Format.formatFixed_of_represents hz, ← hsame, String.ofList_inj]
    exact Decimal.showInt_injective.eq_iff

theorem roundHalfAway_thousand :
    Represents (Float.ofInt 1000) (1000 : ℤ) ∧ |(1000 : ℤ)| ≤ 2 ^ 53 ∧ Represents (Float.ofInt 3) (3 : ℕ) ∧ 3 ≤ 15 ∧
      Format.roundHalfAway (Float.ofInt 1000) (3 : ℕ) = Float.ofInt 1000 ∧
      Gives "ROUND" [.number (Float.ofInt 1000), .number (Float.ofInt 3)] (.number (Float.ofInt 1000)) ∧
      Format.formatFixed (Float.ofInt 1000) 0 false = "1000" := by
  have hx : Represents (Float.ofInt 1000) (1000 : ℤ) := Binary64.represents_ofInt (by norm_num)
  have hn : |(1000 : ℤ)| ≤ 2 ^ 53 := by norm_num
  have hy : Represents (Float.ofInt 3) (3 : ℕ) := by exact_mod_cast Binary64.represents_ofInt (z := 3) (by norm_num)
  have hd : 3 ≤ 15 := by norm_num
  obtain ⟨hround, hcall, htext⟩ := roundHalfAway_eq_self_iff hx hn hy hd
  exact ⟨hx, hn, hy, hd, hround.2 (by norm_num), hcall.2 (by norm_num), htext.2 (by norm_num)⟩

/-- `2 ^ 52` at no places becomes `2 ^ 52 + 4`, in a call and in a text. -/
theorem roundHalfAway_large : Format.roundHalfAway 4503599627370496.0 0 = 4503599627370500.0 ∧
    Gives "ROUND" [.number (4503599627370496.0 : Float), .number (0.0 : Float)] (.number (4503599627370500.0 : Float)) ∧
    Format.formatFixed 4503599627370496.0 0 false = "4503599627370500" ∧
    (4503599627370500.0 : Float) ≠ 4503599627370496.0 := by
  have hround : Format.roundHalfAway 4503599627370496.0 (0 : ℕ) = 4503599627370500.0 := by decide +kernel
  have hfinite : (Format.roundHalfAway 4503599627370496.0 (0 : ℕ)).isFinite := by decide +kernel
  have hcall := Math.gives_round (by exact_mod_cast Binary64.represents_zero) (Nat.zero_le 15) hfinite
  rw [hround] at hcall
  exact ⟨hround, hcall, by decide +kernel, by decide +kernel⟩

end Spreadsheet
