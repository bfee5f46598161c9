import Spreadsheet.Format.Code
import Spreadsheet.Proofs.SignBits

/-!
# Rounding without overflow

Rounding at decimal places leaves the finite floats if a power of ten, or what is scaled by it, gets too large. Up to
308 places and `2 ^ 1010` nothing does. A number without a sign is rounded to one without a sign in any case.

* `Below`, `Below.mul`, `Below.add`, `Below.div`, `Below.nearest` : bounds on magnitudes;
* `Attains`, `Attains.mul` : bounds from below on what may overflow;
* `Format.represents_powerOfTen`, `Format.exists_powerOfTen`, `Format.le_of_isFinite_powerOfTen` : powers of ten;
* `Format.isFinite_roundHalfAway` : what is rounded stays finite;
* `Format.half_lt_of_roundHalfAway` : and is more than half of the last place, if it is not zero;
* `Format.unsigned_roundHalfAway` : and without a sign.
-/

namespace Spreadsheet

namespace Binary64

variable {x y : Float} {p q v r : ℚ} {a b c : ℤ}

/-! ## Magnitudes -/

/-- A finite float of magnitude below `2 ^ c`. -/
def Below (x : Float) (c : ℤ) : Prop := ∃ q, Represents x q ∧ |q| < 2 ^ c

namespace Below

theorem isFinite (h : Below x c) : x.isFinite := by
  obtain ⟨q, hq, -⟩ := h
  exact hq.isFinite

theorem mono (h : Below x a) (hab : a ≤ b) : Below x b := by
  obtain ⟨q, hq, hlt⟩ := h
  exact ⟨q, hq, hlt.trans_le (zpow_le_zpow_right₀ one_le_two hab)⟩

theorem signum_mul_abs (h : Below x c) : Below (signum x * x.abs) c := by
  obtain ⟨q, hq, hlt⟩ := h
  exact ⟨q, hq.signum_mul_abs, hlt⟩

theorem mul (hx : Below x a) (hy : Below y b) (hmost : a + b ≤ 1023) :
    Below (x * y) (a + b + 1) := by
  obtain ⟨p, hp, hpa⟩ := hx
  obtain ⟨q, hq, hqb⟩ := hy
  have hlt : |p * q| < 2 ^ (a + b) := by
    rw [abs_mul, zpow_add₀ (by norm_num)]
    exact mul_lt_mul'' hpa hqb (abs_nonneg p) (abs_nonneg q)
  obtain ⟨r, hr, hround⟩ := hp.mul hq (Represents.le_largest hlt hmost)
  exact ⟨r, hr, hround.abs_lt_zpow hlt⟩

theorem add (hx : Below x a) (hy : Below y a) (hmost : a + 1 ≤ 1023) :
    Below (x + y) (a + 1 + 1) := by
  obtain ⟨p, hp, hpa⟩ := hx
  obtain ⟨q, hq, hqa⟩ := hy
  have hlt : |p + q| < 2 ^ (a + 1) := by
    rw [zpow_add_one₀ (by norm_num)]
    linarith [abs_add_le p q]
  obtain ⟨r, hr, hround⟩ := hp.add hq (Represents.le_largest hlt hmost)
  exact ⟨r, hr, hround.abs_lt_zpow hlt⟩

/-- Dividing by one or more makes nothing larger. -/
theorem div (hx : Below x a) (hy : Represents y q) (hq : 1 ≤ q) (hmost : a ≤ 1023) :
    Below (x / y) (a + 1) := by
  obtain ⟨p, hp, hpa⟩ := hx
  have hlt : |p / q| < 2 ^ a := by
    rw [abs_div, abs_of_pos (by linarith : 0 < q)]
    exact (div_le_self (abs_nonneg p) hq).trans_lt hpa
  obtain ⟨r, hr, hround⟩ := hp.div hy (by linarith) (Represents.le_largest hlt hmost)
  exact ⟨r, hr, hround.abs_lt_zpow hlt⟩

theorem nearest (h : Below x a) (ha : 0 ≤ a) : Below (nearest x) (a + 1) := by
  obtain ⟨q, hq, hlt⟩ := h
  refine ⟨_, hq.nearest, ?_⟩
  have hnear := abs_halfAway_sub_le q
  have hle := abs_sub_abs_le_abs_sub (halfAway q : ℚ) q
  have hone : (1 : ℚ) ≤ 2 ^ a := one_le_zpow₀ one_le_two ha
  rw [zpow_add_one₀ (by norm_num)]
  linarith

end Below

/-- A float that is at least as large as a power of two, if it is finite. -/
def Attains (x : Float) (v : ℚ) : Prop := ∃ k : ℕ, v = 2 ^ k ∧ (x.isFinite → ∃ r, Represents x r ∧ v ≤ r)

theorem Attains.mul (hx : Attains x p) (hy : Attains y q) : Attains (x * y) (p * q) := by
  obtain ⟨i, rfl, hx⟩ := hx
  obtain ⟨j, rfl, hy⟩ := hy
  refine ⟨i + j, (pow_add _ _ _).symm, fun hfinite => ?_⟩
  obtain ⟨hx', hy'⟩ := isFinite_of_mul hfinite
  obtain ⟨r, hr, hir⟩ := hx hx'
  obtain ⟨s, hs, hjs⟩ := hy hy'
  obtain ⟨t, ht, hround⟩ := hr.mul_of_isFinite hs hfinite
  have hproduct : ((1 : ℤ) : ℚ) * 2 ^ ((i + j : ℕ) : ℤ) ≤ r * s := by
    rw [Int.cast_one, one_mul, zpow_natCast, pow_add]
    exact mul_le_mul hir hjs (by positivity) ((by positivity : (0 : ℚ) ≤ 2 ^ i).trans hir)
  have hle := hround.le_of_dyadic_le (by norm_num) (by omega) hproduct
  rw [Int.cast_one, one_mul, zpow_natCast, pow_add] at hle
  exact ⟨t, ht, hle⟩

end Binary64

namespace Format

open Binary64 (Represents Below Attains Unsigned)

variable {x : Float} {q : ℚ} {d : ℕ}

/-! ## Places -/

theorem represents_epsilon : Represents Binary64.epsilon (2 ^ (-52 : ℤ)) :=
  ⟨⟨false, 2 ^ 52, -104⟩, rfl, by norm_num [Binary64.Binary.value]⟩

theorem represents_four : Represents 4.0 (2 ^ (2 : ℤ)) :=
  ⟨⟨false, 2 ^ 52, -50⟩, rfl, by norm_num [Binary64.Binary.value]⟩

theorem represents_ten : Represents 10.0 (10 : ℕ) :=
  ⟨⟨false, 5 * 2 ^ 50, -49⟩, rfl, by norm_num [Binary64.Binary.value]⟩

/-- Powers of ten of 53 digits are exact. -/
theorem represents_powerOfTen (hd : d ≤ 15) : Represents (powerOfTen d) (10 ^ d) := by
  have hsize : 10 ^ d < 2 ^ 53 :=
    calc 10 ^ d ≤ 10 ^ 15 := Nat.pow_le_pow_right (by norm_num) hd
      _ < 2 ^ 53 := by norm_num
  exact_mod_cast Binary64.represents_natPower represents_ten (by norm_num) hsize

/-- Powers of ten that are finite, and at most half as large again as they should be. -/
theorem exists_powerOfTen (hd : d ≤ 308) : ∃ m, Represents (powerOfTen d) m ∧ 1 ≤ m ∧ m ≤ 3 / 2 * 10 ^ d := by
  have hgrowth : (1 + 1 / 2 ^ 53 : ℚ) ^ (d + 1) ≤ 3 / 2 :=
    calc (1 + 1 / 2 ^ 53 : ℚ) ^ (d + 1) ≤ (1 + 1 / 2 ^ 53) ^ (103 * 3) := pow_le_pow_right₀ (by norm_num) (by omega)
      _ = ((1 + 1 / 2 ^ 53) ^ 103) ^ 3 := pow_mul _ _ _
      _ ≤ (11 / 10) ^ 3 := pow_le_pow_left₀ (by positivity) (by norm_num) 3
      _ ≤ 3 / 2 := by norm_num
  have hgrowth' : (1 + 1 / 2 ^ 53 : ℚ) ^ d ≤ 3 / 2 :=
    (pow_le_pow_right₀ (by norm_num) (Nat.le_succ d)).trans hgrowth
  have hlargest : 3 / 2 * 10 ^ 308 ≤ Binary64.largest := by
    have hsplit : ((2 : ℚ) ^ 256) ^ 4 = 2 ^ 53 * 2 ^ 971 := by rw [← pow_mul, ← pow_add]
    have hpos : (0 : ℚ) < 2 ^ 971 := by positivity
    calc (3 / 2 * 10 ^ 308 : ℚ) = 3 / 2 * (10 ^ 77) ^ 4 := by rw [← pow_mul]
      _ ≤ 3 / 2 * (87 / 100 * 2 ^ 256) ^ 4 :=
        mul_le_mul_of_nonneg_left (pow_le_pow_left₀ (by positivity) (by norm_num) 4) (by norm_num)
      _ = 3 / 2 * (87 / 100) ^ 4 * 2 ^ 53 * 2 ^ 971 := by simp only [mul_pow, hsplit, mul_assoc]
      _ ≤ (2 ^ 53 - 1) * 2 ^ 971 := mul_le_mul_of_nonneg_right (by norm_num) hpos.le
      _ = Binary64.largest := by rw [Binary64.largest, zpow_ofNat]
  have hten : (10 : ℚ) ^ d ≤ 10 ^ 308 := pow_le_pow_right₀ (by norm_num) hd
  obtain ⟨m, hm, hleast, hmost⟩ := Binary64.exists_natPower (n := d) (q := 10) (by exact_mod_cast represents_ten)
    (by norm_num) (by
      calc (1 + 1 / 2 ^ 53 : ℚ) * (10 * (1 + 1 / 2 ^ 53)) ^ d = (1 + 1 / 2 ^ 53) ^ (d + 1) * 10 ^ d := by
            rw [mul_pow, mul_left_comm, ← pow_succ', mul_comm]
        _ ≤ 3 / 2 * 10 ^ 308 := mul_le_mul hgrowth hten (by positivity) (by norm_num)
        _ ≤ Binary64.largest := hlargest)
  refine ⟨m, hm, hleast, hmost.trans ?_⟩
  rw [mul_pow, mul_comm]
  exact mul_le_mul_of_nonneg_right hgrowth' (by positivity)

theorem isFinite_powerOfTen_eq_false : ∀ i : Fin 33, (powerOfTen (309 + i)).isFinite = false := by decide +kernel

/-- There is no finite power of ten above `10 ^ 308`. -/
theorem le_of_isFinite_powerOfTen (h : (powerOfTen d).isFinite) : d ≤ 308 := by
  have hone : Attains 1 1 := ⟨0, (pow_zero 2).symm, fun _ => ⟨1, Binary64.represents_one, le_rfl⟩⟩
  have hten : Attains 10.0 8 := ⟨3, by norm_num, fun _ => ⟨_, represents_ten, by norm_num⟩⟩
  obtain ⟨k, hk, hattains⟩ := Binary64.powerAux_induction Attains (8 ^ d) (fun hx hy _ _ => hx.mul hy) hone hten le_rfl
    (by norm_num) (one_mul _).le
  obtain ⟨r, hr, hle⟩ := hattains h
  have hlt : (2 : ℚ) ^ (3 * d) < 2 ^ 1024 := by
    have hsize := (le_abs_self r).trans_lt ((Binary64.represents_iff_stands.1 hr).roundsTo_self.abs_lt hr.abs_le)
    rw [one_mul, show (8 : ℚ) = 2 ^ 3 by norm_num, ← pow_mul] at hle
    exact hle.trans_lt (by exact_mod_cast hsize)
  have hd := (pow_lt_pow_iff_right₀ (by norm_num : (1 : ℚ) < 2)).1 hlt
  by_contra hmore
  obtain ⟨i, rfl⟩ : ∃ i : ℕ, d = 309 + i := ⟨d - 309, by omega⟩
  rw [isFinite_powerOfTen_eq_false ⟨i, by omega⟩] at h
  cases h

/-- Nothing overflows with up to 308 places and a scaled magnitude of at most `2 ^ 1010`. -/
theorem isFinite_roundHalfAway (hx : Represents x q) (hd : d ≤ 308) (hq : |q| * 10 ^ d ≤ 2 ^ 1010) :
    (roundHalfAway x d).isFinite := by
  obtain ⟨m, hm, hleast, hmost⟩ := exists_powerOfTen hd
  have hepsilon : Below Binary64.epsilon 0 := ⟨_, represents_epsilon, by norm_num [abs_of_pos]⟩
  have hfour : Below 4.0 3 := ⟨_, represents_four, by norm_num⟩
  have hscaled : Below (x * powerOfTen d) 1012 := by
    have hlt : |q * m| < 2 ^ (1011 : ℤ) := by
      calc |q * m| = |q| * m := by rw [abs_mul, abs_of_pos (by linarith : 0 < m)]
        _ ≤ |q| * (3 / 2 * 10 ^ d) := mul_le_mul_of_nonneg_left hmost (abs_nonneg q)
        _ = 3 / 2 * (|q| * 10 ^ d) := by ring
        _ ≤ 3 / 2 * 2 ^ 1010 := mul_le_mul_of_nonneg_left hq (by norm_num)
        _ < 2 * 2 ^ 1010 := mul_lt_mul_of_pos_right (by norm_num) (by positivity)
        _ = 2 ^ (1011 : ℤ) := by rw [zpow_ofNat, ← pow_succ']
    obtain ⟨s, hs, hround⟩ := hx.mul hm (Represents.le_largest hlt (by norm_num))
    exact ⟨s, hs, hround.abs_lt_zpow hlt⟩
  have hnudge : Below _ 1017 := (hscaled.signum_mul_abs.mul hepsilon (by norm_num)).mul hfour (by norm_num)
  have hnearest := ((hscaled.mono (by norm_num)).add hnudge (by norm_num)).nearest (by norm_num)
  rw [roundHalfAway, if_neg (Int.natCast_nonneg d).not_gt]
  exact (hnearest.div hm hleast (by norm_num)).isFinite

/-- What is rounded at decimal places and is not zero makes up more than half of the last place. -/
theorem half_lt_of_roundHalfAway {r : ℚ} (h : Represents (roundHalfAway x d) r) (hr : r ≠ 0) :
    1 / 2 < |r| * 10 ^ d := by
  rw [roundHalfAway, if_neg (Int.natCast_nonneg d).not_gt, Int.natAbs_natCast] at h
  obtain ⟨hnearest, hpower⟩ := Binary64.isFinite_of_div h hr
  obtain ⟨v, hv⟩ := Binary64.exists_represents (Binary64.isFinite_of_mapMagnitude hnearest)
  have hd := le_of_isFinite_powerOfTen hpower
  obtain ⟨m, hm, hleast, hmost⟩ := exists_powerOfTen hd
  obtain ⟨s, hs, hround⟩ := hv.nearest.div_of_isFinite hm (by linarith) h.isFinite
  obtain rfl : s = r := hs.unique h
  have hpos : 0 < m := by linarith
  -- the nearest integer is at least one
  have hone : (1 : ℚ) ≤ |(Binary64.halfAway v : ℚ)| := by
    have hne : Binary64.halfAway v ≠ 0 := by
      intro hzero
      rw [hzero, Int.cast_zero, zero_div] at hround
      exact hr (by exact_mod_cast Binary64.RoundsTo.eq_of_int (n := 0) (by exact_mod_cast hround) (by norm_num))
    exact_mod_cast Int.one_le_abs hne
  have hquotient : 2 / 3 ≤ |(Binary64.halfAway v / m : ℚ)| * 10 ^ d := by
    rw [abs_div, abs_of_pos hpos, div_mul_eq_mul_div, le_div_iff₀ hpos]
    calc 2 / 3 * m ≤ 2 / 3 * (3 / 2 * 10 ^ d) := by linarith
      _ = 1 * 10 ^ d := by ring
      _ ≤ _ := mul_le_mul_of_nonneg_right hone (by positivity)
  have htiny : (2 : ℚ) ^ (-1075 : ℤ) * 10 ^ d ≤ 1 / 100 :=
    calc (2 : ℚ) ^ (-1075 : ℤ) * 10 ^ d ≤ 2 ^ (-1075 : ℤ) * 2 ^ (1024 : ℤ) := by
          refine mul_le_mul_of_nonneg_left ?_ (by positivity)
          calc (10 : ℚ) ^ d ≤ 10 ^ (77 * 4) := pow_le_pow_right₀ (by norm_num) hd
            _ = (10 ^ 77) ^ 4 := pow_mul _ _ _
            _ ≤ (2 ^ 256) ^ 4 := pow_le_pow_left₀ (by positivity) (by norm_num) 4
            _ = 2 ^ (1024 : ℤ) := by rw [zpow_ofNat, ← pow_mul]
      _ = 2 ^ (-51 : ℤ) := by rw [← zpow_add₀ (by norm_num)]; rfl
      _ ≤ 1 / 100 := by norm_num
  have herror := hround.abs_sub_le_add
  rw [abs_sub_comm] at herror
  have hbelow := mul_le_mul_of_nonneg_right ((abs_sub_abs_le_abs_sub _ _).trans herror)
    (by positivity : (0 : ℚ) ≤ 10 ^ d)
  rw [sub_mul, add_mul, mul_assoc] at hbelow
  norm_num only at hbelow
  linarith

theorem unsigned_powerOfTen (d : ℕ) : Unsigned (powerOfTen d) := by
  have hten : Unsigned 10.0 := represents_ten.unsigned (by norm_num)
  exact hten.natPower d

theorem unsigned_nudge (h : Unsigned x) : Unsigned (Binary64.signum x * x.abs * Binary64.epsilon * 4.0) := by
  have hepsilon : Unsigned Binary64.epsilon := represents_epsilon.unsigned (by positivity)
  have hfour : Unsigned 4.0 := represents_four.unsigned (by positivity)
  exact ((h.signum.mul (Binary64.unsigned_abs x)).mul hepsilon).mul hfour

/-- A number without a sign keeps none. -/
theorem unsigned_roundHalfAway (h : Unsigned x) (d : ℕ) : Unsigned (roundHalfAway x d) := by
  have hscaled := h.mul (unsigned_powerOfTen d)
  rw [roundHalfAway, if_neg (Int.natCast_nonneg d).not_gt]
  exact (hscaled.add (unsigned_nudge hscaled)).nearest.div (unsigned_powerOfTen d)

end Format

end Spreadsheet
