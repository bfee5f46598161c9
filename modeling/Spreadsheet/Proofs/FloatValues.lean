import Spreadsheet.Binary64.Integral
import Spreadsheet.Proofs.FloatRounding

/-!
# What floats stand for

A finite float stands for the number that its sign, mantissa and exponent make up. Arithmetic on floats rounds the
result of arithmetic on those numbers, and integers of 53 digits come out exactly.

* `Binary.value`, `Represents` : the number that a float stands for;
* `represents_iff_stands` : it can be read off the bits; `exists_represents` : every finite float stands for one;
* `Represents.add`, `Represents.sub`, `Represents.mul`, `Represents.div` : arithmetic;
* `represents_ofInt`, `exists_represents_ofNat` : integers;
* `Represents.mapMagnitude` : whole numbers in place of magnitudes;
* `halfAway`, `Represents.nearest`, `Represents.floor` : the nearest integer, and the last one below.
-/

namespace Spreadsheet.Binary64

open Float.Model (UnpackedFloat Format)
open Float.Model.UnpackedFloat (Sign unpackSign unpackExponent unpackMantissa packComponents)

/-! ## The bits of a float -/

/-- The number that sign, mantissa and exponent make up. -/
def Binary.value (b : Binary) : ℚ := (if b.negative then -1 else 1) * (b.mantissa * 2 ^ b.exponent)

/-- A float is finite and stands for a number. -/
def Represents (x : Float) (q : ℚ) : Prop := ∃ b, exact x = .finite b ∧ b.value = q

/-- What sign, exponent field and fraction make up. -/
def ofFields (s : Sign) (field fraction : ℕ) : UnpackedFloat :=
  if field = 2 ^ 11 - 1 then if fraction = 0 then .infinity s else .notANumber
  else if field = 0 then if h : fraction = 0 then .zero s else .finite s fraction (-1074) (Nat.pos_of_ne_zero h)
  else .finite s (2 ^ 52 + fraction) (field - 1075) (by positivity)

theorem unpack_eq_ofFields (b : BitVec Format.binary64.numBits) : UnpackedFloat.unpack Format.binary64 b =
    ofFields (.ofBitVec (unpackSign b)) (unpackExponent b).toNat (unpackMantissa b).toNat := by
  have hfull : unpackExponent b = -1#11 ↔ (unpackExponent b).toNat = 2 ^ 11 - 1 := BitVec.toNat_inj.symm
  have hzero : unpackExponent b = 0#11 ↔ (unpackExponent b).toNat = 0 := BitVec.toNat_inj.symm
  have hnone : unpackMantissa b = 0#52 ↔ (unpackMantissa b).toNat = 0 := BitVec.toNat_inj.symm
  have happend : (1#1 ++ unpackMantissa b).toNat = 2 ^ 52 + (unpackMantissa b).toNat := by
    rw [BitVec.toNat_append, ← Nat.shiftLeft_add_eq_or_of_lt (unpackMantissa b).isLt]
    rfl
  unfold UnpackedFloat.unpack ofFields
  dsimp only
  split
  · rename_i hg
    rw [if_pos (hfull.1 hg)]
    split
    · rename_i hf
      rw [if_pos (hnone.1 hf)]
    · rename_i hf
      rw [if_neg (mt hnone.2 hf)]
  · rename_i hg
    rw [if_neg (mt hfull.2 hg)]
    split
    · rename_i hg
      rw [if_pos (hzero.1 hg)]
      split
      · rename_i hf
        rw [dif_pos (hnone.1 hf)]
      · rename_i hf
        rw [dif_neg (mt hnone.2 hf)]
        congr 1
        rw [hzero.1 hg]
        rfl
    · rename_i hg
      rw [if_neg (mt hzero.2 hg)]
      congr 1

theorem unpackSign_packComponents {spec : Format} (s : Sign) (g : BitVec spec.exponentBits)
    (f : BitVec spec.mantissaBitsWithoutImplicit) : unpackSign (packComponents spec s g f) = s.toBitVec := by
  apply BitVec.eq_of_getLsbD_eq
  intro i hi
  obtain rfl : i = 0 := by omega
  simp [unpackSign, packComponents, BitVec.getLsbD_append, BitVec.getElem_append]

theorem unpack_packComponents (s : Sign) (g : BitVec 11) (f : BitVec 52) :
    UnpackedFloat.unpack Format.binary64 (packComponents Format.binary64 s g f) = ofFields s g.toNat f.toNat := by
  have hs : Sign.ofBitVec s.toBitVec = s := by cases s <;> rfl
  rw [unpack_eq_ofFields, Float.Model.UnpackedFloat.unpackMantissa_packComponents,
    Float.Model.UnpackedFloat.unpackExponent_packComponents, unpackSign_packComponents, hs]

/-- Packing loses nothing. -/
theorem unpack_pack {u : UnpackedFloat} {q : ℚ} (h : Stands u q) :
    UnpackedFloat.unpack Format.binary64 (UnpackedFloat.pack Format.binary64 u) = u := by
  cases h with
  | zero s => exact unpack_packComponents s 0 0
  | @finite s m e hm hcanonical hmost =>
    have hlt := hcanonical.lt
    have hleast := hcanonical.least_le
    have hroom : ¬2 ^ 11 ≤ (e + (1023 : ℕ) + (52 : ℕ)).toNat + 1 := by omega
    show UnpackedFloat.unpack _ (if 2 ^ 11 ≤ (e + (1023 : ℕ) + (52 : ℕ)).toNat + 1 then _
      else if m.log2 + 1 = 1 + 52 then
        packComponents Format.binary64 s (.ofNat 11 (e + (1023 : ℕ) + (52 : ℕ)).toNat) (.ofNat 52 m)
      else packComponents Format.binary64 s 0#11 (.ofNat 52 m)) = _
    rw [if_neg hroom]
    split
    · rename_i hlog
      have hfull : 2 ^ 52 ≤ m := (Nat.le_log2 hm.ne').1 (by omega)
      rw [unpack_packComponents, BitVec.toNat_ofNat, BitVec.toNat_ofNat, ofFields, if_neg (by omega), if_neg (by omega)]
      congr 1 <;> omega
    · rename_i hlog
      have hless : m < 2 ^ 52 := by
        by_contra hfull
        have := (Nat.le_log2 hm.ne').2 (Nat.le_of_not_lt hfull)
        have := log2_le_of_lt hlt
        omega
      have he : e = -1074 := hcanonical.full.resolve_left (by omega)
      have hmod : m % 2 ^ 52 = m := Nat.mod_eq_of_lt hless
      rw [unpack_packComponents, BitVec.toNat_ofNat, BitVec.toNat_ofNat, ofFields, if_neg (by omega), if_pos (by omega),
        dif_neg (by omega)]
      simp only [hmod, he]

/-! ## The number of a float -/

theorem Stands.unique {u : UnpackedFloat} {p q : ℚ} (hp : Stands u p) (hq : Stands u q) : p = q := by
  cases hp <;> cases hq <;> rfl

/-- Below the last exponent field, every float stands for a number. -/
theorem stands_ofFields (s : Sign) {field fraction : ℕ} (hfield : field < 2 ^ 11 - 1) (hfraction : fraction < 2 ^ 52) :
    Stands (ofFields s field fraction) (signed s (if field = 0 then fraction * 2 ^ (-1074 : ℤ)
      else (2 ^ 52 + fraction : ℕ) * 2 ^ (field - 1075 : ℤ))) := by
  rw [ofFields, if_neg hfield.ne]
  split
  · split
    · rename_i hzero
      simpa [hzero] using Stands.zero s
    · exact .finite s _ ⟨hfraction.trans (by norm_num), Or.inr rfl, le_rfl⟩ (by norm_num)
  · exact .finite s _ ⟨by omega, Or.inl (by omega), by omega⟩ (by omega)

theorem not_stands_ofFields (s : Sign) (fraction : ℕ) (q : ℚ) : ¬Stands (ofFields s (2 ^ 11 - 1) fraction) q := by
  rw [ofFields, if_pos rfl]
  split <;> nofun

/-- The fields of a float, as parts of its bits. -/
theorem unpack_eq_ofFields_toNat (b : BitVec Format.binary64.numBits) : UnpackedFloat.unpack Format.binary64 b =
    ofFields (if 2 ^ 63 ≤ b.toNat then .negative else .positive) (b.toNat / 2 ^ 52 % 2 ^ 11) (b.toNat % 2 ^ 52) := by
  have hsign : Sign.ofBitVec (unpackSign b) = if 2 ^ 63 ≤ b.toNat then .negative else .positive := by
    have hbit : (unpackSign b).toNat = b.toNat / 2 ^ 63 % 2 := by
      simp [unpackSign, Nat.shiftRight_eq_div_pow]
    have hzero : unpackSign b = 0#1 ↔ ¬2 ^ 63 ≤ b.toNat := by
      have hlt : b.toNat < 2 ^ 64 := b.isLt
      rw [← BitVec.toNat_inj, hbit, BitVec.toNat_zero]
      omega
    unfold Sign.ofBitVec
    split <;> split <;> simp_all
  have hfield : (unpackExponent b).toNat = b.toNat / 2 ^ 52 % 2 ^ 11 := by
    simp [unpackExponent, Nat.shiftRight_eq_div_pow]
  have hfraction : (unpackMantissa b).toNat = b.toNat % 2 ^ 52 := by
    simp [unpackMantissa]
  rw [unpack_eq_ofFields, hsign, hfield, hfraction]

/-- The number of a float is what its bits stand for. -/
theorem represents_iff_stands {x : Float} {q : ℚ} : Represents x q ↔ Stands x.toModel.unpack q := by
  rw [Float.Model.unpack, unpack_eq_ofFields_toNat]
  change Represents x q ↔ Stands (ofFields (if 2 ^ 63 ≤ x.toBits.toNat then .negative else .positive)
    (x.toBits.toNat / 2 ^ 52 % 2 ^ 11) (x.toBits.toNat % 2 ^ 52)) q
  unfold Represents exact
  dsimp only
  have hfield : x.toBits.toNat / 2 ^ 52 % 2 ^ 11 < 2 ^ 11 := Nat.mod_lt _ (by norm_num)
  have hfraction : x.toBits.toNat % 2 ^ 52 < 2 ^ 52 := Nat.mod_lt _ (by norm_num)
  generalize x.toBits.toNat / 2 ^ 52 % 2 ^ 11 = field at *
  generalize x.toBits.toNat % 2 ^ 52 = fraction at *
  by_cases hlast : field = 2 ^ 11 - 1
  · rw [if_pos hlast, hlast]
    refine iff_of_false ?_ (not_stands_ofFields _ _ _)
    rintro ⟨b, hb, -⟩
    split at hb <;> cases hb
  · have hstands := stands_ofFields (if 2 ^ 63 ≤ x.toBits.toNat then .negative else .positive)
      (show field < 2 ^ 11 - 1 by omega) hfraction
    have hiff : ∀ {b : Binary} {u v}, Stands u v → b.value = v → ((∃ c, Exact.finite b = .finite c ∧ c.value = q) ↔
        Stands u q) := by
      intro b u v hu hb
      constructor
      · rintro ⟨c, ⟨⟩, rfl⟩
        rwa [hb]
      · intro hq
        exact ⟨b, rfl, hb.trans (hu.unique hq)⟩
    rw [if_neg hlast]
    split
    · rename_i hzero
      refine hiff hstands ?_
      rw [if_pos hzero]
      split <;> simp_all [Binary.value, signed]
    · rename_i hzero
      refine hiff hstands ?_
      rw [if_neg hzero]
      split <;> simp_all [Binary.value, signed]

/-- A finite float stands for a number. -/
theorem exists_represents {x : Float} (h : x.isFinite) : ∃ q, Represents x q := by
  have hunpack : x.toModel.unpack.isFinite = true := h
  simp only [represents_iff_stands, Float.Model.unpack, unpack_eq_ofFields_toNat] at hunpack ⊢
  have hfield : x.toModel.toBits.toBitVec.toNat / 2 ^ 52 % 2 ^ 11 ≠ 2 ^ 11 - 1 := by
    intro hlast
    rw [hlast, ofFields, if_pos rfl] at hunpack
    split at hunpack <;> cases hunpack
  have hlt : x.toModel.toBits.toBitVec.toNat / 2 ^ 52 % 2 ^ 11 < 2 ^ 11 := Nat.mod_lt _ (by norm_num)
  exact ⟨_, stands_ofFields _ (by omega) (Nat.mod_lt _ (by norm_num))⟩

theorem represents_pack {u : UnpackedFloat} {q : ℚ} (h : Stands u q) : Represents (.ofModel (.pack u)) q := by
  rw [represents_iff_stands]
  show Stands (UnpackedFloat.unpack Format.binary64 (UnpackedFloat.pack Format.binary64 u)) q
  rwa [unpack_pack h]

/-- What there is no room for is not finite. -/
theorem represents_pack_of_isFinite {u : UnpackedFloat} {q : ℚ} (h : Rounded u q)
    (hfinite : (Float.ofModel (.pack u)).isFinite) : Represents (.ofModel (.pack u)) q := by
  refine represents_pack ?_
  cases h with
  | zero s => exact .zero s
  | @finite s m e hm hcanonical =>
    refine .finite s hm hcanonical (by_contra fun hmost => ?_)
    have hlast : 2 ^ 11 ≤ (e + (1023 : ℕ) + (52 : ℕ)).toNat + 1 := by omega
    have hpack : UnpackedFloat.pack Format.binary64 (.finite s m e hm) =
        packComponents Format.binary64 s (-1#11) 0#52 := if_pos hlast
    have hunpack : (UnpackedFloat.unpack Format.binary64
        (UnpackedFloat.pack Format.binary64 (.finite s m e hm))).isFinite = true := hfinite
    rw [hpack, unpack_packComponents, ofFields, if_pos (by rfl), if_pos (by rfl)] at hunpack
    cases hunpack

namespace Represents

variable {x y : Float} {p q : ℚ}

theorem isFinite (h : Represents x q) : x.isFinite = true := by
  have hstands := represents_iff_stands.1 h
  show x.toModel.unpack.isFinite = true
  cases hx : x.toModel.unpack <;> rw [hx] at hstands <;> first | rfl | cases hstands

/-- No float is larger than the largest one. -/
theorem abs_le (h : Represents x q) : |q| ≤ largest := (represents_iff_stands.1 h).abs_le

/-- A float that is not less than zero stands for no negative number. -/
theorem nonneg (h : Represents x q) (hx : ¬x < 0.0) : 0 ≤ q := by
  have hlt : (x.toModel.unpack.lt (.zero .positive)) = true → x < 0.0 := fun hlt => decide_eq_true hlt
  have hstands := represents_iff_stands.1 h
  cases hunpack : x.toModel.unpack with
  | zero s =>
    rw [hunpack] at hstands
    cases hstands
    exact le_rfl
  | finite s m e hm =>
    rw [hunpack] at hstands hlt
    cases hstands
    cases s with
    | negative => exact absurd (hlt rfl) hx
    | positive => exact mul_nonneg (Nat.cast_nonneg m) (by positivity)
  | _ =>
    rw [hunpack] at hstands
    cases hstands

/-! ## Arithmetic -/

theorem neg (h : Represents x q) : Represents (-x) (-q) := represents_pack (represents_iff_stands.1 h).neg

theorem add (hx : Represents x p) (hy : Represents y q) (hsize : |p + q| ≤ largest) :
    ∃ r, Represents (x + y) r ∧ RoundsTo (p + q) r := by
  obtain ⟨r, hr, hround⟩ := (represents_iff_stands.1 hx).add (represents_iff_stands.1 hy)
  exact ⟨r, represents_pack (hr.stands (hround.abs_lt hsize)), hround⟩

theorem sub (hx : Represents x p) (hy : Represents y q) (hsize : |p - q| ≤ largest) :
    ∃ r, Represents (x - y) r ∧ RoundsTo (p - q) r := by
  obtain ⟨r, hr, hround⟩ := (represents_iff_stands.1 hx).sub (represents_iff_stands.1 hy)
  exact ⟨r, represents_pack (hr.stands (hround.abs_lt hsize)), hround⟩

theorem mul (hx : Represents x p) (hy : Represents y q) (hsize : |p * q| ≤ largest) :
    ∃ r, Represents (x * y) r ∧ RoundsTo (p * q) r := by
  obtain ⟨r, hr, hround⟩ := (represents_iff_stands.1 hx).mul (represents_iff_stands.1 hy)
  exact ⟨r, represents_pack (hr.stands (hround.abs_lt hsize)), hround⟩

theorem div (hx : Represents x p) (hy : Represents y q) (hq : q ≠ 0) (hsize : |p / q| ≤ largest) :
    ∃ r, Represents (x / y) r ∧ RoundsTo (p / q) r := by
  obtain ⟨r, hr, hround⟩ := (represents_iff_stands.1 hx).div (represents_iff_stands.1 hy) hq
  exact ⟨r, represents_pack (hr.stands (hround.abs_lt hsize)), hround⟩

/-! What is finite has been rounded, however large the numbers. -/

theorem sub_of_isFinite (hx : Represents x p) (hy : Represents y q) (h : (x - y).isFinite) :
    ∃ r, Represents (x - y) r ∧ RoundsTo (p - q) r := by
  obtain ⟨r, hr, hround⟩ := (represents_iff_stands.1 hx).sub (represents_iff_stands.1 hy)
  exact ⟨r, represents_pack_of_isFinite hr h, hround⟩

theorem mul_of_isFinite (hx : Represents x p) (hy : Represents y q) (h : (x * y).isFinite) :
    ∃ r, Represents (x * y) r ∧ RoundsTo (p * q) r := by
  obtain ⟨r, hr, hround⟩ := (represents_iff_stands.1 hx).mul (represents_iff_stands.1 hy)
  exact ⟨r, represents_pack_of_isFinite hr h, hround⟩

theorem div_of_isFinite (hx : Represents x p) (hy : Represents y q) (hq : q ≠ 0) (h : (x / y).isFinite) :
    ∃ r, Represents (x / y) r ∧ RoundsTo (p / q) r := by
  obtain ⟨r, hr, hround⟩ := (represents_iff_stands.1 hx).div (represents_iff_stands.1 hy) hq
  exact ⟨r, represents_pack_of_isFinite hr h, hround⟩

/-! ### Errors

Below `2 ^ c` a result is at most half a digit of `2 ^ (c - 53)` away. -/

theorem le_largest {v : ℚ} {c : ℤ} (hv : |v| < 2 ^ c) (hmost : c ≤ 1023) : |v| ≤ largest := by
  have hfactor : (2 : ℚ) ^ (1023 : ℤ) = 2 ^ (52 : ℤ) * 2 ^ (971 : ℤ) := by rw [← zpow_add₀ (by norm_num)]; rfl
  calc |v| ≤ 2 ^ c := hv.le
    _ ≤ 2 ^ (1023 : ℤ) := zpow_le_zpow_right₀ one_le_two hmost
    _ = 2 ^ (52 : ℤ) * 2 ^ (971 : ℤ) := hfactor
    _ ≤ largest := mul_le_mul_of_nonneg_right (by norm_num) (by positivity)

variable {c : ℤ}

theorem add_near (hx : Represents x p) (hy : Represents y q) (hleast : -1021 ≤ c) (hmost : c ≤ 1023)
    (hsize : |p + q| < 2 ^ c) : ∃ r, Represents (x + y) r ∧ |r - (p + q)| ≤ 2 ^ (c - 54) := by
  obtain ⟨r, hr, hround⟩ := hx.add hy (le_largest hsize hmost)
  exact ⟨r, hr, hround.abs_sub_le hleast hsize⟩

theorem mul_near (hx : Represents x p) (hy : Represents y q) (hleast : -1021 ≤ c) (hmost : c ≤ 1023)
    (hsize : |p * q| < 2 ^ c) : ∃ r, Represents (x * y) r ∧ |r - p * q| ≤ 2 ^ (c - 54) := by
  obtain ⟨r, hr, hround⟩ := hx.mul hy (le_largest hsize hmost)
  exact ⟨r, hr, hround.abs_sub_le hleast hsize⟩

theorem div_near (hx : Represents x p) (hy : Represents y q) (hq : q ≠ 0) (hleast : -1021 ≤ c) (hmost : c ≤ 1023)
    (hsize : |p / q| < 2 ^ c) : ∃ r, Represents (x / y) r ∧ |r - p / q| ≤ 2 ^ (c - 54) := by
  obtain ⟨r, hr, hround⟩ := hx.div hy hq (le_largest hsize hmost)
  exact ⟨r, hr, hround.abs_sub_le hleast hsize⟩

end Represents

/-! ## Integers -/

theorem represents_ofNat {n : ℕ} (hn : n < 2 ^ 53) : Represents (Float.ofNat n) n := by
  have hsize : |(n : ℚ)| ≤ largest :=
    Represents.le_largest (c := 53) (by rw [Nat.abs_cast]; exact_mod_cast hn) (by norm_num)
  have hone : Represents (Float.ofBits 0x3FF0000000000000) 1 :=
    ⟨⟨false, 2 ^ 52, -52⟩, rfl, by norm_num [Binary.value]⟩
  have hinteger : Represents n.toUInt64.toFloat n := by
    have hcast : (n.toUInt64.toNat : ℤ) = n := by
      rw [UInt64.toNat_ofNat']
      omega
    obtain ⟨r, hr, hround⟩ := Rounded.normalize n 0 .positive
    have hexact : r = n := by
      refine RoundsTo.eq_of_int (n := n) (by simpa using hround) ?_
      rw [Nat.abs_cast]
      exact_mod_cast hn
    rw [← hexact]
    refine represents_pack ?_
    show Stands (UnpackedFloat.normalize Format.binary64 n.toUInt64.toNat 0 .positive) r
    rw [hcast]
    exact hr.stands (hround.abs_lt (by simpa using hsize))
  obtain ⟨r, hr, hround⟩ := hinteger.mul hone (by simpa using hsize)
  have hexact : r = n := by
    refine RoundsTo.eq_of_int (n := n) (by simpa using hround) ?_
    rw [Nat.abs_cast]
    exact_mod_cast hn
  have hofNat : Float.ofNat n = n.toUInt64.toFloat * Float.ofBits 0x3FF0000000000000 :=
    dif_pos ⟨hn, by norm_num⟩
  rwa [hofNat, ← hexact]

/-- Longer natural numbers are rounded, whether or not there is room for them. -/
theorem exists_rounded_ofNat {n : ℕ} (hn : 2 ^ 53 ≤ n) :
    ∃ u r, Float.ofNat n = .ofModel (.pack u) ∧ Rounded u r ∧ RoundsTo n r := by
  have hpos : n ≠ 0 := by omega
  have hroom : (0 : ℤ) ≤ 2 ^ Format.binary64.exponentBits := by positivity
  have hleast : ¬(0 : ℤ) < -(2 ^ Format.binary64.exponentBits + n.log2) := by omega
  have hlarge : Float.ofNat n = .ofModel (.pack (.ofScientific Format.binary64 n 0)) := dif_neg fun h => hn.not_gt h.1
  rw [hlarge, UnpackedFloat.ofScientific, dif_neg hpos, if_neg hroom.not_gt, if_neg hleast, if_pos le_rfl]
  have hbits : Format.binary64.mantissaBits = 53 := rfl
  have hshift : n <<< Format.binary64.mantissaBits = n * 2 ^ 53 := by rw [hbits, Nat.shiftLeft_eq]
  have hvalue : signed .positive ((n <<< Format.binary64.mantissaBits : ℕ) *
      2 ^ (-(Format.binary64.mantissaBits : ℤ))) * signed .positive ((10 ^ (0 : ℤ).toNat : ℕ) * 2 ^ (0 : ℤ)) = n := by
    rw [hshift, hbits, zpow_neg, zpow_natCast]
    norm_num [signed, mul_assoc]
  obtain ⟨r, hr, hround⟩ := Rounded.mul_finite .positive .positive (m := n <<< Format.binary64.mantissaBits)
    (n := 10 ^ (0 : ℤ).toNat) (e := -Format.binary64.mantissaBits) (d := 0)
    (by rw [hshift]; positivity) (by positivity)
    (Or.inl (by rw [hshift]; simp; omega))
  rw [hvalue] at hround
  exact ⟨_, r, rfl, hr, hround⟩

theorem exists_represents_ofNat_of_isFinite {n : ℕ} (hfinite : (Float.ofNat n).isFinite) :
    ∃ r, Represents (Float.ofNat n) r ∧ RoundsTo n r := by
  by_cases hsmall : n < 2 ^ 53
  · have h := represents_ofNat hsmall
    exact ⟨n, h, (represents_iff_stands.1 h).roundsTo_self⟩
  · obtain ⟨u, r, hu, hr, hround⟩ := exists_rounded_ofNat (Nat.le_of_not_lt hsmall)
    rw [hu] at hfinite ⊢
    exact ⟨r, represents_pack_of_isFinite hr hfinite, hround⟩

theorem exists_represents_ofNat {n : ℕ} (hn : (n : ℚ) ≤ largest) :
    ∃ r, Represents (Float.ofNat n) r ∧ RoundsTo n r := by
  by_cases hsmall : n < 2 ^ 53
  · exact exists_represents_ofNat_of_isFinite (represents_ofNat hsmall).isFinite
  · obtain ⟨u, r, hu, hr, hround⟩ := exists_rounded_ofNat (Nat.le_of_not_lt hsmall)
    rw [hu]
    exact ⟨r, represents_pack (hr.stands (hround.abs_lt ((Nat.abs_cast n).trans_le hn))), hround⟩

theorem represents_ofInt {z : ℤ} (hz : |z| < 2 ^ 53) : Represents (Float.ofInt z) z := by
  cases z with
  | ofNat n => exact_mod_cast represents_ofNat (n := n) (by simpa using hz)
  | negSucc n =>
    rw [abs_lt] at hz
    have h : Represents (-Float.ofNat (n + 1)) (-(n + 1 : ℕ)) := (represents_ofNat (by omega)).neg
    rw [Int.cast_negSucc]
    exact h

namespace Binary

theorem numerator_div_denominator (b : Binary) : (b.numerator : ℚ) / b.denominator = b.mantissa * 2 ^ b.exponent := by
  rw [numerator, denominator]
  push_cast
  rcases le_total 0 b.exponent with h | h
  · obtain ⟨k, hk⟩ := Int.eq_ofNat_of_zero_le h
    have hneg : (-(k : ℤ)).toNat = 0 := by omega
    rw [hk, hneg, Int.toNat_natCast, zpow_natCast, pow_zero, div_one]
  · obtain ⟨k, hk⟩ : ∃ k : ℕ, b.exponent = -k := ⟨(-b.exponent).toNat, by omega⟩
    have hnone : (-(k : ℤ)).toNat = 0 := by omega
    rw [hk, hnone, neg_neg, Int.toNat_natCast, zpow_neg, zpow_natCast, pow_zero, mul_one, div_eq_mul_inv]

/-- An integer is its own whole part. -/
theorem truncate_of_value {b : Binary} {z : ℤ} (h : b.value = z) : b.truncate = z := by
  have hpos : (0 : ℚ) < b.denominator := by exact_mod_cast b.denominator_pos
  rw [value, ← numerator_div_denominator] at h
  have hwhole : ∀ z : ℤ, (b.numerator : ℚ) / b.denominator = z → ((b.numerator / b.denominator : ℕ) : ℤ) = z := by
    intro z hz
    rw [div_eq_iff hpos.ne'] at hz
    have hmul : (b.numerator : ℤ) = z * b.denominator := by exact_mod_cast hz
    rw [Int.natCast_div, hmul, Int.mul_ediv_cancel _ (by exact_mod_cast b.denominator_pos.ne')]
  rw [truncate]
  split at h
  · rename_i hneg
    rw [if_pos hneg, hwhole (-z) (by push_cast; linarith), neg_neg]
  · rename_i hpos
    rw [if_neg hpos, hwhole z (by linarith)]

/-- With a negative exponent, the mantissa is the numerator. -/
theorem fraction_of_exponent {b : Binary} (h : ¬0 ≤ b.exponent) : b.numerator = b.mantissa ∧ 2 ≤ b.denominator := by
  rw [numerator, denominator, Int.toNat_of_nonpos (by omega), pow_zero, mul_one]
  exact ⟨rfl, Nat.le_self_pow (by omega) 2⟩

end Binary

theorem mantissa_lt_of_exact {x : Float} {b : Binary} (h : exact x = .finite b) : b.mantissa < 2 ^ 53 := by
  unfold exact at h
  dsimp only at h
  split at h
  · split at h <;> cases h
  · split at h <;> cases h <;> dsimp only <;> omega

/-- A whole number in place of a magnitude, if it is not larger for fractions; the sign stays. -/
theorem Represents.mapMagnitude {f : Bool → ℕ → ℕ → ℕ} {x : Float} {q : ℚ} (h : Represents x q)
    (hf : ∀ negative n d, 2 ≤ d → f negative n d ≤ n) :
    ∃ r, Represents (Binary64.mapMagnitude f x) r ∧ (0 ≤ q → 0 ≤ r) := by
  obtain ⟨b, hb, rfl⟩ := h
  rw [Binary64.mapMagnitude, hb]
  dsimp only
  split
  · exact ⟨b.value, ⟨b, hb, rfl⟩, id⟩
  · rename_i hfraction
    obtain ⟨hnumerator, hdenominator⟩ := Binary.fraction_of_exponent hfraction
    have hle := hf b.negative b.numerator b.denominator hdenominator
    rw [hnumerator] at hle
    have hrepresents := represents_ofNat (hle.trans_lt (mantissa_lt_of_exact hb))
    rw [hnumerator]
    generalize f b.negative b.mantissa b.denominator = k at *
    rw [Binary.value]
    split
    · refine ⟨-k, hrepresents.neg, fun hvalue => ?_⟩
      have hzero : b.mantissa = 0 := by
        by_contra hpos
        have : (0 : ℚ) < b.mantissa * 2 ^ b.exponent := by positivity
        linarith
      rw [hzero] at hle
      rw [Nat.le_zero.1 hle]
      simp
    · exact ⟨k, hrepresents, fun _ => Nat.cast_nonneg k⟩

/-! ## The nearest integer -/

/-- The nearest integer, a half away from zero. -/
def halfAway (q : ℚ) : ℤ := if q < 0 then -round (-q) else round q

theorem halfAway_neg (q : ℚ) : halfAway (-q) = -halfAway q := by
  rcases lt_trichotomy q 0 with hq | rfl | hq
  · rw [halfAway, halfAway, if_neg (by linarith), if_pos hq, neg_neg]
  · simp [halfAway]
  · rw [halfAway, halfAway, if_pos (by linarith), if_neg (by linarith), neg_neg]

theorem abs_halfAway_sub_le (q : ℚ) : |halfAway q - q| ≤ 1 / 2 := by
  rw [abs_sub_comm, halfAway]
  split
  · have hround := abs_sub_round (-q)
    rw [← abs_neg, neg_sub', neg_neg] at hround
    rwa [Int.cast_neg]
  · exact abs_sub_round q

theorem halfAway_eq_of_near {q : ℚ} {z : ℤ} (h : |q - z| < 1 / 2) : halfAway q = z := by
  have hround := abs_halfAway_sub_le q
  have hclose : |(halfAway q : ℚ) - z| < 1 := by
    rw [abs_lt] at h ⊢
    rw [abs_le] at hround
    constructor <;> linarith
  have hlt : |halfAway q - z| < 1 := by exact_mod_cast hclose
  rw [abs_lt] at hlt
  omega

/-- A fraction rounded with a half going up. -/
theorem round_natCast_div (n : ℕ) {d : ℕ} (hd : 0 < d) : round (n / d : ℚ) = ((2 * n + d) / (2 * d) : ℕ) := by
  have hsum : (n / d : ℚ) + 1 / 2 = (2 * n + d : ℕ) / (2 * d : ℕ) := by
    push_cast
    field_simp
  rw [round_eq, hsum]
  exact Rat.floor_natCast_div_natCast _ _

/-- What is an integer for integers and rounds fractions the way magnitudes are rounded is what floats are mapped to. -/
theorem Represents.mapMagnitude_eq {f : Bool → ℕ → ℕ → ℕ} {g : ℚ → ℤ} {x : Float} {q : ℚ} (h : Represents x q)
    (hwhole : ∀ z : ℤ, g z = z) (hle : ∀ negative n d, 2 ≤ d → f negative n d ≤ n)
    (hfraction : ∀ negative (n d : ℕ), 2 ≤ d →
      g ((if negative then -1 else 1) * (n / d)) = (if negative then -1 else 1) * f negative n d) :
    Represents (Binary64.mapMagnitude f x) (g q) := by
  obtain ⟨b, hb, rfl⟩ := h
  rw [Binary64.mapMagnitude, hb]
  dsimp only
  split
  · rename_i hexponent
    obtain ⟨k, hk⟩ := Int.eq_ofNat_of_zero_le hexponent
    obtain ⟨z, hz⟩ : ∃ z : ℤ, b.value = z := by
      refine ⟨(if b.negative then -1 else 1) * (b.mantissa * 2 ^ k), ?_⟩
      rw [Binary.value, hk]
      split <;> simp
    exact ⟨b, hb, by rw [hz, hwhole]⟩
  · rename_i hexponent
    obtain ⟨hnumerator, hdenominator⟩ := Binary.fraction_of_exponent hexponent
    have hsmall := hle b.negative b.numerator b.denominator hdenominator
    rw [hnumerator] at hsmall
    have hrepresents := represents_ofNat (hsmall.trans_lt (mantissa_lt_of_exact hb))
    have hvalue := hfraction b.negative b.numerator b.denominator hdenominator
    rw [b.numerator_div_denominator] at hvalue
    rw [Binary.value, hvalue, hnumerator]
    split
    · push_cast
      rw [neg_one_mul]
      exact hrepresents.neg
    · push_cast
      rw [one_mul]
      exact hrepresents

theorem Represents.nearest {x : Float} {q : ℚ} (h : Represents x q) : Represents (nearest x) (halfAway q) := by
  refine h.mapMagnitude_eq (fun z => halfAway_eq_of_near (by simp)) (fun _ n d hd => ?_) fun negative n d hd => ?_
  · have hle : n * 2 ≤ n * d := Nat.mul_le_mul_left n hd
    rw [Nat.div_le_iff_le_mul (by omega), Nat.mul_left_comm]
    omega
  · have hnonneg : ¬(n / d : ℚ) < 0 := not_lt.2 (by positivity)
    have hround := round_natCast_div n (by omega : 0 < d)
    cases negative with
    | true =>
      rw [if_pos rfl, if_pos rfl, neg_one_mul, neg_one_mul, halfAway_neg, halfAway, if_neg hnonneg, hround]
    | false =>
      rw [if_neg Bool.false_ne_true, if_neg Bool.false_ne_true, one_mul, one_mul, halfAway, if_neg hnonneg, hround]

theorem ceilDiv_le {n d : ℕ} (hd : 0 < d) : ceilDiv n d ≤ n := by
  have hle : n ≤ n * d := Nat.le_mul_of_pos_right n hd
  rw [ceilDiv, Nat.div_le_iff_le_mul hd]
  omega

theorem ceil_natCast_div (n : ℕ) {d : ℕ} (hd : 0 < d) : ⌈(n / d : ℚ)⌉ = ceilDiv n d := by
  have hpos : (0 : ℚ) < d := by exact_mod_cast hd
  have hmod := Nat.div_add_mod (n + d - 1) d
  have hlt := Nat.mod_lt (n + d - 1) hd
  rw [← ceilDiv] at hmod
  have hbelow : d * ceilDiv n d < n + d := by omega
  have habove : n ≤ d * ceilDiv n d := by omega
  rw [Int.ceil_eq_iff, Int.cast_natCast, div_le_iff₀ hpos, lt_div_iff₀ hpos, sub_one_mul, sub_lt_iff_lt_add, mul_comm]
  exact ⟨by exact_mod_cast hbelow, by exact_mod_cast habove⟩

/-- The last integer that is not larger. -/
theorem Represents.floor {x : Float} {q : ℚ} (h : Represents x q) : Represents (floor x) ⌊q⌋ := by
  refine h.mapMagnitude_eq Int.floor_intCast (fun negative n d hd => ?_) fun negative n d hd => ?_
  · split
    · exact ceilDiv_le (by omega)
    · exact Nat.div_le_self n d
  · cases negative with
    | true =>
      rw [if_pos rfl, if_pos rfl, if_pos rfl, neg_one_mul, neg_one_mul, Int.floor_neg, ceil_natCast_div n (by omega)]
    | false =>
      rw [if_neg Bool.false_ne_true, if_neg Bool.false_ne_true, if_neg Bool.false_ne_true, one_mul, one_mul]
      exact Rat.floor_natCast_div_natCast n d

end Spreadsheet.Binary64
