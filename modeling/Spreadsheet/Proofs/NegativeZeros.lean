import Spreadsheet.Proofs.NumberTexts
import Spreadsheet.Proofs.OppositeFloats
import Spreadsheet.Proofs.SignificantDigits

/-!
# Negative zeros

A text shows a negative zero if there is a minus sign in front and no digit but zeros before the exponent. Most codes
take the sign from the number that is left once it is rounded, and a number other than zero that is left makes up more
than half of the last place, so one of its digits is shown. The general format looks at the text, and a code with an
exponent at nothing: it shows the sign of a zero. Where an infinity is left, its sign stands before a word.

* `digitsValue_eq_zero_iff`, `PlainNumeral.IsZero` : numerals of zeros;
* `ShowsNegativeZero`, `NumberText.showsNegativeZero_iff`, `showsNegativeZero_word` : signs before numerals and words;
* `showsNegativeZero_fixed_iff`, `not_showsNegativeZero_general`, `showsNegativeZero_scientific_iff` : the kinds of
  codes;
* `formatNumber_showsNegativeZero_iff` : when a negative zero is shown.
-/

namespace Spreadsheet.Format

open Binary64 (Represents Binary)
open Text (isAsciiDigit dropEndWhile)
open Decimal (digitsOf padded digitsValue)

/-! ## Digits -/

theorem digitsValue_eq_zero_iff {cs : List Char} (h : ∀ c ∈ cs, isAsciiDigit c) :
    digitsValue cs = 0 ↔ ∀ c ∈ cs, c = '0' := by
  have hdigit : ∀ {c : Char}, isAsciiDigit c → (Decimal.digitValue c = 0 ↔ c = '0') := by
    intro c hc
    simp only [isAsciiDigit, Char.le_def, UInt32.le_iff_toNat_le, Bool.and_eq_true, decide_eq_true_eq] at hc
    have hfirst : 48 ≤ c.toNat := hc.1
    refine ⟨fun hzero => ?_, fun h => h ▸ rfl⟩
    have hvalue : c.toNat - 48 = 0 := hzero
    exact Char.toNat_inj.1 (show c.toNat = 48 by omega)
  induction cs using List.reverseRecOn with
  | nil => simp [digitsValue]
  | append_singleton cs c ih =>
    have hcs : digitsValue cs = 0 ↔ ∀ d ∈ cs, d = '0' := ih fun d hd => h d (List.mem_append_left _ hd)
    have hstep : digitsValue (cs ++ [c]) = 10 * digitsValue cs + Decimal.digitValue c := by
      rw [digitsValue, List.foldl_append]
      rfl
    rw [hstep, List.forall_mem_append, List.forall_mem_singleton, ← hcs, ← hdigit (h c (by simp))]
    omega

namespace PlainNumeral

variable {p : PlainNumeral}

/-- There are only zeros. -/
def IsZero (p : PlainNumeral) : Prop := ∀ c ∈ p.whole ++ p.fraction, c = '0'

theorem isZero_fixed_iff {n places : ℕ} : (fixed n places).IsZero ↔ n = 0 := by
  have hwhole := digitsValue_eq_zero_iff (fixed n places).whole_digits
  have hfraction := digitsValue_eq_zero_iff (fixed n places).fraction_digits
  rw [IsZero, List.forall_mem_append, ← hwhole, ← hfraction]
  show digitsValue (digitsOf (n / 10 ^ places)) = 0 ∧
    digitsValue (if places = 0 then [] else padded places (n % 10 ^ places)) = 0 ↔ _
  rw [Decimal.digitsValue_digitsOf]
  split
  · rename_i hnone
    simp [hnone, digitsValue]
  · rw [Calendar.digitsValue_padded]
    have hparts := Nat.div_add_mod n (10 ^ places)
    constructor
    · rintro ⟨hquotient, hremainder⟩
      rw [← hparts, hquotient, hremainder, mul_zero]
    · rintro rfl
      exact ⟨Nat.zero_div _, Nat.zero_mod _⟩

/-- Only zeros are trimmed. -/
theorem isZero_trimmed_iff : p.trimmed.IsZero ↔ p.IsZero := by
  have hdropped : (∀ c ∈ dropEndWhile (· == '0') p.fraction, c = '0') ↔ ∀ c ∈ p.fraction, c = '0' := by
    have hrun : ∀ c ∈ p.fraction.reverse.takeWhile (· == '0'), c = '0' := fun _ hc =>
      beq_iff_eq.1 (List.mem_takeWhile_imp (p := (· == '0')) hc)
    have hreverse : ∀ cs : List Char, (∀ c ∈ cs.reverse, c = '0') ↔ ∀ c ∈ cs, c = '0' := fun cs =>
      forall_congr' fun c => imp_congr_left List.mem_reverse
    calc (∀ c ∈ (p.fraction.reverse.dropWhile (· == '0')).reverse, c = '0')
        ↔ ∀ c ∈ p.fraction.reverse.dropWhile (· == '0'), c = '0' := hreverse _
      _ ↔ ∀ c ∈ p.fraction.reverse.takeWhile (· == '0') ++ p.fraction.reverse.dropWhile (· == '0'), c = '0' := by
          rw [List.forall_mem_append]
          exact (and_iff_right hrun).symm
      _ ↔ ∀ c ∈ p.fraction, c = '0' := by
          rw [List.takeWhile_append_dropWhile]
          exact hreverse _
  rw [IsZero, IsZero, List.forall_mem_append, List.forall_mem_append]
  exact and_congr_right fun _ => hdropped

/-- Grouping and the point add no digit, and leave none out. -/
theorem mem_chars_iff {grouped : Bool} {c : Char} (hc : isAsciiDigit c) :
    c ∈ p.chars grouped ↔ c ∈ p.whole ++ p.fraction := by
  have hwhole : c ∈ (if grouped then groupDigits p.whole else p.whole) ↔ c ∈ p.whole := by
    split
    · exact ⟨fun h => (mem_groupDigits h).resolve_left (ne_of_isAsciiDigit hc (by decide)),
        fun h => subset_groupDigits _ h⟩
    · exact Iff.rfl
  have hfraction : c ∈ pointed p.fraction ↔ c ∈ p.fraction := by
    refine ⟨fun h => (mem_pointed h).resolve_left (ne_of_isAsciiDigit hc (by decide)), fun h => ?_⟩
    obtain ⟨d, ds, hcons⟩ := List.exists_cons_of_ne_nil (List.ne_nil_of_mem h)
    rw [hcons] at h ⊢
    exact List.mem_cons_of_mem _ h
  rw [chars, List.mem_append, List.mem_append, hwhole, hfraction]

end PlainNumeral

/-! ## Signs before zeros -/

/-- A minus sign in front, and no digit but zeros before the exponent. -/
def ShowsNegativeZero (cs : List Char) : Prop :=
  cs.head? = some '-' ∧ ∀ c ∈ cs.takeWhile (· != 'E'), isAsciiDigit c → c = '0'

instance : DecidablePred ShowsNegativeZero := fun cs =>
  @instDecidableAnd (cs.head? = some '-') _ inferInstance
    (List.decidableBAll (fun c => isAsciiDigit c → c = '0') (cs.takeWhile (· != 'E')))

namespace NumberText

variable (t : NumberText)

/-- What stands between the sign and the exponent. -/
def front : List Char := (if t.currency then ['$'] else []) ++ t.toPlainNumeral.chars t.grouped

theorem mem_front {c : Char} (h : c ∈ t.front) : c = '$' ∨ c = ',' ∨ c = '.' ∨ isAsciiDigit c := by
  rcases List.mem_append.1 h with h | h
  · split at h
    · exact Or.inl (List.mem_singleton.1 h)
    · cases h
  · exact Or.inr (PlainNumeral.mem_chars h)

theorem front_ne_nil : t.front ≠ [] := by
  have hfirst := List.head_mem t.whole_ne_nil
  have hmem : t.whole.head t.whole_ne_nil ∈ t.toPlainNumeral.chars t.grouped :=
    (PlainNumeral.mem_chars_iff (t.whole_digits _ hfirst)).2 (List.mem_append_left t.fraction hfirst)
  exact List.ne_nil_of_mem (List.mem_append_right _ hmem)

theorem chars_eq : t.chars = signed t.negative t.front ++
    (t.exponent.elim [] (joinExponent []) ++ if t.percent then ['%'] else []) := by
  rw [chars, List.append_assoc, signed_append]
  rfl

/-- A minus sign in front is that of the number. -/
theorem head?_chars_iff : t.chars.head? = some '-' ↔ t.negative := by
  rw [chars_eq]
  cases t.negative with
  | true => exact iff_of_true rfl rfl
  | false =>
    refine iff_of_false (fun h => ?_) Bool.false_ne_true
    obtain ⟨c, cs, hfront⟩ := List.exists_cons_of_ne_nil t.front_ne_nil
    have hmem : c ∈ t.front := hfront ▸ List.mem_cons_self
    rw [signed, if_neg Bool.false_ne_true, hfront] at h
    obtain rfl : c = '-' := Option.some_inj.1 h
    have := t.mem_front hmem
    revert this
    decide

/-- The digits before the exponent are those of the numeral. -/
theorem mem_takeWhile_iff {c : Char} (hc : isAsciiDigit c) :
    c ∈ t.chars.takeWhile (· != 'E') ↔ c ∈ t.whole ++ t.fraction := by
  have hfront : ∀ d ∈ signed t.negative t.front, (d != 'E') = true := by
    intro d hd
    rw [bne_iff_ne]
    rintro rfl
    rcases mem_signed hd with hd | hd
    · revert hd
      decide
    · have := t.mem_front hd
      revert this
      decide
  have hback : c ∉ (t.exponent.elim [] (joinExponent []) ++ if t.percent then ['%'] else []).takeWhile (· != 'E') := by
    cases t.exponent with
    | none =>
      intro h
      have h := (List.takeWhile_sublist _).subset h
      rw [Option.elim_none, List.nil_append] at h
      split at h
      · exact ne_of_isAsciiDigit hc (by decide) (List.mem_singleton.1 h)
      · cases h
    | some e => exact List.not_mem_nil
  have hsigned : c ∈ signed t.negative t.front ↔ c ∈ t.front := by
    cases t.negative with
    | true => exact List.mem_cons.trans (or_iff_right (ne_of_isAsciiDigit hc (by decide)))
    | false => exact Iff.rfl
  have hsymbol : c ∉ (if t.currency then ['$'] else []) := by
    split
    · exact fun h => ne_of_isAsciiDigit hc (by decide) (List.mem_singleton.1 h)
    · exact List.not_mem_nil
  rw [chars_eq, List.takeWhile_append_of_pos hfront, List.mem_append, or_iff_left hback, hsigned, front,
    List.mem_append, or_iff_right hsymbol, PlainNumeral.mem_chars_iff hc]

/-- A text of a number shows a negative zero if there is a sign, and only zeros. -/
theorem showsNegativeZero_iff :
    ShowsNegativeZero t.chars ↔ t.negative ∧ t.toPlainNumeral.IsZero := by
  rw [ShowsNegativeZero, t.head?_chars_iff]
  refine and_congr_right fun _ => ⟨fun h c hc => ?_, fun h c hc hdigit => h c ((t.mem_takeWhile_iff hdigit).1 hc)⟩
  have hdigit : isAsciiDigit c := (List.mem_append.1 hc).elim (t.whole_digits c) (t.fraction_digits c)
  exact h c ((t.mem_takeWhile_iff hdigit).2 hc) hdigit

end NumberText

/-- A word has no digits, so a sign is all it takes. -/
theorem showsNegativeZero_word {cs : List Char} (hhead : cs.head? ≠ some '-')
    (hdigits : cs.any isAsciiDigit = false) (negative : Bool) : ShowsNegativeZero (signed negative cs) ↔ negative := by
  cases negative with
  | true =>
    refine iff_of_true ⟨rfl, fun c hc hdigit => ?_⟩ rfl
    rcases mem_signed ((List.takeWhile_sublist _).subset hc) with rfl | hc
    · cases hdigit
    · exact absurd hdigit (List.any_eq_false.1 hdigits c hc)
  | false => exact iff_of_false (fun h => hhead h.1) nofun

/-! ## Kinds of codes

### Decimal places -/

variable {value x : Float} {d : ℕ} {code : String}

/-- A number less than zero at decimal places has a digit there that is not zero. -/
theorem toPlaces_pos_of_lt_zero {b : Binary} (hb : Binary64.exact (roundHalfAway x d).abs = .finite b)
    (hnegative : roundHalfAway x d < 0.0) : 0 < Decimal.toPlaces b.numerator b.denominator d := by
  have hunsigned := (Binary64.unsigned_iff_negative hb).1 (Binary64.unsigned_abs _)
  have habs : (roundHalfAway x d).abs.isFinite := Represents.isFinite ⟨b, hb, rfl⟩
  obtain ⟨r, hr⟩ := Binary64.exists_represents (Binary64.isFinite_abs.symm.trans habs)
  have hlt : r < 0 := (hr.lt_iff Binary64.represents_zero).1 hnegative
  have hvalue : b.value = |r| := Represents.unique ⟨b, hb, rfl⟩ hr.abs
  refine Decimal.toPlaces_pos b.denominator_pos ?_
  rw [Binary64.Binary.numerator_div_denominator]
  rw [Binary.value, hunsigned, if_neg Bool.false_ne_true, one_mul] at hvalue
  rw [hvalue]
  exact half_lt_of_roundHalfAway hr hlt.ne

theorem chars_marked (p : PlainNumeral) (negative currency grouped percent : Bool) :
    NumberText.chars ⟨p, negative, currency, grouped, none, percent⟩ =
      marked negative currency percent (p.chars grouped) := by
  simp [NumberText.chars, marked]

/-- The magnitude of a rounded number has no sign of its own. -/
theorem formatFixedChars_eq_signed (x : Float) (d : ℕ) (thousands : Bool) :
    formatFixedChars x d thousands =
      signed (decide (roundHalfAway x d < 0.0)) (formatFixedChars x.abs d thousands) := by
  rw [formatFixedChars, formatFixedChars, decide_roundHalfAway_abs_lt, abs_roundHalfAway_abs]
  rfl

theorem toList_formatFixed (x : Float) (d : ℕ) (thousands : Bool) : (formatFixed x d thousands).toList =
    marked (decide (roundHalfAway x d < 0.0)) false false (formatFixedChars x.abs d thousands) := by
  rw [formatFixed, String.toList_ofList, formatFixedChars_eq_signed]
  exact congrArg (signed _) (List.append_nil _).symm

theorem toList_formatCurrency (x : Float) (d : ℕ) (thousands : Bool) : (formatCurrency x d thousands).toList =
    marked (decide (roundHalfAway x d < 0.0)) true false (formatFixedChars x.abs d thousands) := by
  rw [formatCurrency, String.toList_ofList]
  exact congrArg (signed _) (List.append_nil _).symm

theorem toList_formatPercent (x : Float) (d : ℕ) (thousands : Bool) : (formatPercent x d thousands).toList =
    marked (decide (roundHalfAway (x * 100.0) d < 0.0)) false true (formatFixedChars (x * 100.0).abs d thousands) := by
  rw [formatPercent, String.toList_ofList, formatFixedChars_eq_signed, ← signed_append]
  rfl

theorem not_showsNegativeZero_fixed (hfinite : (roundHalfAway x d).isFinite) (thousands currency percent : Bool) :
    ¬ShowsNegativeZero
      (marked (decide (roundHalfAway x d < 0.0)) currency percent (formatFixedChars x.abs d thousands)) := by
  obtain ⟨q, b, hb, -⟩ := Binary64.exists_represents (Binary64.isFinite_abs.trans hfinite)
  have htext := formatFixedChars_of_exact ((abs_roundHalfAway_abs x d).symm ▸ hb) thousands
  rw [htext, decide_roundHalfAway_abs_lt, signed, if_neg Bool.false_ne_true, ← chars_marked,
    NumberText.showsNegativeZero_iff]
  rintro ⟨hnegative, hzero⟩
  exact (toPlaces_pos_of_lt_zero hb (of_decide_eq_true hnegative)).ne' (PlainNumeral.isZero_fixed_iff.1 hzero)

theorem showsNegativeZero_fixed_iff_of_not_finite (hfinite : (roundHalfAway x d).isFinite = false)
    (thousands currency percent : Bool) : ShowsNegativeZero
      (marked (decide (roundHalfAway x d < 0.0)) currency percent (formatFixedChars x.abs d thousands)) ↔
        Binary64.exact (roundHalfAway x d) = .infinite true := by
  have habs : (roundHalfAway x.abs d).isFinite = false := by
    rw [← Binary64.isFinite_abs, abs_roundHalfAway_abs, Binary64.isFinite_abs, hfinite]
  obtain ⟨word, hmem, hword⟩ := formatFixedChars_of_not_finite habs thousands
  have hmarks : ∀ word ∈ [infinityText, nanText], ∀ currency percent : Bool,
      (marked false currency percent word).head? ≠ some '-' ∧
        (marked false currency percent word).any isAsciiDigit = false := by decide
  obtain ⟨hhead, hdigits⟩ := hmarks word hmem currency percent
  rw [hword, decide_roundHalfAway_abs_lt]
  exact (showsNegativeZero_word hhead hdigits _).trans
    (decide_eq_true_iff.trans (Binary64.lt_zero_iff_of_not_finite hfinite))

/-- The sign of a number rounded at decimal places stands before a magnitude with a digit that is not zero, unless it
is infinite. -/
theorem showsNegativeZero_fixed_iff (x : Float) (d : ℕ) (thousands currency percent : Bool) : ShowsNegativeZero
      (marked (decide (roundHalfAway x d < 0.0)) currency percent (formatFixedChars x.abs d thousands)) ↔
        Binary64.exact (roundHalfAway x d) = .infinite true := by
  cases hfinite : (roundHalfAway x d).isFinite with
  | true =>
    refine iff_of_false (not_showsNegativeZero_fixed hfinite thousands currency percent) fun hinfinite => ?_
    obtain ⟨q, b, hb, -⟩ := Binary64.exists_represents hfinite
    cases hb.symm.trans hinfinite
  | false => exact showsNegativeZero_fixed_iff_of_not_finite hfinite ..

/-! ### The general format -/

variable {b : Binary}

theorem not_showsNegativeZero_shortScientific (hmantissa : b.mantissa ≠ 0) :
    ¬ShowsNegativeZero (shortScientific b) := by
  obtain ⟨n, hn, hzero⟩ := scientificParts_fst b 5
  show ¬ShowsNegativeZero (joinExponent (trimPlaces (scientificParts b 5).1) (scientificParts b 5).2)
  rw [hn, trimPlaces_signed _ (Calendar.padded_ne_nil 5 _), ← chars_joinExponent, NumberText.showsNegativeZero_iff]
  rintro ⟨-, htrimmed⟩
  exact hmantissa (hzero.1 (PlainNumeral.isZero_fixed_iff.1 (PlainNumeral.isZero_trimmed_iff.1 htrimmed)))

theorem not_showsNegativeZero_whole (hb : Binary64.exact value = .finite b) (hmantissa : b.mantissa ≠ 0)
    (hwhole : b.isWhole) : ¬ShowsNegativeZero (exactPlaces value 0) := by
  rw [exactPlaces_of_exact hb, ← chars_signed, NumberText.showsNegativeZero_iff]
  rintro ⟨-, hzero⟩
  have hdvd : b.denominator ∣ b.numerator := Nat.dvd_of_mod_eq_zero (beq_iff_eq.1 hwhole)
  have hnumerator : 0 < b.numerator := Nat.mul_pos (Nat.pos_of_ne_zero hmantissa) (Nat.two_pow_pos _)
  have hle := Nat.le_of_dvd hnumerator hdvd
  refine (Decimal.roundEven_pos ?_).ne' (PlainNumeral.isZero_fixed_iff.1 hzero)
  omega

/-- What is left of a small number at ten places is compared with the one text that shows a negative zero. -/
theorem eq_of_showsNegativeZero_trimPlaces (hb : Binary64.exact value = .finite b)
    (h : ShowsNegativeZero (trimPlaces (exactPlaces value 10))) : trimPlaces (exactPlaces value 10) = ['-', '0'] := by
  have htext : trimPlaces (exactPlaces value 10) = signed b.negative
      ((PlainNumeral.fixed (Decimal.toPlaces b.numerator b.denominator 10) 10).trimmed.chars false) := by
    rw [exactPlaces_of_exact hb, trimPlaces_signed _ (Calendar.padded_ne_nil 10 _)]
  rw [htext, ← chars_signed, NumberText.showsNegativeZero_iff] at h
  have hnegative : b.negative = true := h.1
  have hplaces := PlainNumeral.isZero_fixed_iff.1 (PlainNumeral.isZero_trimmed_iff.1 h.2)
  rw [htext, hnegative, hplaces]
  decide +kernel

/-- The general format shows no zero with a sign. -/
theorem not_showsNegativeZero_general (hvalue : value.isFinite) : ¬ShowsNegativeZero (formatGeneral value).toList := by
  obtain ⟨q, b, hb, -⟩ := Binary64.exists_represents hvalue
  have hzero : ¬ShowsNegativeZero "0".toList := by decide
  rw [formatGeneral, hb]
  dsimp only
  split
  · exact hzero
  · rename_i hnonzero
    have hmantissa : b.mantissa ≠ 0 := by
      intro hmantissa
      rcases (Binary64.zero_iff_of_exact hb).1.1 hmantissa with rfl | rfl
      · exact hnonzero rfl
      · exact hnonzero rfl
    split
    · rw [String.toList_ofList]
      exact not_showsNegativeZero_shortScientific hmantissa
    · split
      · rename_i hwhole
        rw [String.toList_ofList]
        exact not_showsNegativeZero_whole hb hmantissa hwhole
      · split
        · exact hzero
        · rename_i hother
          rw [String.toList_ofList]
          exact fun h => hother (beq_iff_eq.2 (eq_of_showsNegativeZero_trimPlaces hb h))

/-! ### Exponents -/

/-- An exponent is shown with the sign of a zero. -/
theorem showsNegativeZero_scientific_iff (hvalue : value.isFinite) (places : ℕ) :
    ShowsNegativeZero (formatScientific value places).toList ↔ value = -0.0 := by
  obtain ⟨q, b, hb, -⟩ := Binary64.exists_represents hvalue
  obtain ⟨n, hn, hzero⟩ := scientificParts_fst b places
  rw [formatScientific, String.toList_ofList, exactScientific, hb]
  show ShowsNegativeZero (joinExponent (scientificParts b places).1 (scientificParts b places).2) ↔ _
  rw [hn, ← chars_joinExponent, NumberText.showsNegativeZero_iff, ← (Binary64.zero_iff_of_exact hb).2, ← hzero,
    and_comm]
  exact and_congr_left' PlainNumeral.isZero_fixed_iff

/-! ## Codes -/

/-- The float whose sign a code shows. -/
def signFloat (value : Float) (code : String) : Float :=
  match codeKind (shownSection code) with
  | .currency | .fixed => roundHalfAway value (shownPlaces code)
  | .percent => roundHalfAway (value * 100.0) (shownPlaces code)
  | _ => value

/-- The sign is that of the magnitude shown. -/
theorem isFinite_signFloat (value : Float) (code : String) :
    (signFloat value code).isFinite = (shownFloat value code).isFinite := by
  unfold signFloat shownFloat
  cases codeKind (shownSection code) with
  | currency =>
    show (roundHalfAway value _).isFinite = (roundHalfAway value.abs _).isFinite
    rw [← Binary64.isFinite_abs, ← abs_roundHalfAway_abs, Binary64.isFinite_abs]
  | _ => rfl

/-- A finite number shows by a code without date fields as a negative zero, with a minus sign and no digit but zeros
before the exponent, just if it is the negative zero and the code has an exponent, or if what its sign is taken from,
the number, or a hundred times it, rounded at the decimal places of the code, is the negative infinity. The latter takes
more than 308 places, or a number that is more than `2 ^ 1000` once it is scaled by as many powers of ten. -/
theorem formatNumber_showsNegativeZero_iff {q : ℚ} (hvalue : Represents value q)
    (hkind : codeKind (shownSection code) ≠ .date) :
    (ShowsNegativeZero (formatNumber value code).toList ↔
      codeKind (shownSection code) = .scientific ∧ value = -0.0 ∨
        Binary64.exact (signFloat value code) = .infinite true) ∧
      (shownPlaces code ≤ 308 → |q| * 10 ^ shownPlaces code ≤ 2 ^ 1000 → (signFloat value code).isFinite) := by
  refine ⟨?_, fun hplaces hsize => (isFinite_signFloat value code).trans (isFinite_shownFloat hvalue hplaces hsize)⟩
  obtain ⟨thousands, htext⟩ := formatNumber_of_isFinite hvalue.isFinite code
  have hfinite : Binary64.exact value ≠ .infinite true := by
    intro hinfinite
    obtain ⟨b, hb, -⟩ := hvalue
    cases hb.symm.trans hinfinite
  have hother : ∀ {kind : CodeKind} {p q : Prop}, kind ≠ .scientific → (kind = .scientific ∧ p ∨ q ↔ q) :=
    fun hkind => or_iff_right fun h => hkind h.1
  rw [htext]
  unfold signFloat
  cases hshown : codeKind (shownSection code) with
  | general =>
    refine iff_of_false (not_showsNegativeZero_general hvalue.isFinite) ?_
    rintro (⟨h, -⟩ | h)
    · cases h
    · exact hfinite h
  | date => exact absurd hshown hkind
  | scientific =>
    refine (showsNegativeZero_scientific_iff hvalue.isFinite _).trans ⟨fun h => Or.inl ⟨rfl, h⟩, ?_⟩
    rintro (⟨-, h⟩ | h)
    · exact h
    · exact absurd h hfinite
  | currency =>
    rw [toList_formatCurrency]
    exact (showsNegativeZero_fixed_iff ..).trans (hother (by decide)).symm
  | percent =>
    rw [toList_formatPercent]
    exact (showsNegativeZero_fixed_iff ..).trans (hother (by decide)).symm
  | fixed =>
    rw [toList_formatFixed]
    exact (showsNegativeZero_fixed_iff ..).trans (hother (by decide)).symm

/-- A quarter of a dollar less than nothing is nothing in whole dollars. -/
theorem formatNumber_showsNegativeZero_quarter :
    Represents (-0.25) (-1 / 4) ∧ codeKind (shownSection "$0") ≠ .date ∧ formatNumber (-0.25) "$0" = "$0" ∧
      ¬ShowsNegativeZero (formatNumber (-0.25) "$0").toList := by
  have hvalue : Represents (-0.25) (-1 / 4) := ⟨⟨true, 2 ^ 52, -54⟩, rfl, by norm_num [Binary.value]⟩
  have hkind : codeKind (shownSection "$0") = .currency := by decide +kernel
  have hdate : codeKind (shownSection "$0") ≠ .date := by decide +kernel
  have hplaces : shownPlaces "$0" = 0 := by decide +kernel
  obtain ⟨hshows, hfinite⟩ := formatNumber_showsNegativeZero_iff hvalue hdate
  refine ⟨hvalue, hdate, by decide +kernel, fun h => ?_⟩
  rcases hshows.1 h with ⟨hscientific, -⟩ | hinfinite
  · cases hkind.symm.trans hscientific
  · have hsize : |(-1 / 4 : ℚ)| * 10 ^ 0 ≤ 2 ^ 1000 :=
      calc |(-1 / 4 : ℚ)| * 10 ^ 0 ≤ 1 := by norm_num [abs_of_neg]
        _ ≤ 2 ^ 1000 := one_le_pow₀ one_le_two
    rw [hplaces] at hfinite
    obtain ⟨r, b, hb, -⟩ := Binary64.exists_represents (hfinite (Nat.zero_le 308) hsize)
    cases hb.symm.trans hinfinite

/-- A zero keeps its sign before an exponent, and an infinite percentage has one before a word. -/
theorem formatNumber_negativeZero :
    (-0.0 : Float).isFinite ∧ codeKind (shownSection "0.00E+00") = .scientific ∧
      formatNumber (-0.0) "0.00E+00" = "-0.00E+00" ∧ ShowsNegativeZero (formatNumber (-0.0) "0.00E+00").toList ∧
      (-1e308 : Float).isFinite ∧ codeKind (shownSection "0%") = .percent ∧
      formatNumber (-1e308) "0%" = "-inf%" ∧ ShowsNegativeZero (formatNumber (-1e308) "0%").toList := by
  refine ⟨?_, ?_, ?_, ?_, ?_, ?_, ?_, ?_⟩ <;> decide +kernel

end Spreadsheet.Format
