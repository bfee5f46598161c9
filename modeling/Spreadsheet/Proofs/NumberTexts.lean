import Spreadsheet.Proofs.DateLayouts
import Spreadsheet.Proofs.RoundedFloats
import Spreadsheet.Proofs.SignificantDigits

/-!
# The texts of numbers

A code without date fields shows a finite number as digits with what may go with them: a sign, a currency symbol,
commas between the thousands, a point, an exponent and a percent sign. Only the number itself is looked at, and not
what is left of it once it is scaled and rounded: where that is infinite or no number, the text says so in letters.

* `PlainNumeral`, `NumberText` : the parts of such a text, and its characters;
* `isNumberText_general`, `isNumberText_scientific` : texts that never fail;
* `formatFixedChars_eq`, `namesNoNumber_formatFixedChars` : texts with a fixed count of places;
* `formatNumber_isNumberText_iff` : when a text is one of a number.
-/

namespace Spreadsheet.Format

open Binary64 (Represents Binary)
open Text (isAsciiDigit dropEndWhile)
open Decimal (digitsOf padded fixedPoint)

/-! ## Parts -/

/-- Digits, and the digits after a point. -/
structure PlainNumeral where
  whole : List Char
  fraction : List Char
  whole_ne_nil : whole ≠ []
  whole_digits : ∀ c ∈ whole, isAsciiDigit c
  fraction_digits : ∀ c ∈ fraction, isAsciiDigit c

/-- A point and what follows it. -/
def pointed : List Char → List Char
  | [] => []
  | c :: cs => '.' :: c :: cs

namespace PlainNumeral

/-- The characters, with commas between the thousands if asked for. -/
def chars (p : PlainNumeral) (grouped : Bool) : List Char :=
  (if grouped then groupDigits p.whole else p.whole) ++ pointed p.fraction

/-- A count of `10 ^ -places`. -/
def fixed (n places : ℕ) : PlainNumeral where
  whole := digitsOf (n / 10 ^ places)
  fraction := if places = 0 then [] else padded places (n % 10 ^ places)
  whole_ne_nil := Nat.toDigits_ne_nil
  whole_digits _ hc := Decimal.isAsciiDigit_of_mem hc
  fraction_digits c hc := by
    split at hc
    · cases hc
    · exact Calendar.isAsciiDigit_of_mem_padded hc

/-- The same without the zeros at the end of the fraction. -/
def trimmed (p : PlainNumeral) : PlainNumeral where
  whole := p.whole
  fraction := dropEndWhile (· == '0') p.fraction
  whole_ne_nil := p.whole_ne_nil
  whole_digits := p.whole_digits
  fraction_digits c hc := p.fraction_digits c (by
    rw [dropEndWhile, List.mem_reverse] at hc
    exact List.mem_reverse.1 ((List.dropWhile_sublist _).subset hc))

end PlainNumeral

/-- Digits or a word with a sign and the marks of a code. -/
def marked (negative currency percent : Bool) (cs : List Char) : List Char :=
  signed negative ((if currency then ['$'] else []) ++ cs ++ if percent then ['%'] else [])

/-- The parts of a number as sheets show it. -/
structure NumberText extends PlainNumeral where
  negative : Bool
  currency : Bool
  grouped : Bool
  exponent : Option ℤ
  percent : Bool

namespace NumberText

/-- The sign of the number comes first, and its exponent after all digits. -/
def chars (t : NumberText) : List Char :=
  signed t.negative ((if t.currency then ['$'] else []) ++ t.toPlainNumeral.chars t.grouped ++
    t.exponent.elim [] (joinExponent []) ++ if t.percent then ['%'] else [])

end NumberText

/-- What is made only of the parts of a number. -/
def IsNumberText (cs : List Char) : Prop := ∃ t : NumberText, t.chars = cs

/-- A text that has one of the words for what has no digits. -/
def NamesNoNumber (cs : List Char) : Prop := infinityText <:+: cs ∨ nanText <:+: cs

/-! ### Characters -/

theorem ne_of_isAsciiDigit {c d : Char} (hc : isAsciiDigit c) (hd : isAsciiDigit d = false) : c ≠ d := by
  rintro rfl
  rw [hd] at hc
  cases hc

theorem mem_groupDigits {c : Char} {cs : List Char} (h : c ∈ groupDigits cs) : c = ',' ∨ c ∈ cs := by
  induction cs with
  | nil => exact Or.inr h
  | cons d cs ih =>
    rw [groupDigits] at h
    split at h
    · rcases List.mem_cons.1 h with rfl | h
      · exact Or.inr List.mem_cons_self
      · rcases List.mem_cons.1 h with rfl | h
        · exact Or.inl rfl
        · exact (ih h).imp_right (List.mem_cons_of_mem d)
    · rcases List.mem_cons.1 h with rfl | h
      · exact Or.inr List.mem_cons_self
      · exact (ih h).imp_right (List.mem_cons_of_mem d)

theorem subset_groupDigits (cs : List Char) : cs ⊆ groupDigits cs := by
  induction cs with
  | nil => exact List.nil_subset _
  | cons d cs ih =>
    rw [groupDigits]
    split
    · exact List.cons_subset_cons d fun c hc => List.mem_cons_of_mem ',' (ih hc)
    · exact List.cons_subset_cons d ih

theorem mem_signed {negative : Bool} {c : Char} {cs : List Char} (h : c ∈ signed negative cs) : c = '-' ∨ c ∈ cs := by
  cases negative
  · exact Or.inr h
  · exact List.mem_cons.1 h

/-- Digits, and the marks that go with them. -/
def isNumberChar (c : Char) : Bool := isAsciiDigit c || ['-', '$', ',', '.', 'E', '+', '%'].contains c

theorem isNumberChar_of_isAsciiDigit {c : Char} (h : isAsciiDigit c) : isNumberChar c := by
  rw [isNumberChar, h, Bool.true_or]

theorem mem_pointed {c : Char} {cs : List Char} (h : c ∈ pointed cs) : c = '.' ∨ c ∈ cs := by
  cases cs with
  | nil => cases h
  | cons d cs => exact List.mem_cons.1 h

theorem PlainNumeral.mem_chars {p : PlainNumeral} {grouped : Bool} {c : Char} (h : c ∈ p.chars grouped) :
    c = ',' ∨ c = '.' ∨ isAsciiDigit c := by
  rcases List.mem_append.1 h with h | h
  · split at h
    · exact (mem_groupDigits h).imp_right fun hc => Or.inr (p.whole_digits c hc)
    · exact Or.inr (Or.inr (p.whole_digits c h))
  · exact Or.inr ((mem_pointed h).imp_right (p.fraction_digits c))

theorem PlainNumeral.isNumberChar_of_mem {p : PlainNumeral} {grouped : Bool} {c : Char} (h : c ∈ p.chars grouped) :
    isNumberChar c := by
  rcases p.mem_chars h with rfl | rfl | hdigit
  · decide
  · decide
  · exact isNumberChar_of_isAsciiDigit hdigit

theorem isNumberChar_of_mem_exponent {e : ℤ} {c : Char} (h : c ∈ joinExponent [] e) : isNumberChar c := by
  rw [joinExponent, List.nil_append, List.mem_cons, List.mem_cons] at h
  rcases h with rfl | rfl | h
  · decide
  · split <;> decide
  · exact isNumberChar_of_isAsciiDigit (Calendar.isAsciiDigit_of_mem_padded h)

theorem NumberText.isNumberChar_of_mem {t : NumberText} {c : Char} (h : c ∈ t.chars) : isNumberChar c := by
  have hmark : ∀ {b : Bool} {m : Char}, isNumberChar m → c ∈ (if b then [m] else []) → isNumberChar c := by
    intro b m hm hc
    split at hc
    · rwa [List.mem_singleton.1 hc]
    · cases hc
  rcases mem_signed h with rfl | h
  · decide
  simp only [List.mem_append] at h
  rcases h with ((h | h) | h) | h
  · exact hmark (by decide) h
  · exact PlainNumeral.isNumberChar_of_mem h
  · cases hexponent : t.exponent with
    | none =>
      rw [hexponent] at h
      cases h
    | some e =>
      rw [hexponent] at h
      exact isNumberChar_of_mem_exponent h
  · exact hmark (by decide) h

/-- So there are no words in such a text. -/
theorem IsNumberText.not_namesNoNumber {cs : List Char} (h : IsNumberText cs) : ¬NamesNoNumber cs := by
  obtain ⟨t, rfl⟩ := h
  rintro (hword | hword)
  · have := t.isNumberChar_of_mem (hword.subset (by decide : 'n' ∈ infinityText))
    revert this
    decide
  · have := t.isNumberChar_of_mem (hword.subset (by decide : 'N' ∈ nanText))
    revert this
    decide

/-- Words stay in longer texts. -/
theorem NamesNoNumber.append {cs : List Char} (h : NamesNoNumber cs) (front back : List Char) :
    NamesNoNumber (front ++ cs ++ back) :=
  h.imp (·.trans (List.infix_append front cs back)) (·.trans (List.infix_append front cs back))

theorem NamesNoNumber.signed {cs : List Char} (h : NamesNoNumber cs) (negative : Bool) :
    NamesNoNumber (signed negative cs) := by
  cases negative
  · exact h
  · exact List.append_nil cs ▸ h.append ['-'] []

/-! ## Digits of floats -/

variable {x value : Float} {b : Binary} {n places decimals : ℕ} {negative thousands : Bool}

theorem fixedPoint_eq (n places : ℕ) : fixedPoint n places = (PlainNumeral.fixed n places).chars false := by
  rw [fixedPoint, PlainNumeral.chars]
  simp only [PlainNumeral.fixed]
  split
  · rename_i hnone
    rw [hnone, pow_zero, Nat.div_one]
    exact (List.append_nil _).symm
  · obtain ⟨c, cs, hpadded⟩ := List.exists_cons_of_ne_nil (Calendar.padded_ne_nil places (n % 10 ^ places))
    rw [hpadded]
    rfl

theorem exactPlaces_of_exact (h : Binary64.exact x = .finite b) (places : ℕ) :
    exactPlaces x places = signed b.negative
      ((PlainNumeral.fixed (Decimal.toPlaces b.numerator b.denominator places) places).chars false) := by
  rw [exactPlaces, h]
  exact congrArg (signed b.negative) (fixedPoint_eq _ _)

/-- The digits of the mantissa are zeros for zero only. -/
theorem scientificParts_fst (b : Binary) (places : ℕ) :
    ∃ n, (scientificParts b places).1 = signed b.negative ((PlainNumeral.fixed n places).chars false) ∧
      (n = 0 ↔ b.mantissa = 0) := by
  rw [scientificParts]
  split
  · rename_i hzero
    exact ⟨0, congrArg (signed b.negative) (fixedPoint_eq _ _), iff_of_true rfl hzero⟩
  · rename_i hnonzero
    have hnumerator : 0 < b.numerator := Nat.mul_pos (Nat.pos_of_ne_zero hnonzero) (Nat.two_pow_pos _)
    exact ⟨(Decimal.significant b.numerator b.denominator (places + 1)).1,
      congrArg (signed b.negative) (fixedPoint_eq _ _),
      iff_of_false (Decimal.significant_pos hnumerator b.denominator_pos places.succ_pos).ne' hnonzero⟩

/-- Commas are put between the digits before the point. -/
theorem groupThousands_chars (p : PlainNumeral) : groupThousands (p.chars false) = p.chars true := by
  have hrun : ∀ c ∈ p.whole, (c != '.') = true := fun c hc =>
    bne_iff_ne.2 (ne_of_isAsciiDigit (p.whole_digits c hc) (by decide))
  have hhead : ∀ c ∈ (pointed p.fraction).head?, (c != '.') = false := by
    cases p.fraction with
    | nil => nofun
    | cons d cs =>
      rintro c ⟨⟩
      rfl
  rw [groupThousands]
  show groupDigits ((p.whole ++ pointed p.fraction).takeWhile _) ++ (p.whole ++ pointed p.fraction).dropWhile _ = _
  rw [Text.takeWhile_run hrun hhead, Text.dropWhile_run hrun hhead]
  rfl

theorem signed_append (negative : Bool) (front back : List Char) :
    signed negative (front ++ back) = signed negative front ++ back := by
  cases negative <;> rfl

/-- Zeros are dropped at the end of a fraction, but not before the point. -/
theorem trimPlaces_signed (p : PlainNumeral) (hfraction : p.fraction ≠ []) (negative : Bool) :
    trimPlaces (signed negative (p.chars false)) = signed negative (p.trimmed.chars false) := by
  obtain ⟨c, cs, hpointed⟩ := List.exists_cons_of_ne_nil hfraction
  have hzeros : dropEndWhile (· == '0') ('.' :: p.fraction) = '.' :: p.trimmed.fraction :=
    Text.dropEndWhile_cons (by decide) _
  -- a text that ends in a digit does not end in a point
  have hlast : ∀ front digits : List Char, digits ≠ [] → (∀ c ∈ digits, isAsciiDigit c) →
      dropEndWhile (· == '.') (front ++ digits) = front ++ digits := by
    intro front digits hne hdigits
    refine Text.dropEndWhile_of_getLast? fun c hc => ?_
    rw [List.getLast?_append_of_ne_nil _ hne] at hc
    exact beq_eq_false_iff_ne.2 (ne_of_isAsciiDigit (hdigits c (List.mem_of_getLast? hc)) (by decide))
  have hchars : p.chars false = p.whole ++ '.' :: p.fraction := by
    rw [PlainNumeral.chars, hpointed]
    rfl
  rw [hchars, signed_append, trimPlaces, Text.dropEndWhile_append (by rw [hzeros]; exact List.cons_ne_nil _ _), hzeros]
  show _ = signed negative (p.whole ++ pointed p.trimmed.fraction)
  rw [signed_append]
  cases htrimmed : p.trimmed.fraction with
  | nil =>
    have hpoint : dropEndWhile (· == '.') (signed negative p.whole ++ ['.']) =
        dropEndWhile (· == '.') (signed negative p.whole) := by
      simp [dropEndWhile]
    have hsign : signed negative p.whole = signed negative [] ++ p.whole := signed_append negative [] p.whole
    rw [hpoint, pointed, List.append_nil, hsign]
    exact hlast _ _ p.whole_ne_nil p.whole_digits
  | cons d ds =>
    have hfront : signed negative p.whole ++ '.' :: d :: ds = (signed negative p.whole ++ ['.']) ++ d :: ds := by simp
    rw [pointed, hfront]
    exact hlast _ _ (List.cons_ne_nil d ds) (htrimmed ▸ p.trimmed.fraction_digits)

/-! ## Texts that never fail -/

/-- A plain numeral with a sign. -/
theorem chars_signed (p : PlainNumeral) (negative grouped : Bool) :
    NumberText.chars ⟨p, negative, false, grouped, none, false⟩ = signed negative (p.chars grouped) := by
  simp [NumberText.chars]

theorem chars_joinExponent (p : PlainNumeral) (negative : Bool) (e : ℤ) :
    NumberText.chars ⟨p, negative, false, false, some e, false⟩ = joinExponent (signed negative (p.chars false)) e := by
  simp [NumberText.chars, joinExponent, signed_append]

theorem isNumberText_scientific (hx : x.isFinite) (places : ℕ) : IsNumberText (formatScientific x places).toList := by
  obtain ⟨q, b, hb, -⟩ := Binary64.exists_represents hx
  obtain ⟨n, hn, -⟩ := scientificParts_fst b places
  rw [formatScientific, String.toList_ofList, exactScientific, hb]
  show IsNumberText (joinExponent (scientificParts b places).1 (scientificParts b places).2)
  rw [hn]
  exact ⟨_, chars_joinExponent ..⟩

theorem isNumberText_shortScientific (b : Binary) : IsNumberText (shortScientific b) := by
  obtain ⟨n, hn, -⟩ := scientificParts_fst b 5
  show IsNumberText (joinExponent (trimPlaces (scientificParts b 5).1) (scientificParts b 5).2)
  rw [hn, trimPlaces_signed _ (Calendar.padded_ne_nil 5 _)]
  exact ⟨_, chars_joinExponent ..⟩

theorem isNumberText_general (hx : x.isFinite) : IsNumberText (formatGeneral x).toList := by
  obtain ⟨q, b, hb, -⟩ := Binary64.exists_represents hx
  have hzero : IsNumberText "0".toList := ⟨_, chars_signed (.fixed 0 0) false false⟩
  rw [formatGeneral, hb]
  dsimp only
  split
  · exact hzero
  · split
    · rw [String.toList_ofList]
      exact isNumberText_shortScientific b
    · split
      · rw [String.toList_ofList, exactPlaces_of_exact hb]
        exact ⟨_, chars_signed ..⟩
      · split
        · exact hzero
        · rw [String.toList_ofList, exactPlaces_of_exact hb, trimPlaces_signed _ (Calendar.padded_ne_nil 10 _)]
          exact ⟨_, chars_signed ..⟩

/-! ## Texts with a fixed count of places -/

theorem formatFixedChars_of_exact (h : Binary64.exact (roundHalfAway value decimals).abs = .finite b)
    (thousands : Bool) :
    formatFixedChars value decimals thousands = signed (decide (roundHalfAway value decimals < 0.0))
      ((PlainNumeral.fixed (Decimal.toPlaces b.numerator b.denominator decimals) decimals).chars thousands) := by
  have hnegative := (Binary64.unsigned_iff_negative h).1 (Binary64.unsigned_abs _)
  refine congrArg (signed _) ?_
  rw [exactPlaces_of_exact h, hnegative]
  show (if thousands then groupThousands (PlainNumeral.chars _ false) else PlainNumeral.chars _ false) = _
  rw [groupThousands_chars]
  cases thousands <;> rfl

/-- A finite number is rounded to a plain numeral, with a sign if it is less than zero. -/
theorem formatFixedChars_eq (hfinite : (roundHalfAway value decimals).isFinite) (thousands : Bool) :
    ∃ p : PlainNumeral, formatFixedChars value decimals thousands =
      signed (decide (roundHalfAway value decimals < 0.0)) (p.chars thousands) := by
  obtain ⟨q, b, hb, -⟩ := Binary64.exists_represents (Binary64.isFinite_abs.trans hfinite)
  exact ⟨_, formatFixedChars_of_exact hb thousands⟩

/-- What is not finite shows as a word, which has no room for a comma. -/
theorem formatFixedChars_of_not_finite (hfinite : (roundHalfAway value decimals).isFinite = false) (thousands : Bool) :
    ∃ word ∈ [infinityText, nanText], formatFixedChars value decimals thousands =
      signed (decide (roundHalfAway value decimals < 0.0)) word := by
  have hword : ∃ word ∈ [infinityText, nanText], exactPlaces (roundHalfAway value decimals).abs decimals = word := by
    rw [exactPlaces]
    cases hexact : Binary64.exact (roundHalfAway value decimals).abs with
    | nan => exact ⟨nanText, by simp, rfl⟩
    | infinite negative =>
      rw [(Binary64.unsigned_iff_negative_infinite hexact).1 (Binary64.unsigned_abs _)]
      exact ⟨infinityText, by simp, rfl⟩
    | finite b =>
      have habs : (roundHalfAway value decimals).abs.isFinite := Represents.isFinite ⟨b, hexact, rfl⟩
      rw [Binary64.isFinite_abs, hfinite] at habs
      cases habs
  obtain ⟨word, hmem, hword⟩ := hword
  have hgroup : ∀ word ∈ [infinityText, nanText], groupThousands word = word := by decide
  refine ⟨word, hmem, ?_⟩
  rw [formatFixedChars, hword, hgroup word hmem, ite_self]

theorem namesNoNumber_formatFixedChars (hfinite : (roundHalfAway value decimals).isFinite = false)
    (thousands : Bool) : NamesNoNumber (formatFixedChars value decimals thousands) := by
  obtain ⟨word, hmem, htext⟩ := formatFixedChars_of_not_finite hfinite thousands
  rw [htext]
  refine NamesNoNumber.signed ?_ _
  rcases List.mem_pair.1 hmem with rfl | rfl
  · exact Or.inl (List.infix_refl _)
  · exact Or.inr (List.infix_refl _)

theorem isNumberText_fixed (hfinite : (roundHalfAway value decimals).isFinite) (thousands : Bool) :
    IsNumberText (formatFixed value decimals thousands).toList := by
  obtain ⟨p, hp⟩ := formatFixedChars_eq hfinite thousands
  rw [formatFixed, String.toList_ofList, hp]
  exact ⟨_, chars_signed ..⟩

theorem namesNoNumber_fixed (hfinite : (roundHalfAway value decimals).isFinite = false) (thousands : Bool) :
    NamesNoNumber (formatFixed value decimals thousands).toList := by
  rw [formatFixed, String.toList_ofList]
  exact namesNoNumber_formatFixedChars hfinite thousands

theorem isNumberText_percent (hfinite : (roundHalfAway (value * 100.0) decimals).isFinite) (thousands : Bool) :
    IsNumberText (formatPercent value decimals thousands).toList := by
  obtain ⟨p, hp⟩ := formatFixedChars_eq hfinite thousands
  rw [formatPercent, String.toList_ofList, hp, ← signed_append]
  exact ⟨⟨p, decide (roundHalfAway (value * 100.0) decimals < 0.0), false, thousands, none, true⟩, by
    simp [NumberText.chars]⟩

theorem namesNoNumber_percent (hfinite : (roundHalfAway (value * 100.0) decimals).isFinite = false) (thousands : Bool) :
    NamesNoNumber (formatPercent value decimals thousands).toList := by
  rw [formatPercent, String.toList_ofList]
  exact (namesNoNumber_formatFixedChars hfinite thousands).append [] ['%']

/-- The magnitude that a currency symbol stands before has no sign. -/
theorem decide_roundHalfAway_abs_lt (x : Float) (d : ℕ) : decide (roundHalfAway x.abs d < 0.0) = false :=
  decide_eq_false (unsigned_roundHalfAway (Binary64.unsigned_abs x) d).not_lt

theorem isNumberText_currency (hfinite : (roundHalfAway value.abs decimals).isFinite) (thousands : Bool) :
    IsNumberText (formatCurrency value decimals thousands).toList := by
  obtain ⟨p, hp⟩ := formatFixedChars_eq hfinite thousands
  rw [formatCurrency, String.toList_ofList, hp, decide_roundHalfAway_abs_lt]
  exact ⟨⟨p, decide (roundHalfAway value decimals < 0.0), true, thousands, none, false⟩, by
    simp [NumberText.chars, signed]⟩

theorem namesNoNumber_currency (hfinite : (roundHalfAway value.abs decimals).isFinite = false) (thousands : Bool) :
    NamesNoNumber (formatCurrency value decimals thousands).toList := by
  have hword := (namesNoNumber_formatFixedChars hfinite thousands).append ['$'] []
  rw [List.append_nil] at hword
  rw [formatCurrency, String.toList_ofList]
  exact hword.signed _

/-! ## Codes -/

variable {code : String}

/-- The part of a code that is read. -/
def shownSection (code : String) : String := Text.trim (String.ofList (firstSection false code.toList))

/-- How many decimal places a code asks for. -/
def shownPlaces (code : String) : ℕ := decimalPlaces (bareCode .none (shownSection code).toList)

/-- The float whose digits a code shows. -/
def shownFloat (value : Float) (code : String) : Float :=
  match codeKind (shownSection code) with
  | .currency => roundHalfAway value.abs (shownPlaces code)
  | .percent => roundHalfAway (value * 100.0) (shownPlaces code)
  | .fixed => roundHalfAway value (shownPlaces code)
  | _ => value

/-- A code without date fields shows a finite number by the kind of its section. -/
theorem formatNumber_of_isFinite (hvalue : value.isFinite) (code : String) : ∃ thousands : Bool,
    formatNumber value code = match codeKind (shownSection code) with
      | .general => formatGeneral value
      | .date => (formatMoment? value (shownSection code)).getD (formatGeneral value)
      | .currency => formatCurrency value (shownPlaces code) thousands
      | .percent => formatPercent value (shownPlaces code) thousands
      | .scientific => formatScientific value (shownPlaces code)
      | .fixed => formatFixed value (shownPlaces code) thousands := by
  have hfinite : (!value.isFinite) = false := by rw [hvalue, Bool.not_true]
  refine ⟨(bareCode .none (shownSection code).toList).contains ',', ?_⟩
  have htext := formatNumber.eq_def value code
  rw [hfinite, if_neg Bool.false_ne_true] at htext
  dsimp only at htext
  refine htext.trans ?_
  unfold shownPlaces shownSection
  cases codeKind (Text.trim (String.ofList (firstSection false code.toList))) <;> rfl

/-- A text is one of a number if what it shows is finite, and else there is a word in it. -/
theorem formatNumber_cases (hvalue : value.isFinite) (hkind : codeKind (shownSection code) ≠ .date) :
    (shownFloat value code).isFinite ∧ IsNumberText (formatNumber value code).toList ∨
      (shownFloat value code).isFinite = false ∧ NamesNoNumber (formatNumber value code).toList := by
  obtain ⟨thousands, htext⟩ := formatNumber_of_isFinite hvalue code
  rw [htext]
  unfold shownFloat
  have hboth : ∀ {x : Float} {cs : List Char}, (x.isFinite → IsNumberText cs) →
      (x.isFinite = false → NamesNoNumber cs) →
      x.isFinite ∧ IsNumberText cs ∨ x.isFinite = false ∧ NamesNoNumber cs := by
    intro x cs hnumber hword
    cases hx : x.isFinite
    · exact Or.inr ⟨rfl, hword hx⟩
    · exact Or.inl ⟨rfl, hnumber hx⟩
  cases hshown : codeKind (shownSection code) with
  | general => exact Or.inl ⟨hvalue, isNumberText_general hvalue⟩
  | date => exact absurd hshown hkind
  | currency => exact hboth (isNumberText_currency · thousands) (namesNoNumber_currency · thousands)
  | percent => exact hboth (isNumberText_percent · thousands) (namesNoNumber_percent · thousands)
  | scientific => exact Or.inl ⟨hvalue, isNumberText_scientific hvalue _⟩
  | fixed => exact hboth (isNumberText_fixed · thousands) (namesNoNumber_fixed · thousands)

/-- Nothing overflows with up to 308 places and a scaled magnitude of at most `2 ^ 1000`. -/
theorem isFinite_shownFloat {q : ℚ} (hvalue : Represents value q) (hplaces : shownPlaces code ≤ 308)
    (hsize : |q| * 10 ^ shownPlaces code ≤ 2 ^ 1000) : (shownFloat value code).isFinite := by
  obtain ⟨limit, hlimit, hpos⟩ : ∃ limit : ℚ, 2 ^ 1000 = limit ∧ 0 < limit := ⟨_, rfl, by positivity⟩
  have hroom : (2 : ℚ) ^ 1010 = 1024 * limit := by
    rw [← hlimit, show (1024 : ℚ) = 2 ^ 10 by norm_num, ← pow_add]
  rw [hlimit] at hsize
  have hscaled : |q| * 10 ^ shownPlaces code ≤ 2 ^ 1010 := by
    rw [hroom]
    linarith only [hsize, hpos]
  unfold shownFloat
  split
  · exact isFinite_roundHalfAway hvalue.abs hplaces (by simpa only [abs_abs] using hscaled)
  · -- a hundred times the number may be rounded up
    have hone : (1 : ℚ) ≤ 10 ^ shownPlaces code := one_le_pow₀ (by norm_num)
    have hq : |q| ≤ limit := (le_mul_of_one_le_right (abs_nonneg q) hone).trans hsize
    have hhundred : |q * 100| = |q| * 100 := by rw [abs_mul, abs_of_pos (by norm_num : (0 : ℚ) < 100)]
    have hlt : |q * 100| < 2 ^ (1010 : ℤ) := by
      rw [hhundred, zpow_ofNat, hroom]
      linarith only [hq, hpos]
    obtain ⟨r, hr, hround⟩ := hvalue.mul Binary64.Number.represents_hundred (Represents.le_largest hlt (by norm_num))
    refine isFinite_roundHalfAway hr hplaces ?_
    calc |r| * 10 ^ shownPlaces code ≤ 2 * |q * 100| * 10 ^ shownPlaces code :=
          mul_le_mul_of_nonneg_right hround.abs_le_two_mul (by positivity)
      _ = 200 * (|q| * 10 ^ shownPlaces code) := by rw [hhundred]; ring
      _ ≤ 1024 * limit := by linarith only [hsize, hpos]
      _ = 2 ^ 1010 := hroom.symm
  · exact isFinite_roundHalfAway hvalue hplaces hscaled
  · exact hvalue.isFinite

/-- A finite number shows by a code without date fields as the text of a number, with no word in it, just if the float
whose digits are shown is finite: what the number, a hundredfold for a percentage, is rounded to at the decimal places
of the code. That is so up to 308 places as long as the number, scaled by as many powers of ten, is at most
`2 ^ 1000`. -/
theorem formatNumber_isNumberText_iff {q : ℚ} (hvalue : Represents value q)
    (hkind : codeKind (shownSection code) ≠ .date) :
    (IsNumberText (formatNumber value code).toList ↔ (shownFloat value code).isFinite) ∧
      (NamesNoNumber (formatNumber value code).toList ↔ (shownFloat value code).isFinite = false) ∧
      (shownPlaces code ≤ 308 → |q| * 10 ^ shownPlaces code ≤ 2 ^ 1000 → (shownFloat value code).isFinite) := by
  refine ⟨?_, ?_, isFinite_shownFloat hvalue⟩
  all_goals rcases formatNumber_cases hvalue.isFinite hkind with ⟨hfinite, htext⟩ | ⟨hfinite, hword⟩
  · exact iff_of_true htext hfinite
  · exact iff_of_false (fun htext => htext.not_namesNoNumber hword) (by rw [hfinite]; exact Bool.false_ne_true)
  · exact iff_of_false htext.not_namesNoNumber (by rw [hfinite]; exact Bool.true_eq_false.mp)
  · exact iff_of_true hword hfinite

/-- A percentage with commas. -/
theorem formatNumber_isNumberText_percentage :
    Represents (Float.ofInt 12345) 12345 ∧ codeKind (shownSection "#,##0.00%") ≠ .date ∧
      IsNumberText (formatNumber (Float.ofInt 12345) "#,##0.00%").toList ∧
      formatNumber (Float.ofInt 12345) "#,##0.00%" = "1,234,500.00%" := by
  have hvalue : Represents (Float.ofInt 12345) 12345 := by
    exact_mod_cast Binary64.represents_ofInt (z := 12345) (by norm_num)
  have hkind : codeKind (shownSection "#,##0.00%") ≠ .date := by decide +kernel
  have hplaces : shownPlaces "#,##0.00%" = 2 := by decide +kernel
  obtain ⟨htext, -, hfinite⟩ := formatNumber_isNumberText_iff hvalue hkind
  rw [hplaces] at hfinite
  have hsize : |(12345 : ℚ)| * 10 ^ 2 ≤ 2 ^ 1000 :=
    calc |(12345 : ℚ)| * 10 ^ 2 ≤ 2 ^ 21 := by norm_num
      _ ≤ 2 ^ 1000 := pow_le_pow_right₀ one_le_two (by norm_num)
  exact ⟨hvalue, hkind, htext.2 (hfinite (by norm_num) hsize), by decide +kernel⟩

/-- Large numbers are infinite as percentages and with some places, and zero is no number with 309 of them. -/
theorem formatNumber_overflow : formatNumber 1e308 "0%" = "inf%" ∧ formatNumber 1e300 "0.0000000000" = "inf" ∧
    formatNumber 1e300 "$0.0000000000" = "$inf" ∧ formatFixed 0.0 309 false = "NaN" := by
  refine ⟨?_, ?_, ?_, ?_⟩ <;> decide +kernel

end Spreadsheet.Format
