import Spreadsheet.Json.Token
import Spreadsheet.Proofs.Coordinates

/-!
# Numbers as JSON text

A numeral that is written is read again, sign, digits and exponent, wherever something follows that does not go on with
it. The numerals of floats are such: no zero stands in front of other digits.

* `JsonNumeral.WellFormed` : a numeral as JSON has them;
* `Ends` : what comes next ends a numeral; `read?_write_append` : a numeral is read as it was written;
* `Decimal.shortest_pos` : shortest digits do not write zero;
* `wellFormed_ofFinite` : the numeral of a float is well-formed.
-/

namespace Spreadsheet

open Text (isAsciiDigit)
open Decimal (digitsOf digitsValue)

/-! ## Digits -/

namespace Decimal

theorem digitsOf_ne_nil (n : Nat) : digitsOf n ≠ [] := Nat.toDigits_ne_nil

/-- No zero stands in front. -/
theorem head?_digitsOf_ne_zero {n : Nat} (hn : n ≠ 0) : (digitsOf n).head? ≠ some '0' := by
  induction n using Nat.strongRecOn with
  | ind n ih =>
    rcases Nat.lt_or_ge n 10 with hlt | hge
    · rw [digitsOf, Nat.toDigits_of_lt_base hlt]
      have hall : ∀ d : Fin 10, d.val ≠ 0 → [Nat.digitChar d].head? ≠ some '0' := by decide
      exact hall ⟨n, hlt⟩ hn
    · obtain ⟨d, ds, hds⟩ := List.exists_cons_of_ne_nil (digitsOf_ne_nil (n / 10))
      have hfirst := ih (n / 10) (by omega) (by omega)
      rw [hds] at hfirst
      rw [digitsOf, Nat.toDigits_of_base_le (by decide) hge, ← digitsOf, hds]
      exact hfirst

/-! ### Shortest digits -/

variable {b : Binary64.Binary}

theorem readingInterval_low_pos (hb : b.mantissa ≠ 0) : 0 < (readingInterval b).low := by
  simp only [readingInterval]
  split <;> omega

namespace ReadingInterval

variable {i : ReadingInterval}

theorem scale_pos {n : Nat} (hn : 0 < n) (shift : Int) : 0 < (i.scale n shift).1 :=
  Nat.mul_pos (Nat.mul_pos hn (Nat.two_pow_pos _)) (Nat.pow_pos (by decide))

/-- Zero lies below the interval. -/
theorem pos_of_holds (hlow : 0 < i.low) {c : Nat} {shift : Int} (h : i.holds c shift) : 0 < c := by
  have hscale := scale_pos (i := i) hlow shift
  rcases Nat.eq_zero_or_pos c with rfl | hc
  · simp only [holds, Nat.zero_mul] at h
    split at h
    · simp at h
      omega
    · simp at h
  · exact hc

theorem onGrid_pos (hlow : 0 < i.low) {tie : Tie} {shift : Int} {c : Nat} (h : i.onGrid tie shift = some c) :
    0 < c := by
  simp only [onGrid] at h
  split at h
  · rename_i hbelow _
    have hpos := pos_of_holds hlow hbelow
    cases h
    cases tie with
    | up =>
      refine hpos.trans_le ?_
      rw [Tie.nearest]
      generalize (i.scale i.value shift).1 = v at *
      generalize (i.scale i.value shift).2 = d at *
      rcases Nat.eq_zero_or_pos d with rfl | hd
      · simp at hpos
      · rw [Nat.le_div_iff_mul_le (by omega)]
        have hfloor := Nat.div_mul_le_self v d
        rw [Nat.mul_left_comm]
        omega
    | even =>
      rw [Tie.nearest, roundEven]
      split
      · exact hpos
      · split <;> omega
  · rename_i hbelow _
    cases h
    exact pos_of_holds hlow hbelow
  · cases h
    exact Nat.succ_pos _
  · cases h

theorem search_pos (hlow : 0 < i.low) (hvalue : 0 < i.value) (tie : Tie) (first : Int) (tries : Nat) :
    ∀ count, 0 < (i.search tie first count tries).1 := by
  induction tries with
  | zero => exact fun _ => hvalue
  | succ tries ih =>
    intro count
    rw [search]
    split
    · rename_i c hc
      exact onGrid_pos hlow hc
    · exact ih (count + 1)

end ReadingInterval

theorem dropZeros_pos {n : Nat} {e : Int} (hn : 0 < n) : 0 < (dropZeros n e).1 := by
  fun_induction dropZeros n e with
  | case1 n e h ih => exact ih (by omega)
  | case2 n e h => exact hn

/-- The digits of a float that is not zero do not write zero. -/
theorem shortest_pos (hb : b.mantissa ≠ 0) (tie : Tie) : 0 < (shortest tie b).1 :=
  dropZeros_pos (ReadingInterval.search_pos (readingInterval_low_pos hb)
    (Nat.mul_pos (by decide) (Nat.pos_of_ne_zero hb)) tie _ 17 1)

end Decimal

namespace JsonNumeral

/-- A numeral as JSON has them: digits, of which a zero does not stand in front of others. -/
structure WellFormed (n : JsonNumeral) : Prop where
  whole_ne_nil : n.whole ≠ []
  length_of_zero : n.whole.head? = some '0' → n.whole.length = 1
  whole_digits : ∀ c ∈ n.whole, isAsciiDigit c
  fraction_digits : ∀ c ∈ n.fraction, isAsciiDigit c

/-! ## Reading what is written -/

/-- A character that does not go on with a numeral. -/
def endsNumeral (c : Char) : Bool := !isAsciiDigit c && c != '.' && c != 'e' && c != 'E'

/-- Nothing follows, or something that does not go on with a numeral. -/
def Ends (rest : List Char) : Prop := ∀ c ∈ rest.head?, endsNumeral c

section Reading

variable {rest : List Char}

theorem Ends.not_digit (h : Ends rest) : ∀ c ∈ rest.head?, isAsciiDigit c = false := fun c hc => by
  have := h c hc
  simp_all [endsNumeral]

theorem Ends.head_ne (h : Ends rest) {d : Char} (hd : endsNumeral d = false) : rest.head? ≠ some d := fun hc => by
  rw [h d hc] at hd
  cases hd

theorem readExponent?_write (e : Option Int) (hrest : Ends rest) :
    readExponent? (writeExponent e ++ rest) = some (e, rest) := by
  cases e with
  | none =>
    rw [writeExponent, List.nil_append]
    cases rest with
    | nil => rfl
    | cons c rest =>
      have hc := hrest c rfl
      simp only [endsNumeral, Bool.and_eq_true, bne_iff_ne] at hc
      simp [readExponent?, hc.1.2, hc.2]
  | some e =>
    have hdigits : ∀ c ∈ digitsOf e.natAbs, isAsciiDigit c := fun c hc => Decimal.isAsciiDigit_of_mem hc
    have hsign : readSign ((if e < 0 then '-' else '+') :: (digitsOf e.natAbs ++ rest))
        = (decide (e < 0), digitsOf e.natAbs ++ rest) := by
      by_cases he : e < 0 <;> simp [he, readSign]
    have hvalue : (if decide (e < 0) = true then -(e.natAbs : Int) else e.natAbs) = e := by
      simp only [decide_eq_true_eq]
      split <;> omega
    have hne : (digitsOf e.natAbs).isEmpty = false := by simp [Decimal.digitsOf_ne_nil]
    simp only [writeExponent, List.cons_append, readExponent?, beq_self_eq_true, Bool.true_or, if_true, hsign,
      Text.takeWhile_run hdigits hrest.not_digit, Text.dropWhile_run hdigits hrest.not_digit,
      Decimal.digitsValue_digitsOf, hne, hvalue, Bool.false_eq_true, if_false]

/-- What follows the digits of a numeral is no digit. -/
theorem exponent_not_digit (e : Option Int) (hrest : Ends rest) :
    ∀ c ∈ (writeExponent e ++ rest).head?, isAsciiDigit c = false := by
  cases e with
  | none => exact hrest.not_digit
  | some e =>
    rintro c ⟨⟩
    rfl

theorem readFraction?_write {fraction : List Char} (hfraction : ∀ c ∈ fraction, isAsciiDigit c) (e : Option Int)
    (hrest : Ends rest) :
    readFraction? ((if fraction.isEmpty then [] else '.' :: fraction) ++ (writeExponent e ++ rest))
      = some (fraction, writeExponent e ++ rest) := by
  cases fraction with
  | nil =>
    cases e with
    | none =>
      have hpoint := hrest.head_ne (d := '.') rfl
      simp only [List.isEmpty_nil, if_true, List.nil_append, writeExponent]
      cases rest with
      | nil => rfl
      | cons c rest =>
        unfold readFraction?
        split
        · simp_all
        · rfl
    | some e => rfl
  | cons d ds =>
    have htail := exponent_not_digit e hrest
    simp only [List.isEmpty_cons, Bool.false_eq_true, if_false, List.cons_append, readFraction?]
    rw [← List.cons_append, Text.takeWhile_run hfraction htail, Text.dropWhile_run hfraction htail]
    rfl

/-- A numeral without its sign is read as it was written. -/
theorem readUnsigned?_write {n : JsonNumeral} (h : n.WellFormed) (hrest : Ends rest) :
    readUnsigned? n.negative (n.whole ++ ((if n.fraction.isEmpty then [] else '.' :: n.fraction) ++
      (writeExponent n.exponent ++ rest))) = some (n, rest) := by
  have htail : ∀ c ∈ ((if n.fraction.isEmpty then [] else '.' :: n.fraction) ++
      (writeExponent n.exponent ++ rest)).head?, isAsciiDigit c = false := by
    split
    · exact exponent_not_digit n.exponent hrest
    · rintro c ⟨⟩
      rfl
  have hguard : (n.whole.isEmpty || (n.whole.head? == some '0' && decide (1 < n.whole.length))) = false := by
    rw [Bool.or_eq_false_iff, Bool.and_eq_false_imp, List.isEmpty_eq_false_iff]
    refine ⟨h.whole_ne_nil, fun hzero => ?_⟩
    rw [h.length_of_zero (by simpa using hzero)]
    rfl
  rw [readUnsigned?, Text.takeWhile_run h.whole_digits htail, Text.dropWhile_run h.whole_digits htail,
    readFraction?_write h.fraction_digits n.exponent hrest]
  simp only [hguard, Bool.false_eq_true, if_false, Option.bind_eq_bind, Option.bind_some,
    readExponent?_write n.exponent hrest]
  rfl

theorem write_append (n : JsonNumeral) : n.write ++ rest = (if n.negative then ['-'] else []) ++ (n.whole ++
    ((if n.fraction.isEmpty then [] else '.' :: n.fraction) ++ (writeExponent n.exponent ++ rest))) := by
  simp only [write, List.append_assoc]

/-- A numeral is read as it was written, up to where it ends. -/
theorem read?_write_append {n : JsonNumeral} (h : n.WellFormed) (hrest : Ends rest) :
    read? (n.write ++ rest) = some (n, rest) := by
  have hunsigned := readUnsigned?_write h hrest
  rw [write_append]
  cases hsign : n.negative with
  | true =>
    rw [hsign] at hunsigned
    exact hunsigned
  | false =>
    rw [hsign] at hunsigned
    obtain ⟨c, cs, hwhole⟩ := List.exists_cons_of_ne_nil h.whole_ne_nil
    have hminus : c ≠ '-' := by
      rintro rfl
      exact absurd (h.whole_digits '-' (by simp [hwhole])) (by decide)
    rw [hwhole] at hunsigned ⊢
    simp only [Bool.false_eq_true, if_false, List.nil_append, List.cons_append] at hunsigned ⊢
    unfold read?
    split
    · rename_i heq
      exact absurd (List.cons.inj heq).1 hminus
    · exact hunsigned

/-- The first character of a numeral is a digit or the minus sign. -/
theorem exists_write {n : JsonNumeral} (h : n.WellFormed) :
    ∃ c cs, n.write = c :: cs ∧ (isAsciiDigit c ∨ c = '-') := by
  obtain ⟨c, cs, hwhole⟩ := List.exists_cons_of_ne_nil h.whole_ne_nil
  rw [write]
  cases n.negative with
  | true => exact ⟨'-', _, rfl, Or.inr rfl⟩
  | false => exact ⟨c, _, by rw [hwhole]; rfl, Or.inl (h.whole_digits c (by simp [hwhole]))⟩

end Reading

/-! ## Numerals of floats -/

theorem isAsciiDigit_zero : isAsciiDigit '0' := rfl

/-- Digits with a place for their first one make a numeral, if it is no zero. -/
theorem wellFormed_ofDigits {ds : List Char} (hne : ds ≠ []) (hzero : ds.head? ≠ some '0')
    (hds : ∀ c ∈ ds, isAsciiDigit c) (negative : Bool) (e : Int) : (ofDigits negative ds e).WellFormed := by
  have hzeros : ∀ {k : Nat}, ∀ c ∈ List.replicate k '0', isAsciiDigit c := fun c hc => by
    rw [List.eq_of_mem_replicate hc]
    exact isAsciiDigit_zero
  obtain ⟨d, rest, rfl⟩ := List.exists_cons_of_ne_nil hne
  unfold ofDigits
  split
  · refine ⟨List.cons_ne_nil _ _, fun _ => rfl, ?_, ?_⟩
    · exact List.forall_mem_singleton.2 isAsciiDigit_zero
    · exact List.forall_mem_append.2 ⟨hzeros, hds⟩
  · split
    · refine ⟨?_, fun h => ?_, ?_, ?_⟩
      · simp
      · simp only [List.take_succ_cons, List.cons_append, List.head?_cons] at h hzero
        exact absurd h hzero
      · exact List.forall_mem_append.2 ⟨fun c hc => hds c (List.mem_of_mem_take hc), hzeros⟩
      · dsimp only
        split
        · exact List.forall_mem_singleton.2 isAsciiDigit_zero
        · exact fun c hc => hds c (List.mem_of_mem_drop hc)
    · refine ⟨?_, fun _ => rfl, ?_, ?_⟩
      · simp
      · exact fun c hc => hds c (List.mem_of_mem_take hc)
      · exact fun c hc => hds c (List.mem_of_mem_drop hc)

theorem wellFormed_ofFinite (b : Binary64.Binary) : (ofFinite b).WellFormed := by
  unfold ofFinite
  split
  · exact ⟨List.cons_ne_nil _ _, fun _ => rfl, List.forall_mem_singleton.2 isAsciiDigit_zero,
      List.forall_mem_singleton.2 isAsciiDigit_zero⟩
  · rename_i hb
    exact wellFormed_ofDigits (Decimal.digitsOf_ne_nil _)
      (Decimal.head?_digitsOf_ne_zero (Decimal.shortest_pos hb .even).ne')
      (fun c hc => Decimal.isAsciiDigit_of_mem hc) b.negative _

end JsonNumeral

end Spreadsheet
