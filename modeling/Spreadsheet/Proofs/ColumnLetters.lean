import Mathlib.Data.List.Induction
import Mathlib.Data.List.Shortlex
import Mathlib.Tactic.Ring
import Spreadsheet.Proofs.Coordinates

/-!
# Column letters as numerals

The letters of a column are its number in base 26 with digits from one to twenty-six. Without a zero every number has
one numeral and every string of letters is one, so that a longer numeral is always a larger number.

* `lettersValue` : the number that letters of either case write;
* `columnIndexAux_eq` : letters are read as that number, unless it is too large;
* `columnLettersAux_lettersValue`, `lettersValue_columnLettersAux` : both ways between numbers and letters;
* `lettersValue_bounds` : the numbers of so many letters; `lettersValue_lt_iff` : their order;
* `columnLetters_numerals` : indexes and column letters are the same up to case.
-/

namespace Spreadsheet

open Text (isAsciiLetter isAsciiUpper isAsciiLower asciiUpperChar)

/-! ## Values of numerals -/

/-- The number that letters write, each with the weight of its place. -/
def lettersValue : List Char → ℕ
  | [] => 0
  | c :: cs => letterDigit c * 26 ^ cs.length + lettersValue cs

theorem lettersValue_append (s t : List Char) :
    lettersValue (s ++ t) = lettersValue s * 26 ^ t.length + lettersValue t := by
  induction s with
  | nil => rw [List.nil_append, lettersValue, Nat.zero_mul, Nat.zero_add]
  | cons c s ih =>
    rw [List.cons_append, lettersValue, lettersValue, ih, List.length_append, pow_add, Nat.add_mul, Nat.mul_assoc,
      Nat.add_assoc]

/-! ## Digits -/

theorem isAsciiUpper_ofNat {d : ℕ} (h : d < 26) : isAsciiUpper (Char.ofNat ('A'.toNat + d)) := by
  have hall : ∀ d : Fin 26, isAsciiUpper (Char.ofNat ('A'.toNat + d)) := by decide
  exact hall ⟨d, h⟩

theorem exists_letterDigit {c : Char} (h : isAsciiLetter c) :
    ∃ d < 26, asciiUpperChar c = Char.ofNat ('A'.toNat + d) ∧ letterDigit c = d + 1 := by
  have hall : ∀ n : Fin 0x80, isAsciiLetter (Char.ofNat n) → ∃ d < 26,
      asciiUpperChar (Char.ofNat n) = Char.ofNat ('A'.toNat + d) ∧ letterDigit (Char.ofNat n) = d + 1 := by decide
  have hc := hall ⟨c.toNat, Text.toNat_lt_of_ascii (.inl h)⟩
  rw [Char.ofNat_toNat] at hc
  exact hc h

theorem toNat_of_isAsciiUpper {c : Char} (h : isAsciiUpper c) : letterDigit c + 64 = c.toNat := by
  simp only [isAsciiUpper, Bool.and_eq_true, decide_eq_true_eq, Char.le_def, UInt32.le_iff_toNat_le] at h
  change 65 ≤ c.toNat ∧ c.toNat ≤ 90 at h
  have hlower : isAsciiLower c = false := by
    simp only [isAsciiLower, Bool.and_eq_false_iff, decide_eq_false_iff_not, Char.le_def, UInt32.le_iff_toNat_le]
    change ¬97 ≤ c.toNat ∨ _
    omega
  rw [letterDigit, asciiUpperChar, hlower, if_neg Bool.false_ne_true]
  change c.toNat - 65 + 1 + 64 = c.toNat
  omega

/-! ## Reading and writing -/

section Numerals

variable {cs s t : List Char}

/-- The number of the letters passed is multiplied up by those still to come. -/
theorem columnIndexAux_eq (whole : String) (hcs : ∀ c ∈ cs, isAsciiLetter c) {n : ℕ} (hn : n < columnIndexBound) :
    columnIndexAux whole n cs = if n * 26 ^ cs.length + lettersValue cs < columnIndexBound
      then .ok (n * 26 ^ cs.length + lettersValue cs) else .error (.columnTooLarge whole) := by
  induction cs generalizing n with
  | nil =>
    have hvalue : n * 26 ^ ([] : List Char).length + lettersValue [] = n := Nat.mul_one n
    rw [hvalue, if_pos hn]
    rfl
  | cons c cs ih =>
    obtain ⟨hc, hcs⟩ := List.forall_mem_cons.1 hcs
    have hvalue : n * 26 ^ (c :: cs).length + lettersValue (c :: cs) =
        (26 * n + letterDigit c) * 26 ^ cs.length + lettersValue cs := by
      rw [List.length_cons, lettersValue, pow_succ]
      ring
    rw [columnIndexAux, hc, hvalue]
    simp only [Bool.not_true, Bool.false_eq_true, if_false]
    split_ifs with hlarge hsmall hsmall
    · -- what is too large already stays so
      have hle := Nat.le_mul_of_pos_right (26 * n + letterDigit c) (Nat.pow_pos (n := cs.length) (by decide : 0 < 26))
      omega
    · rfl
    · rw [ih hcs (Nat.lt_of_not_le hlarge), if_pos hsmall]
    · rw [ih hcs (Nat.lt_of_not_le hlarge), if_neg hsmall]

/-- The letters of a number that letters write are these in upper case. -/
theorem columnLettersAux_lettersValue (hcs : ∀ c ∈ cs, isAsciiLetter c) (rest : List Char) :
    columnLettersAux (lettersValue cs) rest = cs.map asciiUpperChar ++ rest := by
  induction cs using List.reverseRecOn generalizing rest with
  | nil =>
    rw [lettersValue, columnLettersAux, if_pos rfl]
    rfl
  | append_singleton cs c ih =>
    obtain ⟨hcs, hc⟩ := List.forall_mem_append.1 hcs
    obtain ⟨d, hd, hupper, hdigit⟩ := exists_letterDigit (hc c List.mem_cons_self)
    have hvalue : lettersValue (cs ++ [c]) = 26 * lettersValue cs + d + 1 := by
      rw [lettersValue_append, lettersValue, hdigit]
      simp only [lettersValue, List.length_cons, List.length_nil]
      omega
    have hfront : (26 * lettersValue cs + d + 1 - 1) / 26 = lettersValue cs := by omega
    have hlast : (26 * lettersValue cs + d + 1 - 1) % 26 = d := by omega
    rw [hvalue, columnLettersAux, if_neg (Nat.succ_ne_zero _), hfront, hlast, ih hcs, ← hupper, List.map_append,
      List.append_assoc]
    rfl

theorem lettersValue_columnLettersAux (n : ℕ) (rest : List Char) :
    lettersValue (columnLettersAux n rest) = n * 26 ^ rest.length + lettersValue rest := by
  induction n using Nat.strongRecOn generalizing rest with
  | ind n ih =>
    rw [columnLettersAux]
    split_ifs with hn
    · rw [hn, Nat.zero_mul, Nat.zero_add]
    · have hdigit := (letterDigit_ofNat (Nat.mod_lt (n - 1) (by decide : 26 > 0))).2
      have hvalue : n = (n - 1) / 26 * 26 + ((n - 1) % 26 + 1) := by omega
      rw [ih _ (by omega), lettersValue, hdigit, List.length_cons, pow_succ]
      conv_rhs => rw [hvalue]
      ring

theorem lettersValue_columnLetters (n : ℕ) : lettersValue (columnLetters n).toList = n := by
  rw [columnLetters, String.toList_ofList, lettersValue_columnLettersAux]
  exact Nat.mul_one n

theorem isAsciiUpper_columnLetters (n : ℕ) : ∀ c ∈ (columnLetters n).toList, isAsciiUpper c := by
  have hletters : ∀ c ∈ (columnLetters n).toList, isAsciiLetter c := by
    rw [columnLetters, String.toList_ofList]
    exact fun c => isAsciiLetter_of_mem (by simp)
  have hupper : (columnLetters n).toList = (columnLetters n).toList.map asciiUpperChar := by
    have h := columnLettersAux_lettersValue hletters []
    rwa [lettersValue_columnLetters, List.append_nil, ← String.toList_ofList (l := columnLettersAux n [])] at h
  intro c hc
  rw [hupper] at hc
  obtain ⟨d, hd, rfl⟩ := List.mem_map.1 hc
  obtain ⟨digit, hdigit, heq, -⟩ := exists_letterDigit (hletters d hd)
  rw [heq]
  exact isAsciiUpper_ofNat hdigit

/-! ## Order -/

/-- The least numeral of a length has all its digits one, the largest one has them twenty-six. -/
theorem lettersValue_bounds (hcs : ∀ c ∈ cs, isAsciiLetter c) :
    26 ^ cs.length ≤ 25 * lettersValue cs + 1 ∧ 25 * lettersValue cs + 26 ≤ 26 * 26 ^ cs.length := by
  induction cs with
  | nil => exact ⟨le_rfl, le_rfl⟩
  | cons c cs ih =>
    obtain ⟨hc, hcs⟩ := List.forall_mem_cons.1 hcs
    obtain ⟨hleast, hmost⟩ := ih hcs
    obtain ⟨d, hd, -, hdigit⟩ := exists_letterDigit hc
    rw [List.length_cons, lettersValue, hdigit, pow_succ]
    generalize 26 ^ cs.length = weight at *
    have hone : 1 * weight ≤ (d + 1) * weight := Nat.mul_le_mul_right _ (by omega)
    have htop : (d + 1) * weight ≤ 26 * weight := Nat.mul_le_mul_right _ (by omega)
    omega

theorem letter_of_upper {c : Char} (h : isAsciiUpper c) : isAsciiLetter c := by
  rw [isAsciiLetter, h, Bool.or_true]

variable (hs : ∀ c ∈ s, isAsciiUpper c) (ht : ∀ c ∈ t, isAsciiUpper c)
include hs ht

/-- Of numerals of one length the first digits that differ decide. -/
theorem lettersValue_lt_of_lex (hlength : s.length = t.length) (h : List.Lex (· < ·) s t) :
    lettersValue s < lettersValue t := by
  induction h with
  | nil => cases hlength
  | @cons c s t h ih =>
    obtain ⟨-, hs⟩ := List.forall_mem_cons.1 hs
    obtain ⟨-, ht⟩ := List.forall_mem_cons.1 ht
    have hlength : s.length = t.length := Nat.succ.inj hlength
    rw [lettersValue, lettersValue, hlength]
    exact Nat.add_lt_add_left (ih hs ht hlength) _
  | @rel c s d t h =>
    obtain ⟨hc, hs⟩ := List.forall_mem_cons.1 hs
    obtain ⟨hd, ht⟩ := List.forall_mem_cons.1 ht
    have hlength : s.length = t.length := Nat.succ.inj hlength
    have hmost := (lettersValue_bounds fun c hc => letter_of_upper (hs c hc)).2
    have hleast := (lettersValue_bounds fun c hc => letter_of_upper (ht c hc)).1
    have hdigit : letterDigit c + 1 ≤ letterDigit d := by
      have hcd : c.toNat < d.toNat := h
      have hc := toNat_of_isAsciiUpper hc
      have hd := toNat_of_isAsciiUpper hd
      omega
    rw [lettersValue, lettersValue, hlength]
    rw [hlength] at hmost
    generalize 26 ^ t.length = weight at *
    have hweight : (letterDigit c + 1) * weight ≤ letterDigit d * weight := Nat.mul_le_mul_right _ hdigit
    rw [Nat.add_mul] at hweight
    omega

theorem lettersValue_lt (h : List.Shortlex (· < ·) s t) : lettersValue s < lettersValue t := by
  rcases List.shortlex_def.1 h with hlength | ⟨hlength, hlex⟩
  · have hmost := (lettersValue_bounds fun c hc => letter_of_upper (hs c hc)).2
    have hleast := (lettersValue_bounds fun c hc => letter_of_upper (ht c hc)).1
    have hpow : 26 ^ (s.length + 1) ≤ 26 ^ t.length := Nat.pow_le_pow_right (by decide) hlength
    rw [pow_succ] at hpow
    omega
  · exact lettersValue_lt_of_lex hs ht hlength hlex

/-- Numerals in upper case are ordered by length, and those of one length as words. -/
theorem lettersValue_lt_iff : lettersValue s < lettersValue t ↔ List.Shortlex (· < ·) s t := by
  refine ⟨fun h => ?_, lettersValue_lt hs ht⟩
  by_contra hnot
  have hswap : ¬List.Shortlex (· < ·) t s := fun hts => (lettersValue_lt ht hs hts).not_gt h
  have heq : s = t := Std.Trichotomous.trichotomous (r := List.Shortlex (· < ·)) s t hnot hswap
  exact absurd h (heq ▸ lt_irrefl _)

end Numerals

/-! ## Columns -/

theorem columnIndex_eq {s : String} (hne : s ≠ "") (hs : ∀ c ∈ s.toList, isAsciiLetter c) :
    columnIndex s = if lettersValue s.toList < columnIndexBound then .ok (lettersValue s.toList)
      else .error (.columnTooLarge s) := by
  have hempty : s.isEmpty = false := by simpa using hne
  rw [columnIndex, hempty, if_neg Bool.false_ne_true, columnIndexAux_eq s hs (by decide), Nat.zero_mul, Nat.zero_add]

/-- Every index of 32 bits is read back from its letters. Letters in either case have an index if their number is one of
32 bits, which is written as the same letters in upper case. The order of the indexes is that of the letters, shorter
ones first. -/
theorem columnLetters_numerals :
    (∀ n, 1 ≤ n → n < 2 ^ 32 → columnIndex (columnLetters n) = .ok n) ∧
    (∀ s : String, s ≠ "" → (∀ c ∈ s.toList, isAsciiLetter c) →
      ((∃ n, columnIndex s = .ok n) ↔ lettersValue s.toList < 2 ^ 32) ∧
      ∀ n, columnIndex s = .ok n → n = lettersValue s.toList ∧ columnLetters n = Text.asciiUpper s) ∧
    ∀ m n, m < n ↔ List.Shortlex (· < ·) (columnLetters m).toList (columnLetters n).toList := by
  refine ⟨fun n hpos hn => columnIndex_columnLetters (Nat.ne_of_gt hpos) hn, fun s hne hs => ?_, fun m n => ?_⟩
  · rw [columnIndex_eq hne hs, columnIndexBound]
    by_cases hsmall : lettersValue s.toList < 2 ^ 32
    · rw [if_pos hsmall]
      refine ⟨iff_of_true ⟨_, rfl⟩ hsmall, fun n hn => ?_⟩
      obtain rfl := Except.ok.inj hn
      refine ⟨rfl, ?_⟩
      rw [columnLetters, columnLettersAux_lettersValue hs, List.append_nil]
      rfl
    · rw [if_neg hsmall]
      refine ⟨iff_of_false ?_ hsmall, ?_⟩
      · rintro ⟨n, ⟨⟩⟩
      · rintro n ⟨⟩
  · rw [← lettersValue_lt_iff (isAsciiUpper_columnLetters m) (isAsciiUpper_columnLetters n),
      lettersValue_columnLetters, lettersValue_columnLetters]

/-- The last index, its letters in lower case, the letters after it, and a carry. -/
theorem columnLetters_numerals_last :
    columnIndex (columnLetters (2 ^ 32 - 1)) = .ok (2 ^ 32 - 1) ∧ columnIndex "mwlqkwu" = .ok (2 ^ 32 - 1) ∧
    columnLetters (2 ^ 32 - 1) = "MWLQKWU" ∧ (∀ n, columnIndex "mwlqkwv" ≠ .ok n) ∧ columnLetters 703 = "AAA" ∧
    List.Shortlex (· < ·) (columnLetters 702).toList (columnLetters 703).toList := by
  obtain ⟨hread, hletters, horder⟩ := columnLetters_numerals
  obtain ⟨hlast, hwrite⟩ := hletters "mwlqkwu" (by decide) (List.all_eq_true.1 (by decide))
  obtain ⟨n, hn⟩ := hlast.2 (by decide +kernel)
  obtain ⟨rfl, hupper⟩ := hwrite n hn
  have hvalue : lettersValue "mwlqkwu".toList = 2 ^ 32 - 1 := by decide +kernel
  rw [hvalue] at hn hupper
  have hnext := (hletters "mwlqkwv" (by decide) (List.all_eq_true.1 (by decide))).1
  have hlarge : ¬lettersValue "mwlqkwv".toList < 2 ^ 32 := by decide +kernel
  obtain ⟨hcarry, hwrite⟩ := hletters "aaa" (by decide) (List.all_eq_true.1 (by decide))
  obtain ⟨m, hm⟩ := hcarry.2 (by decide +kernel)
  obtain ⟨rfl, hthree⟩ := hwrite m hm
  have hcarried : lettersValue "aaa".toList = 703 := by decide +kernel
  rw [hcarried] at hthree
  exact ⟨hread _ (by decide) (by decide), hn, hupper, fun n hn => hlarge (hnext.1 ⟨n, hn⟩), hthree,
    (horder 702 703).1 (by decide)⟩

end Spreadsheet
