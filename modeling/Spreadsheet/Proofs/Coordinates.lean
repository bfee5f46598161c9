import Mathlib.Data.List.TakeWhile
import Spreadsheet.Formula.Lexer
import Spreadsheet.Reference.Address

/-!
# Written coordinates

Column letters and row numbers are read back as they were written.

* `digitsValue_digitsOf`, `columnIndex_columnLetters` : numbers in decimal digits and in letters;
* `Address.readCoordinates_write` : a cell that a sheet can hold, with its marks;
* `Address.read_writeCoordinates` : the same as the text of a reference without a sheet;
* `Formula.isCellShaped_writeCoordinates` : such a text has the shape of a cell.
-/

namespace Spreadsheet

open Text (isAsciiDigit isAsciiLetter isAlphanumeric isBlank)

/-! ## Runs of characters -/

namespace Text

variable {p : Char → Bool} {run rest : List Char}

/-- A run of characters ends where another one comes. -/
theorem takeWhile_run (hrun : ∀ c ∈ run, p c) (hrest : ∀ c ∈ rest.head?, p c = false) :
    (run ++ rest).takeWhile p = run := by
  rw [List.takeWhile_append_of_pos hrun]
  cases rest with
  | nil => simp
  | cons c rest => simp [hrest c rfl]

theorem dropWhile_run (hrun : ∀ c ∈ run, p c) (hrest : ∀ c ∈ rest.head?, p c = false) :
    (run ++ rest).dropWhile p = rest := by
  rw [List.dropWhile_append_of_pos hrun]
  cases rest with
  | nil => rfl
  | cons c rest => simp [hrest c rfl]

theorem isAsciiLetter_of_digit {c : Char} (h : isAsciiDigit c) : isAsciiLetter c = false := by
  simp only [isAsciiDigit, isAsciiLetter, isAsciiLower, isAsciiUpper, Bool.and_eq_true, Bool.or_eq_false_iff,
    Bool.and_eq_false_iff, decide_eq_true_eq, decide_eq_false_iff_not, Char.le_def, UInt32.le_iff_toNat_le] at h ⊢
  obtain ⟨h0, h9⟩ := h
  change 48 ≤ c.val.toNat at h0
  change c.val.toNat ≤ 57 at h9
  exact ⟨Or.inl (by change ¬97 ≤ c.val.toNat; omega), Or.inl (by change ¬65 ≤ c.val.toNat; omega)⟩

theorem toNat_lt_of_ascii {c : Char} (h : isAsciiLetter c ∨ isAsciiDigit c) : c.toNat < 0x80 := by
  simp only [isAsciiLetter, isAsciiLower, isAsciiUpper, isAsciiDigit, Bool.or_eq_true, Bool.and_eq_true,
    decide_eq_true_eq, Char.le_def, UInt32.le_iff_toNat_le] at h
  change ((97 ≤ c.toNat ∧ c.toNat ≤ 122) ∨ (65 ≤ c.toNat ∧ c.toNat ≤ 90)) ∨ (48 ≤ c.toNat ∧ c.toNat ≤ 57) at h
  omega

theorem isAsciiLetter_of_lower {c : Char} (h : isAsciiLetter (asciiLowerChar c)) : isAsciiLetter c := by
  unfold asciiLowerChar at h
  split at h
  · rename_i hupper
    simp [isAsciiLetter, hupper]
  · exact h

theorem isAsciiLetter_lower {c : Char} (h : isAsciiLetter c) : isAsciiLetter (asciiLowerChar c) := by
  have hall : ∀ n < 0x80, isAsciiLetter (Char.ofNat n) → isAsciiLetter (asciiLowerChar (Char.ofNat n)) := by
    decide +kernel
  have hc := hall c.toNat (toNat_lt_of_ascii (Or.inl h))
  rw [Char.ofNat_toNat] at hc
  exact hc h

theorem isAlphabetic_of_letter {c : Char} (h : isAsciiLetter c) : isAlphabetic c := by
  rwa [isAlphabetic, if_pos (toNat_lt_of_ascii (Or.inl h))]

theorem isAlphanumeric_of_ascii {c : Char} (h : isAsciiLetter c ∨ isAsciiDigit c) : isAlphanumeric c := by
  have hsmall := toNat_lt_of_ascii h
  rw [isAlphanumeric, isAlphabetic, isNumeric, if_pos hsmall, if_pos hsmall, Bool.or_eq_true]
  exact h

theorem isAsciiDigit_of_isAlphabetic {c : Char} (h : isAlphabetic c) : isAsciiDigit c = false := by
  by_contra hdigit
  rw [Bool.not_eq_false] at hdigit
  rw [isAlphabetic, if_pos (toNat_lt_of_ascii (Or.inr hdigit)), isAsciiLetter_of_digit hdigit] at h
  cases h

/-- The code points of white space. -/
def blanks : List Nat :=
  [0x09, 0x0A, 0x0B, 0x0C, 0x0D, 0x20, 0x85, 0xA0, 0x1680, 0x2000, 0x2001, 0x2002, 0x2003, 0x2004, 0x2005, 0x2006,
    0x2007, 0x2008, 0x2009, 0x200A, 0x2028, 0x2029, 0x202F, 0x205F, 0x3000]

theorem toNat_mem_blanks {c : Char} (h : isBlank c) : c.toNat ∈ blanks := by
  simp [isBlank, inRanges] at h
  simp [blanks]
  omega

theorem isBlank_of_isAlphanumeric {c : Char} (h : isAlphanumeric c) : isBlank c = false := by
  have hnone : ∀ n ∈ blanks, isAlphanumeric (Char.ofNat n) = false := by decide +kernel
  by_contra hblank
  have hc := hnone _ (toNat_mem_blanks (by simpa using hblank))
  rw [Char.ofNat_toNat, h] at hc
  cases hc

theorem dropEndWhile_cons {p : Char → Bool} {c : Char} (hc : p c = false) (cs : List Char) :
    dropEndWhile p (c :: cs) = c :: dropEndWhile p cs := by
  rw [dropEndWhile, List.reverse_cons, List.dropWhile_append, dropEndWhile]
  split
  · rename_i hempty
    rw [List.isEmpty_iff.1 hempty, List.reverse_nil]
    simp [hc]
  · exact List.reverse_concat

theorem dropEndWhile_append {p : Char → Bool} {front back : List Char} (hback : dropEndWhile p back ≠ []) :
    dropEndWhile p (front ++ back) = front ++ dropEndWhile p back := by
  have hne : (back.reverse.dropWhile p).isEmpty = false := by
    rw [List.isEmpty_eq_false_iff]
    exact fun h => hback (by rw [dropEndWhile, h, List.reverse_nil])
  rw [dropEndWhile, List.reverse_append, List.dropWhile_append, hne, if_neg Bool.false_ne_true, List.reverse_append,
    List.reverse_reverse, dropEndWhile]

theorem dropWhile_of_head? {p : Char → Bool} {cs : List Char} (h : ∀ c ∈ cs.head?, p c = false) :
    cs.dropWhile p = cs :=
  @dropWhile_run p [] cs (List.forall_mem_nil _) h

theorem dropEndWhile_of_getLast? {p : Char → Bool} {cs : List Char} (h : ∀ c ∈ cs.getLast?, p c = false) :
    dropEndWhile p cs = cs := by
  rw [dropEndWhile, dropWhile_of_head? (by rwa [List.head?_reverse]), List.reverse_reverse]

/-- Nothing is trimmed where a text neither begins nor ends with a blank. -/
theorem trim_of_ends {s : String} (hfirst : ∀ c ∈ s.toList.head?, isBlank c = false)
    (hlast : ∀ c ∈ s.toList.getLast?, isBlank c = false) : trim s = s := by
  rw [trim, trimChars, dropWhile_of_head? hfirst, dropEndWhile_of_getLast? hlast, String.ofList_toList]

end Text

/-! ## Digits -/

namespace Decimal

theorem isAsciiDigit_of_mem {n : Nat} {c : Char} (hc : c ∈ digitsOf n) : isAsciiDigit c := by
  have h := Nat.isDigit_of_mem_toDigits (by decide) (by decide) hc
  simpa [Char.isDigit, isAsciiDigit, Char.le_def] using h

theorem digitsValue_digitsOf (n : Nat) : digitsValue (digitsOf n) = n :=
  Nat.ofDigitChars_toDigits (by decide) (by decide)

end Decimal

/-! ## Letters -/

theorem letterDigit_ofNat {d : Nat} (h : d < 26) :
    isAsciiLetter (Char.ofNat ('A'.toNat + d)) ∧ letterDigit (Char.ofNat ('A'.toNat + d)) = d + 1 := by
  have hall : ∀ d : Fin 26, isAsciiLetter (Char.ofNat ('A'.toNat + d)) ∧
      letterDigit (Char.ofNat ('A'.toNat + d)) = d + 1 := by decide
  exact hall ⟨d, h⟩

/-- Letters are put in front of those that are there, and read before them. -/
theorem columnIndexAux_columnLettersAux (whole : String) (n : Nat) (hn : n < columnIndexBound) (rest : List Char) :
    columnIndexAux whole 0 (columnLettersAux n rest) = columnIndexAux whole n rest := by
  induction n using Nat.strongRecOn generalizing rest with
  | ind n ih =>
    rw [columnLettersAux]
    split
    · rename_i h
      rw [h]
    · obtain ⟨hletter, hdigit⟩ := letterDigit_ofNat (Nat.mod_lt (n - 1) (by decide : 26 > 0))
      have hvalue : 26 * ((n - 1) / 26) + ((n - 1) % 26 + 1) = n := by omega
      rw [ih _ (by omega) (by omega), columnIndexAux, hletter, hdigit, hvalue]
      simp [show ¬columnIndexBound ≤ n by omega]

theorem columnLettersAux_ne_nil {n : Nat} (hn : n ≠ 0) (rest : List Char) : columnLettersAux n rest ≠ [] := by
  induction n using Nat.strongRecOn generalizing rest with
  | ind n ih =>
    rw [columnLettersAux, if_neg hn]
    by_cases h : (n - 1) / 26 = 0
    · rw [h, columnLettersAux, if_pos rfl]
      exact List.cons_ne_nil _ _
    · exact ih _ (by omega) h _

theorem isAsciiLetter_of_mem {n : Nat} {c : Char} : ∀ {rest : List Char}, (∀ c ∈ rest, isAsciiLetter c) →
    c ∈ columnLettersAux n rest → isAsciiLetter c := by
  induction n using Nat.strongRecOn with
  | ind n ih =>
    intro rest hrest hc
    rw [columnLettersAux] at hc
    split at hc
    · exact hrest c hc
    · refine ih _ (by omega) (List.forall_mem_cons.2 ⟨?_, hrest⟩) hc
      exact (letterDigit_ofNat (Nat.mod_lt (n - 1) (by decide))).1

/-- A letter more is enough for the numbers up to the next bound. -/
theorem length_columnLettersAux_le {bound k : Nat}
    (h : ∀ n rest, n ≤ bound → (columnLettersAux n rest).length ≤ rest.length + k) (n : Nat) (rest : List Char)
    (hn : n ≤ 26 * bound + 26) : (columnLettersAux n rest).length ≤ rest.length + (k + 1) := by
  rw [columnLettersAux]
  split
  · omega
  · have hrest := h ((n - 1) / 26) (Char.ofNat ('A'.toNat + (n - 1) % 26) :: rest) (by omega)
    rw [List.length_cons] at hrest
    omega

/-- Three letters are enough for all columns. -/
theorem length_columnLetters_le {n : Nat} (hn : n ≤ maxColumns) : (columnLettersAux n []).length ≤ 3 := by
  have hzero : ∀ n rest, n ≤ 0 → (columnLettersAux n rest).length ≤ rest.length + 0 := fun n rest hn => by
    rw [columnLettersAux, if_pos (by omega)]
    exact Nat.le_refl _
  have hthree := length_columnLettersAux_le (length_columnLettersAux_le (length_columnLettersAux_le hzero))
  exact hthree n [] (by simpa [maxColumns] using hn)

theorem columnIndex_columnLetters {n : Nat} (hpos : n ≠ 0) (hn : n < columnIndexBound) :
    columnIndex (columnLetters n) = .ok n := by
  have hne : (columnLetters n).isEmpty = false := by
    simpa [columnLetters] using columnLettersAux_ne_nil hpos []
  rw [columnIndex, hne, columnLetters, String.toList_ofList]
  exact columnIndexAux_columnLettersAux _ n hn []

/-! ## Coordinates -/

namespace Address

/-- Whether a sheet can hold the cell. -/
def InBounds (a : Address) : Prop := a.row < maxRows ∧ a.column < maxColumns

instance (a : Address) : Decidable a.InBounds := inferInstanceAs (Decidable (_ ∧ _))

/-- The characters of a mark. -/
def mark (absolute : Bool) : List Char := if absolute then ['$'] else []

theorem readMark_mark {absolute : Bool} {cs : List Char} (h : cs.head? ≠ some '$') :
    readMark (mark absolute ++ cs) = (absolute, cs) := by
  cases absolute with
  | true => rfl
  | false =>
    cases cs with
    | nil => rfl
    | cons c cs =>
      have hc : c ≠ '$' := by simpa using h
      unfold readMark mark
      split
      · rename_i heq
        simp_all
      · simp_all

variable (a : Address)

def letters : List Char := columnLettersAux (a.column + 1) []

def digits : List Char := Decimal.digitsOf (a.row + 1)

theorem toList_writeCoordinates : a.writeCoordinates.toList
    = mark a.columnAbsolute ++ (a.letters ++ (mark a.rowAbsolute ++ a.digits)) := by
  unfold writeCoordinates mark letters digits columnLetters
  cases a.columnAbsolute <;> cases a.rowAbsolute <;> simp

theorem isAsciiLetter_of_mem_letters {c : Char} (hc : c ∈ a.letters) : isAsciiLetter c :=
  isAsciiLetter_of_mem (by simp) hc

theorem isAsciiDigit_of_mem_digits {c : Char} (hc : c ∈ a.digits) : isAsciiDigit c :=
  Decimal.isAsciiDigit_of_mem hc

theorem letters_ne_nil : a.letters ≠ [] := columnLettersAux_ne_nil (Nat.succ_ne_zero _) []

theorem digits_ne_nil : a.digits ≠ [] := Nat.toDigits_ne_nil

theorem head?_letters_append (cs : List Char) : (a.letters ++ cs).head? ≠ some '$' := by
  obtain ⟨c, rest, hletters⟩ := List.exists_cons_of_ne_nil a.letters_ne_nil
  have hc := a.isAsciiLetter_of_mem_letters (hletters ▸ List.mem_cons_self .. : c ∈ a.letters)
  rw [hletters]
  rintro ⟨⟩
  cases hc

theorem head?_digits : a.digits.head? ≠ some '$' := by
  obtain ⟨c, rest, hdigits⟩ := List.exists_cons_of_ne_nil a.digits_ne_nil
  have hc := a.isAsciiDigit_of_mem_digits (hdigits ▸ List.mem_cons_self .. : c ∈ a.digits)
  rw [hdigits]
  rintro ⟨⟩
  cases hc

/-- The letters end at the mark or the digits. -/
theorem letters_end : ∀ c ∈ (mark a.rowAbsolute ++ a.digits).head?, isAsciiLetter c = false := by
  intro c hc
  unfold mark at hc
  cases hm : a.rowAbsolute with
  | true =>
    rw [hm] at hc
    cases hc
    rfl
  | false =>
    rw [hm] at hc
    exact Text.isAsciiLetter_of_digit (a.isAsciiDigit_of_mem_digits (List.mem_of_mem_head? hc))

theorem readCoordinates_write (h : a.InBounds) (whole : String) :
    readCoordinates whole a.writeCoordinates.toList = .ok { a with sheet := none } := by
  obtain ⟨hrow, hcolumn⟩ := h
  have hletters := Text.takeWhile_run (fun _ => a.isAsciiLetter_of_mem_letters) a.letters_end
  have hrest := Text.dropWhile_run (fun _ => a.isAsciiLetter_of_mem_letters) a.letters_end
  have hindex : columnIndex (String.ofList a.letters) = .ok (a.column + 1) :=
    columnIndex_columnLetters (Nat.succ_ne_zero _) (by unfold maxColumns at hcolumn; unfold columnIndexBound; omega)
  have hdigits : (a.digits.isEmpty || !a.digits.all isAsciiDigit) = false := by
    simp [a.digits_ne_nil, List.all_eq_true.2 fun _ => a.isAsciiDigit_of_mem_digits]
  have hvalue : Decimal.digitsValue a.digits = a.row + 1 := Decimal.digitsValue_digitsOf _
  rw [toList_writeCoordinates, readCoordinates, readMark_mark (a.head?_letters_append _)]
  simp only [hletters, hrest, hindex, readMark_mark a.head?_digits, hdigits, hvalue]
  rw [if_neg (by simpa using a.letters_ne_nil)]
  unfold maxRows at hrow
  have hsmall : ¬2 ^ 32 ≤ a.row + 1 := by omega
  have hheld : ¬(a.row + 1 = 0 ∨ maxRows < a.row + 1) := by unfold maxRows; omega
  have hreached : ¬maxColumns < a.column + 1 := by omega
  simp only [Bool.false_eq_true, if_false, if_neg hsmall, if_neg hheld]
  exact if_neg hreached

/-- Coordinates hold letters, digits and marks. -/
theorem mem_writeCoordinates {c : Char} (hc : c ∈ a.writeCoordinates.toList) : isAlphanumeric c ∨ c = '$' := by
  have hmark : ∀ absolute, c ∈ mark absolute → c = '$' := fun absolute hc => by
    cases absolute with
    | true => exact List.mem_singleton.1 hc
    | false => cases hc
  rw [toList_writeCoordinates] at hc
  simp only [List.mem_append] at hc
  rcases hc with hc | hc | hc | hc
  · exact Or.inr (hmark _ hc)
  · exact Or.inl (Text.isAlphanumeric_of_ascii (Or.inl (a.isAsciiLetter_of_mem_letters hc)))
  · exact Or.inr (hmark _ hc)
  · exact Or.inl (Text.isAlphanumeric_of_ascii (Or.inr (a.isAsciiDigit_of_mem_digits hc)))

/-- Coordinates start with a letter or a mark. -/
theorem exists_writeCoordinates : ∃ c cs, a.writeCoordinates.toList = c :: cs ∧ (isAsciiLetter c ∨ c = '$') := by
  obtain ⟨c, cs, hletters⟩ := List.exists_cons_of_ne_nil a.letters_ne_nil
  have hc := a.isAsciiLetter_of_mem_letters (hletters ▸ List.mem_cons_self .. : c ∈ a.letters)
  rw [toList_writeCoordinates, hletters]
  cases a.columnAbsolute with
  | true => exact ⟨'$', _, rfl, Or.inr rfl⟩
  | false => exact ⟨c, _, rfl, Or.inl hc⟩

theorem exists_digit_mem_writeCoordinates : ∃ c ∈ a.writeCoordinates.toList, isAsciiDigit c := by
  obtain ⟨c, cs, hdigits⟩ := List.exists_cons_of_ne_nil a.digits_ne_nil
  have hc : c ∈ a.digits := hdigits ▸ List.mem_cons_self ..
  refine ⟨c, ?_, a.isAsciiDigit_of_mem_digits hc⟩
  rw [toList_writeCoordinates]
  simp [hc]

theorem writeCoordinates_ne_nil : a.writeCoordinates.toList ≠ [] := by
  rw [toList_writeCoordinates]
  simp [a.digits_ne_nil]

theorem read_writeCoordinates (h : a.InBounds) : read a.writeCoordinates = .ok { a with sheet := none } := by
  have hchars : ∀ c ∈ a.writeCoordinates.toList, isBlank c = false ∧ c ≠ '!' ∧ c ≠ '\'' := by
    intro c hc
    rcases a.mem_writeCoordinates hc with hc | rfl
    · refine ⟨Text.isBlank_of_isAlphanumeric hc, ?_, ?_⟩ <;> rintro rfl <;> cases hc
    · decide
  have htrim : Text.trim a.writeCoordinates = a.writeCoordinates := Text.trim_of_ends
    (fun c hc => (hchars c (List.mem_of_mem_head? hc)).1) (fun c hc => (hchars c (List.mem_of_mem_getLast? hc)).1)
  have hne : a.writeCoordinates.isEmpty = false := by
    simpa using a.writeCoordinates_ne_nil
  have hsplit : splitSheet a.writeCoordinates.toList = .ok (none, a.writeCoordinates.toList) := by
    have hbang : a.writeCoordinates.toList.dropWhile (· != '!') = [] :=
      List.dropWhile_eq_nil_iff.2 fun c hc => by simpa using (hchars c hc).2.1
    unfold splitSheet
    split
    · rename_i hquote
      exact absurd rfl (hchars '\'' (hquote ▸ List.mem_cons_self ..)).2.2
    · rw [hbang]
  rw [read, htrim]
  simp only [hne, hsplit, a.readCoordinates_write h]
  rfl

end Address

namespace Formula

theorem dropDollar_eq (cs : List Char) : dropDollar cs = (Address.readMark cs).2 := by
  unfold dropDollar
  split
  · rfl
  · rename_i h
    rw [Address.readMark]
    exact fun rest => h rest

/-- A cell that a sheet can hold has at most three letters. -/
theorem isCellShaped_writeCoordinates {a : Address} (h : a.InBounds) : isCellShaped a.writeCoordinates.toList := by
  have hletters := Text.takeWhile_run (fun _ => a.isAsciiLetter_of_mem_letters) a.letters_end
  have hrest := Text.dropWhile_run (fun _ => a.isAsciiLetter_of_mem_letters) a.letters_end
  have hthree : a.letters.length ≤ 3 := length_columnLetters_le h.2
  have hdigits : a.digits.all isAsciiDigit := List.all_eq_true.2 fun _ => a.isAsciiDigit_of_mem_digits
  rw [a.toList_writeCoordinates, isCellShaped]
  simp only [dropDollar_eq, Address.readMark_mark (a.head?_letters_append _), hletters, hrest,
    Address.readMark_mark a.head?_digits]
  simp [a.letters_ne_nil, a.digits_ne_nil, hthree, hdigits]

end Formula

end Spreadsheet
