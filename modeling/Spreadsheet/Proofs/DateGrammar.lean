import Mathlib.Data.Option.Basic
import Spreadsheet.Calendar.DateText
import Spreadsheet.Proofs.Coordinates

/-!
# The grammar of dates

The texts of each layout as a relation between the characters and the parts they write. The layouts are tried one after
another, but no text has two of them, so what is read are exactly the parts that are written.

* `Numeral`, `NamesMonth`, `TimeText` : the pieces of a layout;
* `DateText` : the five layouts;
* `readDateText_eq_some_iff` : the parts that are read are those that are written.
-/

namespace Spreadsheet.Calendar

open Text (isAsciiDigit isAsciiLetter isDecimalDigit asciiLower asciiLowerChar isAsciiLetter_of_lower
  isAsciiLetter_lower)
open Decimal (digitsValue)

/-! ## The pieces of a layout -/

/-- ASCII digits, at least `least` and at most `most` of them, that write a number. -/
structure Numeral (least most : Nat) (digits : List Char) (n : Nat) : Prop where
  isDigit : ∀ c ∈ digits, isAsciiDigit c
  least_le : least ≤ digits.length
  le_most : digits.length ≤ most
  value : digitsValue digits = n

/-- The first three letters of a month. -/
def monthChars (month : Nat) : List Char := (monthName month).toList.take 3

/-- The full name of a month and its first three letters, and one more word for September. -/
def monthWords (month : Nat) : List (List Char) :=
  (monthName month).toList :: monthChars month :: if month = 9 then ["Sept".toList] else []

/-- A word names a month in any case. -/
def NamesMonth (word : List Char) (month : Nat) : Prop :=
  month ∈ List.range' 1 12 ∧ word.map asciiLowerChar ∈ (monthWords month).map (List.map asciiLowerChar)

/-- What may follow the day of a month, in lower case only. -/
def ordinalEndings : List (List Char) := [[], ['s', 't'], ['n', 'd'], ['r', 'd'], ['t', 'h']]

/-- The end of a date: nothing, or a time with or without seconds after one of the separators. -/
inductive TimeText (separators : List Char) : List Char → Option WrittenTime → Prop where
  | none : TimeText separators [] none
  | minutes {c : Char} {hours minutes : List Char} {hour minute : Nat} (hc : c ∈ separators)
      (hhour : Numeral 1 2 hours hour) (hminute : Numeral 2 2 minutes minute) :
      TimeText separators (c :: (hours ++ ':' :: minutes)) (some ⟨hour, minute, .none⟩)
  | seconds {c : Char} {hours minutes seconds : List Char} {hour minute second : Nat} (hc : c ∈ separators)
      (hhour : Numeral 1 2 hours hour) (hminute : Numeral 2 2 minutes minute) (hsecond : Numeral 2 2 seconds second) :
      TimeText separators (c :: (hours ++ ':' :: (minutes ++ ':' :: seconds))) (some ⟨hour, minute, some second⟩)

/-- The parts of a slash date: a part above twelve is the day, the first part before the second one, and the order
decides where both are at most twelve. -/
def slashDate (order : DateOrder) (first second year : Nat) (time : Option WrittenTime) : WrittenDate :=
  let dayFirst : WrittenDate := ⟨.slashDayFirst, year, second, first, time⟩
  let monthFirst : WrittenDate := ⟨.slashMonthFirst, year, first, second, time⟩
  if 12 < first then dayFirst
  else if 12 < second then monthFirst
  else match order with
    | .dayFirst => dayFirst
    | .monthFirst => monthFirst

/-- The texts of dates, with the parts that they write. -/
inductive DateText (order : DateOrder) : List Char → WrittenDate → Prop where
  | iso {years months days times : List Char} {year month day : Nat} {time : Option WrittenTime}
      (hyear : Numeral 4 4 years year) (hmonth : Numeral 1 2 months month) (hday : Numeral 1 2 days day)
      (htime : TimeText ['T', ' '] times time) :
      DateText order (years ++ '-' :: (months ++ '-' :: (days ++ times))) ⟨.iso, year, month, day, time⟩
  | slash {firsts seconds years times : List Char} {first second year : Nat} {time : Option WrittenTime}
      (hfirst : Numeral 1 2 firsts first) (hsecond : Numeral 1 2 seconds second) (hyear : Numeral 4 4 years year)
      (htime : TimeText [' '] times time) :
      DateText order (firsts ++ '/' :: (seconds ++ '/' :: (years ++ times))) (slashDate order first second year time)
  | dayMonthDash {days word years : List Char} {day month year : Nat}
      (hday : Numeral 1 2 days day) (hword : NamesMonth word month) (hyear : Numeral 4 4 years year) :
      DateText order (days ++ '-' :: (word ++ '-' :: years)) ⟨.dayMonthDash, year, month, day, none⟩
  | dayMonthBlank {days word point comma years : List Char} {day month year : Nat}
      (hday : Numeral 1 2 days day) (hword : NamesMonth word month) (hpoint : point ∈ [[], ['.']])
      (hcomma : comma ∈ [[], [',']]) (hyear : Numeral 4 4 years year) :
      DateText order (days ++ ' ' :: (word ++ (point ++ (comma ++ ' ' :: years))))
        ⟨.dayMonthBlank, year, month, day, none⟩
  | monthDay {word point days ending comma years : List Char} {month day year : Nat}
      (hword : NamesMonth word month) (hpoint : point ∈ [[], ['.']]) (hday : Numeral 1 2 days day)
      (hending : ending ∈ ordinalEndings) (hcomma : comma ∈ [[], [',']]) (hyear : Numeral 4 4 years year) :
      DateText order (word ++ (point ++ ' ' :: (days ++ (ending ++ (comma ++ ' ' :: years)))))
        ⟨.monthDay, year, month, day, none⟩

/-! ## Numbers -/

variable {least most n : Nat} {digits rest cs : List Char}

theorem head_nil {p : Char → Bool} : ∀ c ∈ ([] : List Char).head?, p c = false := nofun

theorem head_cons {p : Char → Bool} {d : Char} (h : p d = false) : ∀ c ∈ (d :: cs).head?, p c = false := by
  rintro c ⟨⟩
  exact h

/-- A mark that may be left out. -/
theorem head_append {p : Char → Bool} {marks : List (List Char)} {mark : List Char} (hmark : mark ∈ marks)
    (hmarks : marks.flatten.any p = false) (hrest : ∀ c ∈ rest.head?, p c = false) :
    ∀ c ∈ (mark ++ rest).head?, p c = false := by
  cases mark with
  | nil => exact hrest
  | cons d mark =>
    have hd : d ∈ marks.flatten := List.mem_flatten_of_mem hmark List.mem_cons_self
    exact head_cons (by simpa using List.any_eq_false.1 hmarks d hd)

theorem takeWhile_take {p : Char → Bool} (hdigits : ∀ c ∈ digits, p c) (hmost : digits.length ≤ most)
    (hrest : ∀ c ∈ rest.head?, p c = false) : ((digits ++ rest).take most).takeWhile p = digits := by
  have hend : ∀ c ∈ (rest.take (most - digits.length)).head?, p c = false := by
    intro c hc
    cases rest with
    | nil => simp at hc
    | cons d rest =>
      cases hleft : most - digits.length with
      | zero => simp [hleft] at hc
      | succ left => exact hrest c (by simpa [hleft] using hc)
  rw [List.take_append, List.take_of_length_le hmost, Text.takeWhile_run hdigits hend]

/-- A run of digits is taken up to what is no digit. -/
theorem takeDigits_append {p : Char → Bool} (hdigits : ∀ c ∈ digits, p c) (hleast : least ≤ digits.length)
    (hmost : digits.length ≤ most) (hrest : ∀ c ∈ rest.head?, p c = false) :
    takeDigits p least most (digits ++ rest) = some (digits, rest) := by
  rw [takeDigits, takeWhile_take hdigits hmost hrest]
  simp [Nat.not_lt.2 hleast]

theorem Numeral.takeNumber (h : Numeral least most digits n) (hrest : ∀ c ∈ rest.head?, isAsciiDigit c = false) :
    takeNumber least most (digits ++ rest) = some (n, rest) := by
  rw [Calendar.takeNumber, takeDigits_append h.isDigit h.least_le h.le_most hrest, ← h.value]
  rfl

/-- The same where a mark follows. -/
theorem Numeral.takeNumber_cons (h : Numeral least most digits n) {d : Char} (hd : isAsciiDigit d = false) :
    Calendar.takeNumber least most (digits ++ d :: cs) = some (n, d :: cs) :=
  h.takeNumber (head_cons hd)

theorem Numeral.takeNumber_end (h : Numeral least most digits n) :
    Calendar.takeNumber least most digits = some (n, []) := by
  have hend := h.takeNumber head_nil
  rwa [List.append_nil] at hend

theorem takeNumber_eq_some (h : takeNumber least most cs = some (n, rest)) :
    ∃ digits, Numeral least most digits n ∧ cs = digits ++ rest := by
  rw [takeNumber, takeDigits] at h
  dsimp only at h
  split at h
  · cases h
  · rename_i hleast
    cases h
    have hprefix := (List.takeWhile_prefix isAsciiDigit).trans (List.take_prefix most cs)
    exact ⟨(cs.take most).takeWhile isAsciiDigit, ⟨fun c hc => List.mem_takeWhile_imp hc, Nat.not_lt.1 hleast,
      (List.takeWhile_prefix _).length_le.trans (List.length_take_le most cs), rfl⟩,
      (List.prefix_iff_eq_append.1 hprefix).symm⟩

/-- Too few digits are no number. -/
theorem takeNumber_none (hdigits : ∀ c ∈ digits, isAsciiDigit c) (hleast : digits.length < least) (hmost : least ≤ most)
    (hrest : ∀ c ∈ rest.head?, isAsciiDigit c = false) : takeNumber least most (digits ++ rest) = none := by
  rw [takeNumber, takeDigits, takeWhile_take hdigits (Nat.le_trans (Nat.le_of_lt hleast) hmost) hrest]
  simp [hleast]

theorem digitsValue_lt {ds : List Char} (h : ∀ c ∈ ds, isAsciiDigit c) : digitsValue ds < 10 ^ ds.length := by
  have hfold : ∀ k, ds.foldl (fun n c => 10 * n + Decimal.digitValue c) k < (k + 1) * 10 ^ ds.length := by
    induction ds with
    | nil => simp
    | cons c ds ih =>
      intro k
      obtain ⟨hc, hds⟩ := List.forall_mem_cons.1 h
      have hdigit : Decimal.digitValue c ≤ 9 := by
        simp only [isAsciiDigit, Char.le_def, UInt32.le_iff_toNat_le, Bool.and_eq_true, decide_eq_true_eq] at hc
        have hlast : c.toNat ≤ 57 := hc.2
        exact Nat.sub_le_iff_le_add.2 hlast
      have hstep : 10 * k + Decimal.digitValue c + 1 ≤ (k + 1) * 10 := by omega
      refine Nat.lt_of_lt_of_le (ih hds _) ?_
      rw [List.length_cons, Nat.pow_succ', ← Nat.mul_assoc]
      exact Nat.mul_le_mul_right _ hstep
  simpa [digitsValue] using hfold 0

theorem Numeral.lt (h : Numeral least most digits n) : n < 10 ^ most := by
  obtain ⟨hdigits, -, hmost, rfl⟩ := h
  exact Nat.lt_of_lt_of_le (digitsValue_lt hdigits) (Nat.pow_le_pow_right (by decide) hmost)

/-! ## Marks -/

variable {choices : List Char}

theorem takeOne_mem {c : Char} (hc : c ∈ choices) : takeOne choices (c :: cs) = some cs :=
  if_pos (by simpa using hc)

theorem takeOne_eq_some (h : takeOne choices cs = some rest) : ∃ c ∈ choices, cs = c :: rest := by
  cases cs with
  | nil => cases h
  | cons c cs =>
    obtain ⟨hc, hrest⟩ := Option.ite_none_right_eq_some.1 h
    cases hrest
    exact ⟨c, by simpa using hc, rfl⟩

theorem takeOne_single {d : Char} (h : takeOne [d] cs = some rest) : cs = d :: rest := by
  obtain ⟨c, hc, rfl⟩ := takeOne_eq_some h
  rw [List.mem_singleton.1 hc]

theorem takeOne_none {d : Char} (hd : d ∉ choices) : takeOne choices (d :: cs) = none :=
  if_neg (by simpa using hd)

theorem skipOne_eq (d : Char) (cs : List Char) : ∃ mark ∈ [[], [d]], cs = mark ++ skipOne d cs := by
  cases cs with
  | nil => exact ⟨[], by simp, rfl⟩
  | cons c cs =>
    by_cases hc : c = d
    · exact ⟨[d], by simp, by rw [skipOne, if_pos hc, hc]; rfl⟩
    · exact ⟨[], by simp, by rw [skipOne, if_neg hc]; rfl⟩

/-- A mark is skipped before anything that does not start with it. -/
theorem skipOne_append {d : Char} {mark : List Char} (hmark : mark ∈ [[], [d]])
    (hrest : ∀ c ∈ rest.head?, (c == d) = false) : skipOne d (mark ++ rest) = rest := by
  simp only [List.mem_cons, List.not_mem_nil, or_false] at hmark
  rcases hmark with rfl | rfl
  · cases rest with
    | nil => rfl
    | cons c rest => exact if_neg (by simpa using hrest c rfl)
  · exact if_pos rfl

theorem skipOrdinal_eq (cs : List Char) : ∃ ending ∈ ordinalEndings, cs = ending ++ skipOrdinal cs := by
  unfold skipOrdinal
  split
  · exact ⟨['s', 't'], by decide, rfl⟩
  · exact ⟨['n', 'd'], by decide, rfl⟩
  · exact ⟨['r', 'd'], by decide, rfl⟩
  · exact ⟨['t', 'h'], by decide, rfl⟩
  · exact ⟨[], by decide, rfl⟩

theorem skipOrdinal_append {ending : List Char} (hending : ending ∈ ordinalEndings)
    (hrest : ∀ c ∈ rest.head?, isAsciiLetter c = false) : skipOrdinal (ending ++ rest) = rest := by
  simp only [ordinalEndings, List.mem_cons, List.not_mem_nil, or_false] at hending
  rcases hending with rfl | rfl | rfl | rfl | rfl
  · -- Without an ending nothing may follow that could be taken for one.
    rw [List.nil_append, skipOrdinal]
    all_goals
      rintro _ rfl
      cases hrest _ rfl
  all_goals rfl

section Marks

variable {point comma ending : List Char} {p : Char → Bool}

theorem head_blank {d : Char} {mark : List Char} (hmark : mark ∈ [[], [d]]) (hd : p d = false)
    (hblank : p ' ' = false) : ∀ c ∈ (mark ++ ' ' :: cs).head?, p c = false :=
  head_append hmark (by simpa using hd) (head_cons hblank)

theorem skipOne_blank {d : Char} {mark : List Char} (hmark : mark ∈ [[], [d]]) (hd : (' ' == d) = false) :
    skipOne d (mark ++ ' ' :: cs) = ' ' :: cs :=
  skipOne_append hmark (head_cons hd)

theorem skip_point_comma (hpoint : point ∈ [[], ['.']]) (hcomma : comma ∈ [[], [',']]) :
    skipOne ',' (skipOne '.' (point ++ (comma ++ ' ' :: cs))) = ' ' :: cs := by
  have hhead : ∀ c ∈ (comma ++ ' ' :: cs).head?, (c == '.') = false := head_blank hcomma (by decide) (by decide)
  rw [skipOne_append hpoint hhead, skipOne_blank hcomma (by decide)]

theorem skip_ending_comma (hending : ending ∈ ordinalEndings) (hcomma : comma ∈ [[], [',']]) :
    skipOne ',' (skipOrdinal (ending ++ (comma ++ ' ' :: cs))) = ' ' :: cs := by
  rw [skipOrdinal_append hending (head_blank hcomma (by decide) (by decide)), skipOne_blank hcomma (by decide)]

end Marks

/-! ## Names of months -/

variable {word : List Char} {month : Nat}

/-- Every spelling is a word of three to nine letters that is read as its month. -/
theorem monthWords_spec : ∀ month ∈ List.range' 1 12, ∀ word ∈ monthWords month, word.all isAsciiLetter ∧
    3 ≤ word.length ∧ word.length ≤ 9 ∧ monthOfName? (String.ofList word) = some month := by
  decide +kernel

theorem monthOfName?_congr {word word' : List Char} (h : word.map asciiLowerChar = word'.map asciiLowerChar) :
    monthOfName? (String.ofList word) = monthOfName? (String.ofList word') := by
  simp only [monthOfName?, asciiLower, String.toList_ofList, h]

/-- What is found among the names is one of the spellings. -/
theorem monthOfName?_eq_some_iff : monthOfName? (String.ofList word) = some month ↔ NamesMonth word month := by
  constructor
  · intro h
    obtain ⟨i, hi, rfl⟩ := Option.map_eq_some_iff.1 h
    obtain ⟨hlength, hnames, -⟩ := List.findIdx?_eq_some_iff_getElem.1 hi
    have hname : monthNames[i] = monthName (i + 1) := by simp [monthName, List.getElem?_eq_getElem hlength]
    have hseptember : ∀ i < 12, asciiLower (monthName (i + 1)) = "september" → i = 8 := by decide
    rw [hname] at hnames
    have hlt : i < 12 := hlength
    simp only [namesMonth, asciiLower, abbreviation, String.toList_ofList, ← List.map_take, Bool.or_eq_true,
      Bool.and_eq_true, beq_iff_eq, String.ofList_inj] at hnames
    refine ⟨List.mem_range'_1.2 ⟨by omega, by omega⟩, ?_⟩
    rcases hnames with (hfull | hshort) | ⟨hnine, hsept⟩
    · simp [monthWords, hfull]
    · simp [monthWords, monthChars, hshort]
    · obtain rfl := hseptember i hlt hnine
      have hsept : word.map asciiLowerChar = "sept".toList := by rw [← hsept, String.toList_ofList]
      rw [hsept]
      decide
  · rintro ⟨hmonth, hword⟩
    obtain ⟨spelling, hspelling, hsame⟩ := List.mem_map.1 hword
    rw [monthOfName?_congr hsame.symm]
    exact (monthWords_spec month hmonth spelling hspelling).2.2.2

/-- The case of a word changes neither its length nor that it has letters only. -/
theorem NamesMonth.letters (h : NamesMonth word month) :
    (∀ c ∈ word, isAsciiLetter c) ∧ 3 ≤ word.length ∧ word.length ≤ 9 := by
  obtain ⟨spelling, hspelling, hsame⟩ := List.mem_map.1 h.2
  obtain ⟨hletters, hleast, hmost, -⟩ := monthWords_spec month h.1 spelling hspelling
  have hlength : word.length = spelling.length := by simpa using (congrArg List.length hsame).symm
  refine ⟨fun c hc => isAsciiLetter_of_lower ?_, hlength ▸ hleast, hlength ▸ hmost⟩
  have hmem : asciiLowerChar c ∈ spelling.map asciiLowerChar := hsame ▸ List.mem_map_of_mem hc
  obtain ⟨d, hd, hcd⟩ := List.mem_map.1 hmem
  rw [← hcd]
  exact isAsciiLetter_lower (List.all_eq_true.1 hletters d hd)

theorem NamesMonth.takeWord (h : NamesMonth word month) (hrest : ∀ c ∈ rest.head?, isAsciiLetter c = false) :
    takeWord (word ++ rest) = some (word, rest) := by
  obtain ⟨hletters, hlength⟩ := h.letters
  rw [Calendar.takeWord, Text.takeWhile_run hletters hrest, Text.dropWhile_run hletters hrest]
  exact if_pos hlength

theorem takeWord_eq_some (h : takeWord cs = some (word, rest)) : cs = word ++ rest := by
  obtain ⟨-, h⟩ := Option.ite_none_right_eq_some.1 h
  cases h
  exact List.takeWhile_append_dropWhile.symm

/-! ## Times -/

variable {separators : List Char} {time : Option WrittenTime}

theorem TimeText.head {p : Char → Bool} (h : TimeText separators cs time) (hp : separators.any p = false) :
    ∀ c ∈ cs.head?, p c = false := by
  have hseparator : ∀ c ∈ separators, p c = false := fun c hc => by simpa using List.any_eq_false.1 hp c hc
  cases h with
  | none => simp
  | minutes hc _ _ => exact head_cons (hseparator _ hc)
  | seconds hc _ _ _ => exact head_cons (hseparator _ hc)

theorem readTime_eq_some_iff : readTime separators cs = some time ↔ TimeText separators cs time := by
  have hcolon : isAsciiDigit ':' = false := by decide
  constructor
  · intro h
    rw [readTime] at h
    split at h
    · rename_i hend
      cases h
      rw [List.isEmpty_iff.1 hend]
      exact .none
    · simp only [Option.bind_eq_bind, Option.bind_eq_some_iff] at h
      obtain ⟨cs₁, hseparator, ⟨hour, cs₂⟩, hhour, cs₃, hcolon₁, ⟨minute, cs₄⟩, hminute, h⟩ := h
      obtain ⟨c, hc, rfl⟩ := takeOne_eq_some hseparator
      obtain ⟨hours, hhours, rfl⟩ := takeNumber_eq_some hhour
      obtain rfl := takeOne_single hcolon₁
      obtain ⟨minutes, hminutes, rfl⟩ := takeNumber_eq_some hminute
      dsimp only at h
      split at h
      · rename_i hend
        cases h
        obtain rfl := List.isEmpty_iff.1 hend
        rw [List.append_nil]
        exact .minutes hc hhours hminutes
      · simp only [Option.bind_eq_some_iff, Option.pure_def, Option.ite_none_right_eq_some, Option.some.injEq] at h
        obtain ⟨cs₅, hcolon₂, ⟨second, cs₆⟩, hsecond, hend, rfl⟩ := h
        obtain rfl := takeOne_single hcolon₂
        obtain ⟨seconds, hseconds, rfl⟩ := takeNumber_eq_some hsecond
        obtain rfl := List.isEmpty_iff.1 hend
        rw [List.append_nil]
        exact .seconds hc hhours hminutes hseconds
  · intro h
    cases h with
    | none => rfl
    | minutes hc hhour hminute =>
      simp [readTime, takeOne_mem hc, hhour.takeNumber_cons hcolon, takeOne_mem, hminute.takeNumber_end]
    | seconds hc hhour hminute hsecond =>
      simp [readTime, takeOne_mem hc, hhour.takeNumber_cons hcolon, takeOne_mem, hminute.takeNumber_cons hcolon,
        hsecond.takeNumber_end]

/-! ## What is read is written -/

variable {order : DateOrder} {w : WrittenDate}

theorem slashDate_eq (first second year : Nat) :
    slashDate order first second year time =
      if 12 < first ∨ (second ≤ 12 ∧ order = .dayFirst) then ⟨.slashDayFirst, year, second, first, time⟩
      else ⟨.slashMonthFirst, year, first, second, time⟩ := by
  by_cases hfirst : 12 < first
  · simp [slashDate, hfirst]
  · by_cases hsecond : 12 < second
    · simp [slashDate, hfirst, hsecond, Nat.not_le.2 hsecond]
    · cases order <;> simp [slashDate, hfirst, hsecond, Nat.not_lt.1 hsecond]

theorem dateText_of_readIso (h : readIso cs = some w) : DateText order cs w := by
  simp only [readIso, Option.bind_eq_bind, Option.bind_eq_some_iff, Option.pure_def, Option.some.injEq] at h
  obtain ⟨⟨year, cs₁⟩, hyear, cs₂, hdash, ⟨month, cs₃⟩, hmonth, cs₄, hdash', ⟨day, cs₅⟩, hday, time, htime, rfl⟩ := h
  obtain ⟨years, hyears, rfl⟩ := takeNumber_eq_some hyear
  obtain rfl := takeOne_single hdash
  obtain ⟨months, hmonths, rfl⟩ := takeNumber_eq_some hmonth
  obtain rfl := takeOne_single hdash'
  obtain ⟨days, hdays, rfl⟩ := takeNumber_eq_some hday
  exact .iso hyears hmonths hdays (readTime_eq_some_iff.1 htime)

theorem dateText_of_readSlash (h : readSlash order cs = some w) : DateText order cs w := by
  simp only [readSlash, Option.bind_eq_bind, Option.bind_eq_some_iff, Option.pure_def] at h
  obtain ⟨⟨first, cs₁⟩, hfirst, cs₂, hslash, ⟨second, cs₃⟩, hsecond, cs₄, hslash', ⟨year, cs₅⟩, hyear, time, htime,
    h⟩ := h
  obtain ⟨firsts, hfirsts, rfl⟩ := takeNumber_eq_some hfirst
  obtain rfl := takeOne_single hslash
  obtain ⟨seconds, hseconds, rfl⟩ := takeNumber_eq_some hsecond
  obtain rfl := takeOne_single hslash'
  obtain ⟨years, hyears, rfl⟩ := takeNumber_eq_some hyear
  have hw : w = slashDate order first second year time := by
    rw [slashDate_eq]
    split at h <;> cases h <;> simp [*]
  rw [hw]
  exact .slash hfirsts hseconds hyears (readTime_eq_some_iff.1 htime)

theorem dateText_of_readDayMonthDash (h : readDayMonthDash cs = some w) : DateText order cs w := by
  simp only [readDayMonthDash, Option.bind_eq_bind, Option.bind_eq_some_iff, Option.pure_def,
    Option.ite_none_right_eq_some, Option.some.injEq] at h
  obtain ⟨⟨day, cs₁⟩, hday, cs₂, hdash, ⟨word, cs₃⟩, hword, cs₄, hdash', ⟨year, cs₅⟩, hyear, month, hmonth, hend,
    rfl⟩ := h
  obtain ⟨days, hdays, rfl⟩ := takeNumber_eq_some hday
  obtain rfl := takeOne_single hdash
  obtain rfl := takeWord_eq_some hword
  obtain rfl := takeOne_single hdash'
  obtain ⟨years, hyears, rfl⟩ := takeNumber_eq_some hyear
  obtain rfl := List.isEmpty_iff.1 hend
  rw [List.append_nil]
  exact .dayMonthDash hdays (monthOfName?_eq_some_iff.1 hmonth) hyears

theorem dateText_of_readDayMonthBlank (h : readDayMonthBlank cs = some w) : DateText order cs w := by
  simp only [readDayMonthBlank, Option.bind_eq_bind, Option.bind_eq_some_iff, Option.pure_def,
    Option.ite_none_right_eq_some, Option.some.injEq] at h
  obtain ⟨⟨day, cs₁⟩, hday, cs₂, hblank, ⟨word, cs₃⟩, hword, cs₄, hblank', ⟨year, cs₅⟩, hyear, month, hmonth, hend,
    rfl⟩ := h
  obtain ⟨days, hdays, rfl⟩ := takeNumber_eq_some hday
  obtain rfl := takeOne_single hblank
  obtain rfl := takeWord_eq_some hword
  obtain ⟨point, hpoint, hpoint'⟩ := skipOne_eq '.' cs₃
  obtain ⟨comma, hcomma, hcomma'⟩ := skipOne_eq ',' (skipOne '.' cs₃)
  obtain ⟨years, hyears, rfl⟩ := takeNumber_eq_some hyear
  obtain rfl := List.isEmpty_iff.1 hend
  rw [List.append_nil] at hblank'
  rw [hpoint', hcomma', takeOne_single hblank']
  exact .dayMonthBlank hdays (monthOfName?_eq_some_iff.1 hmonth) hpoint hcomma hyears

theorem dateText_of_readMonthDay (h : readMonthDay cs = some w) : DateText order cs w := by
  simp only [readMonthDay, Option.bind_eq_bind, Option.bind_eq_some_iff, Option.pure_def,
    Option.ite_none_right_eq_some, Option.some.injEq] at h
  obtain ⟨⟨word, cs₁⟩, hword, cs₂, hblank, ⟨day, cs₃⟩, hday, cs₄, hblank', ⟨year, cs₅⟩, hyear, month, hmonth, hend,
    rfl⟩ := h
  obtain rfl := takeWord_eq_some hword
  obtain ⟨point, hpoint, hpoint'⟩ := skipOne_eq '.' cs₁
  obtain ⟨days, hdays, rfl⟩ := takeNumber_eq_some hday
  obtain ⟨ending, hending, hending'⟩ := skipOrdinal_eq cs₃
  obtain ⟨comma, hcomma, hcomma'⟩ := skipOne_eq ',' (skipOrdinal cs₃)
  obtain ⟨years, hyears, rfl⟩ := takeNumber_eq_some hyear
  obtain rfl := List.isEmpty_iff.1 hend
  rw [List.append_nil] at hblank'
  rw [hpoint', takeOne_single hblank, hending', hcomma', takeOne_single hblank']
  exact .monthDay (monthOfName?_eq_some_iff.1 hmonth) hpoint hdays hending hcomma hyears

theorem dateText_of_readDateText (h : readDateText order cs = some w) : DateText order cs w := by
  simp only [readDateText, Option.orElse_eq_some] at h
  rcases h with h | ⟨-, h | ⟨-, h | ⟨-, h | ⟨-, h⟩⟩⟩⟩
  · exact dateText_of_readIso h
  · exact dateText_of_readSlash h
  · exact dateText_of_readDayMonthDash h
  · exact dateText_of_readDayMonthBlank h
  · exact dateText_of_readMonthDay h

/-! ## What is written is read -/

/-- Two digits are not a year. -/
theorem readIso_none {d : Char} (h : Numeral 1 2 digits n) (hd : isAsciiDigit d = false) :
    readIso (digits ++ d :: cs) = none := by
  have hnone : takeNumber 4 4 (digits ++ d :: cs) = none :=
    takeNumber_none h.isDigit (Nat.lt_of_le_of_lt h.le_most (by decide)) (by decide) (head_cons hd)
  simp only [readIso, hnone, Option.bind_eq_bind, Option.bind_none]

theorem readSlash_none {d : Char} (h : Numeral 1 2 digits n) (hd : isAsciiDigit d = false) (hslash : d ∉ ['/']) :
    readSlash order (digits ++ d :: cs) = none := by
  simp only [readSlash, h.takeNumber_cons hd, takeOne_none hslash, Option.bind_eq_bind, Option.bind_some,
    Option.bind_none]

theorem readDayMonthDash_none {d : Char} (h : Numeral 1 2 digits n) (hd : isAsciiDigit d = false)
    (hdash : d ∉ ['-']) : readDayMonthDash (digits ++ d :: cs) = none := by
  simp only [readDayMonthDash, h.takeNumber_cons hd, takeOne_none hdash, Option.bind_eq_bind, Option.bind_some,
    Option.bind_none]

/-- Only the last layout starts with a letter. -/
theorem readDateText_letter {c : Char} (hc : isAsciiDigit c = false) :
    readDateText order (c :: cs) = readMonthDay (c :: cs) := by
  have hnone : ∀ {least most}, 0 < least → least ≤ most → takeNumber least most (c :: cs) = none := fun h h' =>
    takeNumber_none (List.forall_mem_nil _) h h' (head_cons hc)
  simp [readDateText, readIso, readSlash, readDayMonthDash, readDayMonthBlank, hnone]

theorem takeOne_self {d : Char} : takeOne [d] (d :: cs) = some cs := takeOne_mem (List.mem_singleton_self d)

section Layouts

variable {firsts seconds years months days times point comma ending : List Char} {first second year day : Nat}

theorem readIso_append (hyear : Numeral 4 4 years year) (hmonth : Numeral 1 2 months month)
    (hday : Numeral 1 2 days day) (htime : TimeText ['T', ' '] times time) :
    readIso (years ++ '-' :: (months ++ '-' :: (days ++ times))) = some ⟨.iso, year, month, day, time⟩ := by
  have hdash : isAsciiDigit '-' = false := by decide
  simp only [readIso, hyear.takeNumber_cons hdash, takeOne_self, hmonth.takeNumber_cons hdash,
    hday.takeNumber (htime.head (by decide)), readTime_eq_some_iff.2 htime, Option.bind_eq_bind, Option.bind_some]
  rfl

theorem readSlash_append (hfirst : Numeral 1 2 firsts first) (hsecond : Numeral 1 2 seconds second)
    (hyear : Numeral 4 4 years year) (htime : TimeText [' '] times time) :
    readSlash order (firsts ++ '/' :: (seconds ++ '/' :: (years ++ times))) =
      some (slashDate order first second year time) := by
  have hslash : isAsciiDigit '/' = false := by decide
  simp only [readSlash, hfirst.takeNumber_cons hslash, takeOne_self, hsecond.takeNumber_cons hslash,
    hyear.takeNumber (htime.head (by decide)), readTime_eq_some_iff.2 htime, Option.bind_eq_bind, Option.bind_some,
    slashDate_eq]
  split <;> rfl

theorem readDayMonthDash_append (hday : Numeral 1 2 days day) (hword : NamesMonth word month)
    (hyear : Numeral 4 4 years year) :
    readDayMonthDash (days ++ '-' :: (word ++ '-' :: years)) = some ⟨.dayMonthDash, year, month, day, none⟩ := by
  simp only [readDayMonthDash, hday.takeNumber_cons (by decide : isAsciiDigit '-' = false), takeOne_self,
    hword.takeWord (head_cons (by decide : isAsciiLetter '-' = false)), hyear.takeNumber_end,
    monthOfName?_eq_some_iff.2 hword, Option.bind_eq_bind, Option.bind_some, List.isEmpty_nil, if_true]
  rfl

theorem readDayMonthBlank_append (hday : Numeral 1 2 days day) (hword : NamesMonth word month)
    (hpoint : point ∈ [[], ['.']]) (hcomma : comma ∈ [[], [',']]) (hyear : Numeral 4 4 years year) :
    readDayMonthBlank (days ++ ' ' :: (word ++ (point ++ (comma ++ ' ' :: years)))) =
      some ⟨.dayMonthBlank, year, month, day, none⟩ := by
  have hend : ∀ c ∈ (point ++ (comma ++ ' ' :: years)).head?, isAsciiLetter c = false :=
    head_append hpoint (by decide) (head_blank hcomma (by decide) (by decide))
  simp only [readDayMonthBlank, hday.takeNumber_cons (by decide : isAsciiDigit ' ' = false), takeOne_self,
    hword.takeWord hend, skip_point_comma hpoint hcomma, hyear.takeNumber_end, monthOfName?_eq_some_iff.2 hword,
    Option.bind_eq_bind, Option.bind_some, List.isEmpty_nil, if_true]
  rfl

theorem readMonthDay_append (hword : NamesMonth word month) (hpoint : point ∈ [[], ['.']]) (hday : Numeral 1 2 days day)
    (hending : ending ∈ ordinalEndings) (hcomma : comma ∈ [[], [',']]) (hyear : Numeral 4 4 years year) :
    readMonthDay (word ++ (point ++ ' ' :: (days ++ (ending ++ (comma ++ ' ' :: years))))) =
      some ⟨.monthDay, year, month, day, none⟩ := by
  have hend : ∀ c ∈ (ending ++ (comma ++ ' ' :: years)).head?, isAsciiDigit c = false :=
    head_append hending (by decide) (head_blank hcomma (by decide) (by decide))
  simp only [readMonthDay, hword.takeWord (head_blank hpoint (by decide) (by decide)),
    skipOne_blank hpoint (by decide : (' ' == '.') = false), takeOne_self, hday.takeNumber hend,
    skip_ending_comma hending hcomma, hyear.takeNumber_end, monthOfName?_eq_some_iff.2 hword, Option.bind_eq_bind,
    Option.bind_some, List.isEmpty_nil, if_true]
  rfl

end Layouts

/-- The layouts that are tried before the one of a text refuse it. -/
theorem readDateText_of_dateText (h : DateText order cs w) : readDateText order cs = some w := by
  cases h with
  | iso hyear hmonth hday htime =>
    rw [readDateText, readIso_append hyear hmonth hday htime]
    rfl
  | slash hfirst hsecond hyear htime =>
    rw [readDateText, readIso_none hfirst (by decide), readSlash_append hfirst hsecond hyear htime]
    rfl
  | dayMonthDash hday hword hyear =>
    rw [readDateText, readIso_none hday (by decide), readSlash_none hday (by decide) (by decide),
      readDayMonthDash_append hday hword hyear]
    rfl
  | dayMonthBlank hday hword hpoint hcomma hyear =>
    rw [readDateText, readIso_none hday (by decide), readSlash_none hday (by decide) (by decide),
      readDayMonthDash_none hday (by decide) (by decide), readDayMonthBlank_append hday hword hpoint hcomma hyear]
    rfl
  | @monthDay word _ _ _ _ _ _ _ _ hword hpoint hday hending hcomma hyear =>
    -- The other layouts start with a digit, and the name of a month is not empty.
    obtain ⟨hletters, hlength, -⟩ := hword.letters
    obtain ⟨c, letters, rfl⟩ := List.exists_cons_of_length_pos (Nat.lt_of_lt_of_le (by decide) hlength)
    have hc : isAsciiDigit c = false :=
      Text.isAsciiDigit_of_isAlphabetic (Text.isAlphabetic_of_letter (hletters c List.mem_cons_self))
    have hread := readMonthDay_append hword hpoint hday hending hcomma hyear
    rw [List.cons_append] at hread ⊢
    rw [readDateText_letter hc, hread]

theorem readDateText_eq_some_iff : readDateText order cs = some w ↔ DateText order cs w :=
  ⟨dateText_of_readDateText, readDateText_of_dateText⟩

/-! ## The look at the start of a text -/

theorem isDecimalDigit_of_ascii {c : Char} (h : isAsciiDigit c) : isDecimalDigit c := by
  rwa [isDecimalDigit, if_pos (Text.toNat_lt_of_ascii (Or.inr h))]

/-- Digits of any script are taken where a number is, up to what is none of them. -/
theorem Numeral.takeDecimals (h : Numeral least most digits n) (hrest : ∀ c ∈ rest.head?, isDecimalDigit c = false) :
    takeDigits isDecimalDigit least most (digits ++ rest) = some (digits, rest) :=
  takeDigits_append (fun c hc => isDecimalDigit_of_ascii (h.isDigit c hc)) h.least_le h.le_most hrest

theorem Numeral.takeDecimals_end (h : Numeral least most digits n) :
    takeDigits isDecimalDigit least most digits = some (digits, []) := by
  have hend := h.takeDecimals head_nil
  rwa [List.append_nil] at hend

/-- Every text of a layout starts like one. -/
theorem DateText.looksLikeDate {text : String} (h : DateText order (Text.trim text).toList w) :
    looksLikeDate text := by
  have hdash : isDecimalDigit '-' = false := by decide
  have hslash : isDecimalDigit '/' = false := by decide
  have hblank : isDecimalDigit ' ' = false := by decide
  have hletter : isAsciiLetter '-' = false := by decide
  simp only [Calendar.looksLikeDate, Option.orElse_eq_orElse, Option.orElse_eq_or, Option.isSome_or, Bool.or_eq_true]
  generalize (Text.trim text).toList = cs at h
  cases h with
  | iso hyear hmonth hday htime =>
    refine .inl ?_
    simp [startsLikeIso, hyear.takeDecimals (head_cons hdash), takeOne_self, hmonth.takeDecimals (head_cons hdash),
      hday.takeDecimals (htime.head (by decide))]
  | slash hfirst hsecond hyear htime =>
    refine .inr (.inl ?_)
    simp [startsLikeSlash, hfirst.takeDecimals (head_cons hslash), takeOne_self,
      hsecond.takeDecimals (head_cons hslash), hyear.takeDecimals (htime.head (by decide))]
  | @dayMonthDash _ _ years _ _ _ hday hword hyear =>
    refine .inr (.inr (.inl ?_))
    -- The look allows a point and a comma here, which this layout does not have.
    have hskip : skipOne ',' (skipOne '.' ('-' :: years)) = '-' :: years := rfl
    simp [startsLikeDayMonth, hday.takeDecimals (head_cons hdash), takeOne_mem, hword.takeWord (head_cons hletter),
      hskip, hyear.takeDecimals_end]
  | @dayMonthBlank _ _ point comma years _ _ _ hday hword hpoint hcomma hyear =>
    refine .inr (.inr (.inl ?_))
    have hend : ∀ c ∈ (point ++ (comma ++ ' ' :: years)).head?, isAsciiLetter c = false :=
      head_append hpoint (by decide) (head_blank hcomma (by decide) (by decide))
    simp [startsLikeDayMonth, hday.takeDecimals (head_cons hblank), takeOne_mem, hword.takeWord hend,
      skip_point_comma hpoint hcomma, hyear.takeDecimals_end]
  | @monthDay _ _ _ ending comma years _ _ _ hword hpoint hday hending hcomma hyear =>
    refine .inr (.inr (.inr ?_))
    have hend : ∀ c ∈ (ending ++ (comma ++ ' ' :: years)).head?, isDecimalDigit c = false :=
      head_append hending (by decide) (head_blank hcomma (by decide) (by decide))
    simp [startsLikeMonthDay, hword.takeWord (head_blank hpoint (by decide) (by decide)),
      skipOne_blank hpoint (by decide : (' ' == '.') = false), takeOne_self, hday.takeDecimals hend,
      skip_ending_comma hending hcomma, hyear.takeDecimals_end]

end Spreadsheet.Calendar
