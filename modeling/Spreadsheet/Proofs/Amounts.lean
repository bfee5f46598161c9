import Spreadsheet.Proofs.BuiltinCalls
import Spreadsheet.Proofs.NumberTexts

/-!
# Amounts with commas

Commas part the digits before the point into groups of three, from the right. Reading an amount drops them again, after
the marks around the digits: a sign, a currency symbol and a percent sign, in the order in which numbers are shown.

* `Format.Thousands`, `Format.exists_thousands` : digits in groups;
* `Format.PlainNumeral.filter_chars`, `Format.PlainNumeral.numberOfChars?_chars` : a numeral with and without commas;
* `TextFunction.amount?_minus`, `TextFunction.unsignedAmount?_percent`, `TextFunction.bareAmount?_currency` : one mark
  each;
* `TextFunction.Marks`, `TextFunction.valueOfText?_chars` : what may stand around the digits, and reading all of it;
* `TextFunction.value_groupThousands` : what the groups are, and what reading them gives.
-/

namespace Spreadsheet

/-! ## Groups of digits -/

namespace Format

open Text (isAsciiDigit)

/-- Digits in groups of three, but for the first group, which may be shorter. -/
structure Thousands (digits : List Char) where
  first : List Char
  others : List (List Char)
  first_pos : 1 ≤ first.length
  first_le : first.length ≤ 3
  length_eq : ∀ group ∈ others, group.length = 3
  digits_eq : first ++ others.flatten = digits

/-- The digits with a comma before each group but the first. -/
def Thousands.chars {digits : List Char} (t : Thousands digits) : List Char := t.first ++ t.others.flatMap (',' :: ·)

/-- A comma comes where the number of digits that follow is a multiple of three. -/
theorem exists_thousands {digits : List Char} (h : digits ≠ []) :
    ∃ t : Thousands digits, groupDigits digits = t.chars := by
  induction digits with
  | nil => exact absurd rfl h
  | cons c cs ih =>
    by_cases hlast : cs = []
    · subst hlast
      exact ⟨⟨[c], [], le_rfl, Nat.le_add_left 1 2, nofun, rfl⟩, rfl⟩
    obtain ⟨⟨first, others, hpos, hle, heq, rfl⟩, hgroups⟩ := ih hlast
    have hothers : others.flatten.length = 3 * others.length := by
      rw [List.length_flatten, List.map_congr_left heq, List.map_const', List.sum_replicate, smul_eq_mul, mul_comm]
    have hmod : (first ++ others.flatten).length % 3 = first.length % 3 := by
      rw [List.length_append, hothers, Nat.add_mul_mod_self_left]
    rw [groupDigits, hmod, hgroups]
    split
    · -- the groups so far are full, so the digit starts a group of its own
      refine ⟨⟨[c], first :: others, le_rfl, Nat.le_add_left 1 2, List.forall_mem_cons.2 ⟨by omega, heq⟩, rfl⟩, ?_⟩
      rfl
    · rename_i hroom
      have hshort : first.length ≠ 3 := fun h => hroom ⟨by omega, hlast⟩
      exact ⟨⟨c :: first, others, by simp, by simp; omega, heq, rfl⟩, rfl⟩

/-- Dropping the commas gives the digits back. -/
theorem filter_groupDigits {digits : List Char} (h : ∀ c ∈ digits, c ≠ ',') :
    (groupDigits digits).filter (· != ',') = digits := by
  induction digits with
  | nil => rfl
  | cons c cs ih =>
    have hc : (c != ',') = true := bne_iff_ne.2 (h c List.mem_cons_self)
    have hcs := ih fun d hd => h d (List.mem_cons_of_mem c hd)
    rw [groupDigits]
    split <;> simp [hc, hcs]

namespace PlainNumeral

variable {p : PlainNumeral}

theorem filter_chars : (p.chars true).filter (· != ',') = p.chars false := by
  have hdigit : ∀ {c : Char}, isAsciiDigit c → c ≠ ',' := fun hc => ne_of_isAsciiDigit hc (by decide)
  have hfraction : (pointed p.fraction).filter (· != ',') = pointed p.fraction := by
    refine List.filter_eq_self.2 fun c hc => bne_iff_ne.2 ?_
    rcases mem_pointed hc with rfl | hc
    · decide
    · exact hdigit (p.fraction_digits c hc)
  rw [chars, List.filter_append, hfraction]
  exact congrArg (· ++ _) (filter_groupDigits fun c hc => hdigit (p.whole_digits c hc))

/-- A numeral is read as the number of its digits, less the places after the point. -/
theorem numberOfChars?_chars : Decimal.numberOfChars? (p.chars false) =
    some (.ofFloat (Decimal.nearestFloat (Decimal.digitsValue (p.whole ++ p.fraction)) (-p.fraction.length))) := by
  have hpoint : ∀ c ∈ (pointed p.fraction).head?, isAsciiDigit c = false := by
    cases p.fraction with
    | nil => nofun
    | cons d cs =>
      rintro c ⟨⟩
      decide
  have hchars : p.chars false = p.whole ++ pointed p.fraction := rfl
  have hsplit : Decimal.splitFraction (pointed p.fraction) = (p.fraction, []) := by
    cases hfraction : p.fraction with
    | nil => rfl
    | cons d cs =>
      have hrun : ∀ c ∈ d :: cs, isAsciiDigit c := hfraction ▸ p.fraction_digits
      have htake : ((d :: cs) ++ []).takeWhile isAsciiDigit = d :: cs := Text.takeWhile_run hrun nofun
      have hdrop : ((d :: cs) ++ []).dropWhile isAsciiDigit = [] := Text.dropWhile_run hrun nofun
      rw [List.append_nil] at htake hdrop
      exact Prod.ext htake hdrop
  have hdecimal : Decimal.decimalFloat? (p.chars false) =
      some (Decimal.nearestFloat (Decimal.digitsValue (p.whole ++ p.fraction)) (-p.fraction.length)) := by
    rw [Decimal.decimalFloat?, hchars, Text.takeWhile_run p.whole_digits hpoint,
      Text.dropWhile_run p.whole_digits hpoint, hsplit]
    simp [p.whole_ne_nil]
  obtain ⟨c, cs, hwhole⟩ := List.exists_cons_of_ne_nil p.whole_ne_nil
  have hc : isAsciiDigit c := p.whole_digits c (hwhole ▸ List.mem_cons_self)
  rw [hchars, hwhole, List.cons_append] at hdecimal ⊢
  generalize cs ++ pointed p.fraction = rest at hdecimal ⊢
  -- a digit starts none of the words
  have hlower : Text.asciiLowerChar c = c := by
    have hupper := Text.isAsciiLetter_of_digit hc
    rw [Text.isAsciiLetter, Bool.or_eq_false_iff] at hupper
    rw [Text.asciiLowerChar, hupper.2]
    rfl
  have hword : ∀ {d : Char} {ds : List Char}, isAsciiDigit d = false →
      ((c :: rest).map Text.asciiLowerChar == d :: ds) = false := by
    rintro d ds hd
    refine beq_eq_false_iff_ne.2 fun h => ?_
    rw [List.map_cons, hlower] at h
    rw [(List.cons.inj h).1, hd] at hc
    cases hc
  have hunsigned : Decimal.unsignedFloat? (c :: rest) = Decimal.decimalFloat? (c :: rest) := by
    have hinf : ((c :: rest).map Text.asciiLowerChar == "inf".toList) = false := hword (by decide)
    have hinfinity : ((c :: rest).map Text.asciiLowerChar == "infinity".toList) = false := hword (by decide)
    have hnan : ((c :: rest).map Text.asciiLowerChar == "nan".toList) = false := hword (by decide)
    simp only [Decimal.unsignedFloat?, hinf, hinfinity, hnan, Bool.or_self, Bool.false_eq_true, if_false]
  rw [Decimal.numberOfChars?, hunsigned, hdecimal]
  · rfl
  · rintro ds ⟨⟩
    exact absurd hc (by decide)
  · rintro ds ⟨⟩
    exact absurd hc (by decide)

end PlainNumeral

end Format

/-! ## Reading -/

namespace Text

/-- Blanks at both ends are trimmed. -/
theorem trimChars_append {front cs back : List Char} (hfront : ∀ c ∈ front, isBlank c) (hback : ∀ c ∈ back, isBlank c)
    (hcs : ∀ c ∈ cs, isBlank c = false) (hne : cs ≠ []) : trimChars (front ++ cs ++ back) = cs := by
  have hstart : ∀ c ∈ (cs ++ back).head?, isBlank c = false := by
    rw [List.head?_append_of_ne_nil _ hne]
    exact fun c hc => hcs c (List.mem_of_head? hc)
  have hend : ∀ c ∈ cs.reverse.head?, isBlank c = false := fun c hc =>
    hcs c (List.mem_reverse.1 (List.mem_of_head? hc))
  rw [trimChars, List.append_assoc, dropWhile_run hfront hstart, dropEndWhile, List.reverse_append,
    dropWhile_run (fun c hc => hback c (List.mem_reverse.1 hc)) hend, List.reverse_reverse]

end Text

namespace TextFunction

open Binary64 (Number)
open Text (isBlank isAsciiDigit)
open Format (PlainNumeral Thousands marked signed groupThousands groupDigits pointed)

variable {cs : List Char}

/-- What follows a currency symbol, or everything if there is none. -/
def withoutCurrency (cs : List Char) : List Char :=
  match cs with
  | '$' :: rest => rest
  | _ => cs

/-- The amount that characters write without a sign and without a percent sign. -/
def bareAmount? (cs : List Char) : Option Number := Decimal.numberOfChars? ((withoutCurrency cs).filter (· != ','))

/-- The amount that characters write without a sign. -/
def unsignedAmount? (cs : List Char) : Option Number :=
  if cs.getLast? == some '%' then (bareAmount? (Text.dropEndWhile isBlank cs.dropLast)).map (· / (100.0 : Float))
  else bareAmount? cs

theorem amount?_minus (cs : List Char) :
    amount? ('-' :: cs) = (unsignedAmount? (cs.dropWhile isBlank)).map fun x => -x := by
  rw [amount?, unsignedAmount?]
  generalize cs.dropWhile isBlank = cs
  dsimp only
  cases cs.getLast? == some '%' with
  | true =>
    simp only [if_true]
    show (bareAmount? (Text.dropEndWhile isBlank cs.dropLast)).bind _ = _
    cases bareAmount? _ <;> rfl
  | false =>
    simp only [Bool.false_eq_true, if_false]
    show (bareAmount? cs).bind _ = _
    cases bareAmount? _ <;> rfl

theorem amount?_of_head? (h : cs.head? ≠ some '-') : amount? cs = unsignedAmount? cs := by
  rw [amount?, unsignedAmount?]
  · dsimp only
    cases cs.getLast? == some '%' with
    | true =>
      simp only [if_true]
      show (bareAmount? (Text.dropEndWhile isBlank cs.dropLast)).bind _ = _
      cases bareAmount? _ <;> rfl
    | false =>
      simp only [Bool.false_eq_true, if_false]
      show (bareAmount? cs).bind _ = _
      cases bareAmount? _ <;> rfl
  · rintro rest rfl
    exact h rfl

/-- What may stand around the digits of an amount. -/
structure Marks where
  front : List Char
  back : List Char
  front_blank : ∀ c ∈ front, isBlank c
  back_blank : ∀ c ∈ back, isBlank c
  negative : Bool
  currency : Bool
  percent : Bool

namespace Marks

/-- The characters between the blanks. -/
def amountChars (m : Marks) (cs : List Char) : List Char := marked m.negative m.currency m.percent cs

def chars (m : Marks) (cs : List Char) : List Char := m.front ++ m.amountChars cs ++ m.back

/-- What the marks make of a number. -/
def value (m : Marks) (x : Number) : Number :=
  let x := if m.percent then x / (100.0 : Float) else x
  if m.negative then -x else x

end Marks

variable {m : Marks}

theorem bareAmount?_currency (h : cs.head? ≠ some '$') (currency : Bool) :
    bareAmount? ((if currency then ['$'] else []) ++ cs) = Decimal.numberOfChars? (cs.filter (· != ',')) := by
  cases currency with
  | true => rfl
  | false =>
    show bareAmount? cs = _
    rw [bareAmount?, withoutCurrency]
    rintro rest rfl
    exact h rfl

theorem unsignedAmount?_percent (hlast : ∀ c ∈ cs.getLast?, isBlank c = false ∧ c ≠ '%') (percent : Bool) :
    unsignedAmount? (cs ++ if percent then ['%'] else []) =
      (bareAmount? cs).map fun x => if percent then x / .ofFloat 100.0 else x := by
  cases percent with
  | true =>
    have htrim : Text.dropEndWhile isBlank cs = cs := Text.dropEndWhile_of_getLast? fun c hc => (hlast c hc).1
    simp [unsignedAmount?, htrim]
  | false =>
    have hnone : cs.getLast? ≠ some '%' := fun h => (hlast _ h).2 rfl
    simp [unsignedAmount?, hnone]

/-- A character that is no blank and no mark around an amount. -/
def IsBare (c : Char) : Prop := isBlank c = false ∧ c ≠ '-' ∧ c ≠ '$' ∧ c ≠ '%'

/-- Marks are read off characters among which there are none. -/
theorem amount?_amountChars (hne : cs ≠ []) (hcs : ∀ c ∈ cs, IsBare c) :
    amount? (m.amountChars cs) = (Decimal.numberOfChars? (cs.filter (· != ','))).map m.value := by
  obtain ⟨c, rest, rfl⟩ := List.exists_cons_of_ne_nil hne
  obtain ⟨hblank, hminus, hdollar, -⟩ := hcs c List.mem_cons_self
  -- what follows the sign
  set body := (if m.currency then ['$'] else []) ++ c :: rest with hbody
  have hdigit : (c :: rest).head? ≠ some '$' := fun h => hdollar (Option.some.inj h)
  have hbare : bareAmount? body = Decimal.numberOfChars? ((c :: rest).filter (· != ',')) :=
    bareAmount?_currency hdigit m.currency
  have hlast : ∀ d ∈ body.getLast?, isBlank d = false ∧ d ≠ '%' := by
    intro d hd
    rw [hbody, List.getLast?_append_of_ne_nil _ hne] at hd
    exact ⟨(hcs d (List.mem_of_getLast? hd)).1, (hcs d (List.mem_of_getLast? hd)).2.2.2⟩
  have hhead : ∀ d ∈ (body ++ if m.percent then ['%'] else []).head?, isBlank d = false ∧ d ≠ '-' := by
    rw [hbody]
    cases m.currency with
    | true =>
      rintro d ⟨⟩
      decide
    | false =>
      rintro d ⟨⟩
      exact ⟨hblank, hminus⟩
  have hunsigned := unsignedAmount?_percent hlast m.percent
  rw [hbare] at hunsigned
  rw [Marks.amountChars, marked, ← hbody]
  cases hnegative : m.negative with
  | true =>
    show amount? ('-' :: _) = _
    rw [amount?_minus, Text.dropWhile_of_head? fun d hd => (hhead d hd).1, hunsigned, Option.map_map]
    exact congrArg (Option.map · _) (funext fun x => by simp [Marks.value, hnegative])
  | false =>
    show amount? (body ++ _) = _
    rw [amount?_of_head? fun h => (hhead _ h).2 rfl, hunsigned]
    exact congrArg (Option.map · _) (funext fun x => by simp [Marks.value, hnegative])

theorem isBlank_of_mem_amountChars (hcs : ∀ c ∈ cs, IsBare c) : ∀ c ∈ m.amountChars cs, isBlank c = false := by
  have hmark : ∀ {b : Bool} {mark : Char}, isBlank mark = false → ∀ c ∈ (if b then [mark] else []),
      isBlank c = false := by
    intro b mark h c hc
    split at hc
    · exact List.mem_singleton.1 hc ▸ h
    · cases hc
  intro c hc
  rcases Format.mem_signed hc with rfl | hc
  · decide
  · rcases List.mem_append.1 hc with hc | hc
    · rcases List.mem_append.1 hc with hc | hc
      · exact hmark (by decide) c hc
      · exact (hcs c hc).1
    · exact hmark (by decide) c hc

/-- A text of an amount stands for the number that its digits and its marks write. -/
theorem valueOfText?_chars {x : Number} (hne : cs ≠ []) (hcs : ∀ c ∈ cs, IsBare c)
    (hx : Decimal.numberOfChars? (cs.filter (· != ',')) = some x) (m : Marks) (order : Calendar.DateOrder) :
    valueOfText? order (String.ofList (m.chars cs)) = some (m.value x) := by
  have hamount : m.amountChars cs ≠ [] := by
    rw [Marks.amountChars, marked]
    cases m.negative <;> simp [signed, hne]
  have htrim : Text.trimChars (String.ofList (m.chars cs)).toList = m.amountChars cs := by
    rw [String.toList_ofList]
    exact Text.trimChars_append m.front_blank m.back_blank (isBlank_of_mem_amountChars hcs) hamount
  have hread : amount? (m.amountChars cs) = some (m.value x) := by
    rw [amount?_amountChars hne hcs, hx, Option.map_some]
  rw [valueOfText?, htrim, if_neg (by rwa [List.isEmpty_iff]), hread]

/-! ## Numerals with commas -/

theorem isBare_of_mem {p : PlainNumeral} {grouped : Bool} {c : Char} (h : c ∈ p.chars grouped) : IsBare c := by
  rcases Format.PlainNumeral.mem_chars h with rfl | rfl | hdigit
  · exact ⟨by decide, by decide, by decide, by decide⟩
  · exact ⟨by decide, by decide, by decide, by decide⟩
  · refine ⟨Calendar.isBlank_of_digit hdigit, ?_, ?_, ?_⟩ <;> exact Format.ne_of_isAsciiDigit hdigit (by decide)

theorem valueOf_text {x : Binary64.Number} {text : String} (h : ∀ order, valueOfText? order text = some x)
    (s : Surroundings) : valueOf s [.text text] = .ok (.number x) := by
  have htext : textOf (.text text) = .ok text := rfl
  simp only [valueOf, argAt, List.getElem?_cons_zero, Option.getD_some, htext, bind, Except.bind, h, pure, Except.pure]

def valueFunction : Function :=
  { name := "VALUE", category := .text, least := 1, most := some 1, implementation := pureFunction valueOf }

/-- Digits are put in groups of three, and an amount of these groups is read as the digits without the commas. -/
theorem value_groupThousands [RegexLibrary] (p : PlainNumeral) :
    (∃ t : Thousands p.whole, groupThousands (p.chars false) = t.chars ++ pointed p.fraction) ∧
    ∃ x, Decimal.numberOfChars? (p.chars false) = some x ∧ ∀ m : Marks,
      let text := String.ofList (m.chars (groupThousands (p.chars false)))
      (∀ order, valueOfText? order text = some (m.value x)) ∧ Gives "VALUE" [.text text] (.number (m.value x)) := by
  obtain ⟨t, ht⟩ := Format.exists_thousands p.whole_ne_nil
  rw [Format.groupThousands_chars]
  refine ⟨⟨t, congrArg (· ++ _) ht⟩, _, p.numberOfChars?_chars, fun m => ?_⟩
  have hne : p.chars true ≠ [] := fun h => by
    have hchars := p.filter_chars
    rw [h] at hchars
    exact p.whole_ne_nil (List.append_eq_nil_iff.1 hchars.symm).1
  have hread := valueOfText?_chars hne (fun c => isBare_of_mem) (p.filter_chars.symm ▸ p.numberOfChars?_chars) m
  refine ⟨hread, (gives_iff_of_mem (f := valueFunction) ?_ rfl le_rfl ?_).2 fun s => ?_⟩
  · have htext : valueFunction ∈ textFunctions := List.mem_of_getElem? (i := 16) rfl
    simp [builtinFunctions, htext]
  · exact fun n hn => (Option.some.inj hn).le
  · rw [valueOf_text hread]
    rfl

end TextFunction

end Spreadsheet
