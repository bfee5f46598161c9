import Mathlib.Data.List.Basic
import Spreadsheet.Proofs.Coordinates

/-!
# Spelled tokens

A token is read back from its spelling if what comes next ends it: a space, the end of the text, and for most tokens any
mark.

* `isBreak`, `Token.endsBefore` : characters that end the token before them;
* `IsNumeral`, `Spells` : how a token is written;
* `Legible` : tokens whose words are not taken for others;
* `Writes` : tokens with single spaces between them;
* `scanToken_spelled` : one token;
* `ofChars_writes` : all tokens of a text.
-/

namespace Spreadsheet.Formula

open Text (isAsciiDigit isAsciiLetter isAlphabetic isAlphanumeric isBlank)

/-! ## Numerals -/

/-- The exponent of a numeral, if it has one. -/
inductive IsExponent : List Char → Prop
  | none : IsExponent []
  | some {e : Char} {sign digits : List Char} (he : e = 'e' ∨ e = 'E') (hsign : sign ∈ [[], ['+'], ['-']])
      (hne : digits ≠ []) (hdigits : ∀ c ∈ digits, isAsciiDigit c) : IsExponent (e :: (sign ++ digits))

/-- Digits, with a point before, among or after them if it has one, and an exponent. -/
inductive IsNumeral : List Char → Prop
  | whole {digits exponent : List Char} (hne : digits ≠ []) (hdigits : ∀ c ∈ digits, isAsciiDigit c)
      (hexponent : IsExponent exponent) : IsNumeral (digits ++ exponent)
  | point {digits fraction exponent : List Char} (hne : digits ≠ [] ∨ fraction ≠ [])
      (hdigits : ∀ c ∈ digits, isAsciiDigit c) (hfraction : ∀ c ∈ fraction, isAsciiDigit c)
      (hexponent : IsExponent exponent) : IsNumeral (digits ++ '.' :: (fraction ++ exponent))

/-- A text that ends the token before it. -/
def Stops (rest : List Char) : Prop := ∀ c ∈ rest.head?, c = ' '

/-- White space, and the characters that marks start with. -/
def isBreak (c : Char) : Bool := isBlank c || (singleMark? c).isSome || c == '<' || c == '>'

/-- A text that ends the words and numerals before it. -/
def Breaks (rest : List Char) : Prop := ∀ c ∈ rest.head?, isBreak c

theorem breaks_nil : Breaks [] := by simp [Breaks]

variable {rest : List Char}

theorem isBlank_of_digit {c : Char} (h : isAsciiDigit c) : isBlank c = false :=
  Text.isBlank_of_isAlphanumeric (Text.isAlphanumeric_of_ascii (Or.inr h))

theorem isBlank_of_isWordChar {c : Char} (h : isWordChar c) : isBlank c = false := by
  simp only [isWordChar, Bool.or_eq_true, beq_iff_eq] at h
  rcases h with ((h | rfl) | rfl) | rfl
  · exact Text.isBlank_of_isAlphanumeric h
  · decide
  · decide
  · decide

/-- Words go on neither with a blank nor with a mark. -/
theorem isBreak_of_isWordChar {c : Char} (h : isWordChar c) : isBreak c = false := by
  have hmark : singleMark? c = none := by
    unfold singleMark?
    split <;> first | rfl | exact absurd h (by decide)
  have hless : c ≠ '<' := by
    rintro rfl
    exact absurd h (by decide)
  have hgreater : c ≠ '>' := by
    rintro rfl
    exact absurd h (by decide)
  simp [isBreak, isBlank_of_isWordChar h, hmark, hless, hgreater]

theorem isWordChar_of_digit {c : Char} (h : isAsciiDigit c) : isWordChar c := by
  simp [isWordChar, Text.isAlphanumeric_of_ascii (Or.inr h)]

/-- Digits and words end at a break. -/
theorem Breaks.not {p : Char → Bool} (hrest : Breaks rest) (hp : ∀ c, p c → isWordChar c) :
    ∀ c ∈ rest.head?, p c = false := by
  intro c hc
  by_contra hpc
  exact absurd (hrest c hc) (by simp [isBreak_of_isWordChar (hp c (by simpa using hpc))])

theorem splitExponent_spelled {cs : List Char} (h : IsExponent cs) (hrest : Breaks rest) :
    splitExponent (cs ++ rest) = (cs, rest) := by
  cases h with
  | none =>
    cases rest with
    | nil => rfl
    | cons c tail =>
      have hc : c ≠ 'e' ∧ c ≠ 'E' := by
        constructor <;>
        · rintro rfl
          exact absurd (hrest _ rfl) (by decide)
      rcases tail with _ | ⟨s, _ | ⟨d, tail⟩⟩ <;> simp [splitExponent, hc]
  | @some e sign digits he hsign hne hdigits =>
    have htake := Text.takeWhile_run hdigits (hrest.not fun _ => isWordChar_of_digit)
    have hdrop := Text.dropWhile_run hdigits (hrest.not fun _ => isWordChar_of_digit)
    obtain ⟨d, ds, rfl⟩ := List.exists_cons_of_ne_nil hne
    have hd : isAsciiDigit d := hdigits d (List.mem_cons_self ..)
    have he' : ¬(e ≠ 'e' ∧ e ≠ 'E') := by rcases he with rfl | rfl <;> decide
    simp only [List.mem_cons, List.not_mem_nil, or_false] at hsign
    rcases hsign with rfl | rfl | rfl
    · -- a single digit at the end of the text is a case of its own
      cases hnext : ds ++ rest with
      | nil =>
        obtain ⟨rfl, rfl⟩ := List.append_eq_nil_iff.1 hnext
        exact if_pos ⟨he, hd⟩
      | cons s tail =>
        rw [List.cons_append, hnext] at htake hdrop
        show splitExponent (e :: d :: (ds ++ rest)) = _
        rw [hnext, splitExponent, if_neg he', if_pos hd, htake, hdrop]
        rfl
    · show splitExponent (e :: '+' :: d :: (ds ++ rest)) = _
      rw [splitExponent, if_neg he', if_neg (by decide), if_pos ⟨Or.inl rfl, hd⟩, ← List.cons_append, htake, hdrop]
      rfl
    · show splitExponent (e :: '-' :: d :: (ds ++ rest)) = _
      rw [splitExponent, if_neg he', if_neg (by decide), if_pos ⟨Or.inr rfl, hd⟩, ← List.cons_append, htake, hdrop]
      rfl

/-- Neither a digit nor a point follows the digits before an exponent. -/
theorem exponent_head {cs : List Char} (h : IsExponent cs) (hrest : Breaks rest) :
    ∀ c ∈ (cs ++ rest).head?, isAsciiDigit c = false ∧ c ≠ '.' := by
  intro c hc
  cases h with
  | none =>
    refine ⟨hrest.not (fun _ => isWordChar_of_digit) c hc, ?_⟩
    rintro rfl
    exact absurd (hrest _ hc) (by decide)
  | some he =>
    cases hc
    rcases he with rfl | rfl <;> decide

/-- The numeral is split off whole, and its first characters tell that it is one. -/
theorem splitNumber_spelled {w : List Char} (h : IsNumeral w) (hrest : Breaks rest) :
    splitNumber (w ++ rest) = (w, rest) ∧ startsNumber (w ++ rest) := by
  cases h with
  | @whole digits exponent hne hdigits hexponent =>
    have hhead := exponent_head hexponent hrest
    have htake := Text.takeWhile_run hdigits fun c hc => (hhead c hc).1
    have hdrop := Text.dropWhile_run hdigits fun c hc => (hhead c hc).1
    have hpoint : splitPoint (exponent ++ rest) = ([], exponent ++ rest) := by
      unfold splitPoint
      split
      · rename_i heq
        exact absurd rfl (hhead '.' (by rw [heq]; rfl)).2
      · rfl
    rw [List.append_assoc, splitNumber, htake, hdrop, hpoint]
    simp only [splitExponent_spelled hexponent hrest, List.append_nil]
    obtain ⟨d, ds, rfl⟩ := List.exists_cons_of_ne_nil hne
    simp [startsNumber, hdigits d]
  | @point digits fraction exponent hne hdigits hfraction hexponent =>
    have hhead := exponent_head hexponent hrest
    have htake := Text.takeWhile_run hfraction fun c hc => (hhead c hc).1
    have hdrop := Text.dropWhile_run hfraction fun c hc => (hhead c hc).1
    have hwhole : (digits ++ '.' :: (fraction ++ exponent) ++ rest).takeWhile isAsciiDigit = digits := by
      rw [List.append_assoc]
      exact Text.takeWhile_run hdigits (by simp [isAsciiDigit])
    have hafter : (digits ++ '.' :: (fraction ++ exponent) ++ rest).dropWhile isAsciiDigit
        = '.' :: (fraction ++ (exponent ++ rest)) := by
      rw [List.append_assoc, Text.dropWhile_run hdigits (by simp [isAsciiDigit]), List.cons_append, List.append_assoc]
    rw [splitNumber, hwhole, hafter, splitPoint, htake, hdrop]
    simp only [splitExponent_spelled hexponent hrest]
    refine ⟨by simp, ?_⟩
    cases digits with
    | nil =>
      obtain ⟨d, ds, rfl⟩ := List.exists_cons_of_ne_nil (hne.resolve_left (by simp))
      simp [startsNumber, hfraction d]
    | cons d ds => simp [startsNumber, hdigits d]

theorem IsExponent.isBlank {cs : List Char} (h : IsExponent cs) {c : Char} (hc : c ∈ cs) : isBlank c = false := by
  cases h with
  | none => cases hc
  | some he hsign _ hdigits =>
    simp only [List.mem_cons, List.mem_append, List.not_mem_nil, or_false] at hc hsign
    rcases hc with rfl | hc | hc
    · rcases he with rfl | rfl <;> decide
    · rcases hsign with rfl | rfl | rfl
      · cases hc
      · rw [List.mem_singleton.1 hc]
        decide
      · rw [List.mem_singleton.1 hc]
        decide
    · exact isBlank_of_digit (hdigits c hc)

theorem IsNumeral.isBlank {w : List Char} (h : IsNumeral w) {c : Char} (hc : c ∈ w) : isBlank c = false := by
  cases h with
  | whole _ hdigits hexponent =>
    rcases List.mem_append.1 hc with hc | hc
    · exact isBlank_of_digit (hdigits c hc)
    · exact hexponent.isBlank hc
  | point _ hdigits hfraction hexponent =>
    simp only [List.mem_append, List.mem_cons] at hc
    rcases hc with hc | rfl | hc | hc
    · exact isBlank_of_digit (hdigits c hc)
    · decide
    · exact isBlank_of_digit (hfraction c hc)
    · exact hexponent.isBlank hc

/-! ## Words -/

/-- Characters of names. -/
def isNameChar (c : Char) : Bool := isAlphanumeric c || c == '_' || c == '.'

/-- A word of letters, digits, `_` and `.` that starts with a letter or `_`. -/
def isName (s : String) : Bool :=
  match s.toList with
  | [] => false
  | c :: cs => (isAlphabetic c || c == '_') && cs.all isNameChar

/-- Words that stand for something else than a name unless a parenthesis follows. -/
def isReserved (s : String) : Bool :=
  Text.equalIgnoringAsciiCase s "TRUE" || Text.equalIgnoringAsciiCase s "FALSE" || isCellShaped s.toList

/-- Characters that a word starts with. -/
def isWordStart (c : Char) : Bool := isAlphabetic c || c == '_' || c == '$'

/-- Neither a mark nor a numeral starts as words do. -/
theorem starts_of_isWordStart {c : Char} (h : isWordStart c) :
    singleMark? c = none ∧ c ∉ ['<', '>', '"', '\'', '#', '.'] ∧ isAsciiDigit c = false := by
  refine ⟨?_, ?_, ?_⟩
  · unfold singleMark?
    split <;> first | rfl | cases h
  · intro hc
    simp only [List.mem_cons, List.not_mem_nil, or_false] at hc
    rcases hc with rfl | rfl | rfl | rfl | rfl | rfl <;> cases h
  · simp only [isWordStart, Bool.or_eq_true, beq_iff_eq] at h
    rcases h with (h | rfl) | rfl
    · exact Text.isAsciiDigit_of_isAlphabetic h
    · decide
    · decide

theorem scanToken_of_isWordStart {c : Char} (total : Nat) (hc : isWordStart c) (cs : List Char) :
    scanToken total c cs = .ok (scanWord c cs) := by
  obtain ⟨hmark, hothers, hdigit⟩ := starts_of_isWordStart hc
  simp only [List.mem_cons, List.not_mem_nil, or_false, not_or] at hothers
  obtain ⟨hless, hgreater, hquote, hsingle, hhash, hpoint⟩ := hothers
  have hnumber : startsNumber (c :: cs) = false := by simp [startsNumber, hdigit, hpoint]
  rw [isWordStart] at hc
  unfold scanToken
  rw [hmark]
  simp only [hless, hgreater, hquote, hsingle, hhash, hnumber, hc, if_false, if_true, Bool.false_eq_true]

/-- A word ends at a break, and what follows tells what it stands for. -/
theorem scanToken_word {c : Char} {cs : List Char} (total : Nat) (hc : isWordStart c) (hcs : ∀ d ∈ cs, isWordChar d)
    (hrest : Breaks rest) : scanToken total c (cs ++ rest) = .ok (wordToken (c :: cs) rest, rest) := by
  have htake := Text.takeWhile_run hcs (hrest.not fun _ h => h)
  have hdrop := Text.dropWhile_run hcs (hrest.not fun _ h => h)
  rw [scanToken_of_isWordStart total hc, scanWord, htake, hdrop]
  split
  · rename_i tail
    exact absurd (hrest '!' rfl) (by decide)
  · rfl

/-! ## Tokens -/

/-- How a token is written. -/
inductive Spells : Token → List Char → Prop
  | number {x : Float} {w : List Char} (hw : IsNumeral w) (hx : Decimal.decimalFloat? w = some x) : Spells (.number x) w
  | text (s : String) : Spells (.text s) ('"' :: (Text.doubled '"' s.toList ++ ['"']))
  | boolean (b : Bool) : Spells (.boolean b) (if b then "TRUE" else "FALSE").toList
  | error (e : ErrorValue) : Spells (.error e) e.text.toList
  | name (s : String) : Spells (.name s) s.toList
  | cell (s : String) : Spells (.cell s) s.toList
  | sheet (s : String) : Spells (.sheet s) ('\'' :: (Text.doubled '\'' s.toList ++ ['\'', '!']))
  | mark (m : Mark) : Spells (.mark m) m.spelling.toList

/-- Whether a token ends before a character: words, numerals and texts do so before a break, but errors go on with `/`,
`<` with `=` and `>`, and `>` with `=`. -/
def Token.endsBefore : Token → Char → Bool
  | .sheet _, _ => true
  | .error _, c => isBreak c && c != '/'
  | .mark .less, c => c != '=' && c != '>'
  | .mark .greater, c => c != '='
  | .mark _, _ => true
  | _, c => isBreak c

theorem Token.endsBefore_nil (t : Token) : ∀ c ∈ ([] : List Char).head?, t.endsBefore c := fun _ hc => nomatch hc

/-- Every token ends at the space. -/
theorem Stops.endsBefore (hrest : Stops rest) {t : Token} : ∀ c ∈ rest.head?, t.endsBefore c := by
  intro c hc
  rw [hrest c hc]
  cases t with
  | mark m => cases m <;> rfl
  | _ => rfl

theorem isErrorChar_of_endsBefore {e : ErrorValue} {c : Char} (h : (Token.error e).endsBefore c) :
    isErrorChar c = false := by
  simp only [Token.endsBefore, Bool.and_eq_true, bne_iff_ne, ne_eq] at h
  obtain ⟨hbreak, hslash⟩ := h
  by_contra herror
  simp only [Bool.not_eq_false, isErrorChar, Text.isAsciiAlphanumeric, Bool.or_eq_true, beq_iff_eq] at herror
  rcases herror with ((hword | rfl) | rfl) | rfl
  · have hchar : isWordChar c := by simp [isWordChar, Text.isAlphanumeric_of_ascii hword]
    simp [isBreak_of_isWordChar hchar] at hbreak
  · exact absurd hbreak (by decide)
  · exact hslash rfl
  · exact absurd hbreak (by decide)

/-- Whether the words of a token are not taken for others; `opened` tells whether a parenthesis follows. -/
def Token.Legible (opened : Bool) : Token → Prop
  | .boolean _ => opened = false
  | .name s => isName s ∧ (opened ∨ isReserved s = false)
  | .cell s => opened = false ∧ ∃ a : Address, a.InBounds ∧ s = a.writeCoordinates
  | .finish => False
  | _ => True

variable {t : Token} {w : List Char} {opened : Bool}

theorem exists_of_isName {s : String} (h : isName s) : ∃ c cs, s.toList = c :: cs ∧
    (isAlphabetic c ∨ c = '_') ∧ ∀ d ∈ cs, isNameChar d := by
  unfold isName at h
  split at h
  · cases h
  · rename_i c cs hs
    exact ⟨c, cs, hs, by simpa using h⟩

theorem isWordStart_of_alphabetic {c : Char} (h : isAlphabetic c ∨ c = '_') : isWordStart c := by
  simp only [isWordStart, Bool.or_eq_true, beq_iff_eq]
  exact Or.inl h

theorem isBlank_of_isNameChar {c : Char} (h : isNameChar c) : isBlank c = false := by
  simp only [isNameChar, Bool.or_eq_true, beq_iff_eq] at h
  rcases h with (h | rfl) | rfl
  · exact Text.isBlank_of_isAlphanumeric h
  · decide
  · decide

theorem isNameChar_of_alphabetic {c : Char} (h : isAlphabetic c ∨ c = '_') : isNameChar c := by
  simp only [isNameChar, isAlphanumeric, Bool.or_eq_true, beq_iff_eq]
  exact Or.inl (h.imp_left Or.inl)

/-- A word starts with no blank and no mark. -/
theorem first_of_isWordStart {c : Char} (h : isWordStart c) : isBlank c = false ∧ singleMark? c = none := by
  refine ⟨?_, (starts_of_isWordStart h).1⟩
  simp only [isWordStart, Bool.or_eq_true, beq_iff_eq] at h
  rcases h with h | rfl
  · exact isBlank_of_isNameChar (isNameChar_of_alphabetic h)
  · decide

theorem isWordStart_of_coordinates {c : Char} (h : isAsciiLetter c ∨ c = '$') : isWordStart c := by
  simp only [isWordStart, Bool.or_eq_true, beq_iff_eq]
  exact h.imp_left fun hletter => Or.inl (Text.isAlphabetic_of_letter hletter)

/-- The first character of a token is not blank. It is a mark only if the token is that mark. -/
theorem Spells.firstChar (h : Spells t w) (ht : t.Legible opened) : ∃ c cs, w = c :: cs ∧ isBlank c = false ∧
    (∀ m, singleMark? c = some m → t = .mark m) ∧ (t = .mark .leftParen → c = '(') := by
  cases h with
  | number hw =>
    have hstarts := (splitNumber_spelled hw breaks_nil).2
    rw [List.append_nil] at hstarts
    cases w with
    | nil => cases hstarts
    | cons c cs =>
      refine ⟨c, cs, rfl, hw.isBlank (List.mem_cons_self ..), fun m hm => ?_, nofun⟩
      unfold singleMark? at hm
      split at hm <;> first | cases hstarts | cases hm
  | text => exact ⟨_, _, rfl, by decide, nofun, nofun⟩
  | boolean b =>
    cases b with
    | true => exact ⟨_, _, rfl, by decide, nofun, nofun⟩
    | false => exact ⟨_, _, rfl, by decide, nofun, nofun⟩
  | error e => cases e <;> exact ⟨_, _, rfl, by decide, nofun, nofun⟩
  | name s =>
    obtain ⟨c, cs, hs, hc, -⟩ := exists_of_isName ht.1
    obtain ⟨hblank, hmark⟩ := first_of_isWordStart (isWordStart_of_alphabetic hc)
    exact ⟨c, cs, hs, hblank, fun m hm => absurd (hmark ▸ hm) nofun, nofun⟩
  | cell s =>
    obtain ⟨-, a, -, rfl⟩ := ht
    obtain ⟨c, cs, ha, hc⟩ := a.exists_writeCoordinates
    obtain ⟨hblank, hmark⟩ := first_of_isWordStart (isWordStart_of_coordinates hc)
    exact ⟨c, cs, ha, hblank, fun m hm => absurd (hmark ▸ hm) nofun, nofun⟩
  | sheet => exact ⟨_, _, rfl, by decide, nofun, nofun⟩
  | mark m => cases m <;> exact ⟨_, _, rfl, by decide, by decide, by decide⟩

theorem Spells.lastChar (h : Spells t w) (ht : t.Legible opened) : ∀ c ∈ w.getLast?, isBlank c = false := by
  intro c hc
  cases h with
  | number hw => exact hw.isBlank (List.mem_of_getLast? hc)
  | text s =>
    rw [← List.cons_append, List.getLast?_append] at hc
    cases hc
    decide
  | boolean b =>
    cases b with
    | true =>
      cases hc
      decide
    | false =>
      cases hc
      decide
  | error e =>
    cases e <;>
    · cases hc
      decide
  | name s =>
    obtain ⟨d, cs, hs, hd, hcs⟩ := exists_of_isName ht.1
    have hall : ∀ c ∈ s.toList, isNameChar c := by
      rw [hs]
      exact List.forall_mem_cons.2 ⟨isNameChar_of_alphabetic hd, hcs⟩
    exact isBlank_of_isNameChar (hall c (List.mem_of_getLast? hc))
  | cell s =>
    obtain ⟨-, a, -, rfl⟩ := ht
    rcases a.mem_writeCoordinates (List.mem_of_getLast? hc) with hc | rfl
    · exact Text.isBlank_of_isAlphanumeric hc
    · decide
  | sheet s =>
    rw [← List.cons_append, List.getLast?_append] at hc
    cases hc
    decide
  | mark m =>
    cases m <;>
    · cases hc
      decide

/-! ## Reading a token -/

/-- A numeral starts as no other token does. -/
theorem starts_of_startsNumber {c : Char} {cs : List Char} (h : startsNumber (c :: cs)) :
    singleMark? c = none ∧ c ∉ ['<', '>', '"', '\''] := by
  refine ⟨?_, ?_⟩
  · unfold singleMark?
    split <;> first | rfl | cases h
  · intro hc
    simp only [List.mem_cons, List.not_mem_nil, or_false] at hc
    rcases hc with rfl | rfl | rfl | rfl <;> cases h

theorem scanToken_number {x : Float} (total : Nat) (hw : IsNumeral w) (hx : Decimal.decimalFloat? w = some x)
    (hrest : Breaks rest) : ∃ c cs, w = c :: cs ∧ scanToken total c (cs ++ rest) = .ok (.number x, rest) := by
  obtain ⟨hsplit, hstarts⟩ := splitNumber_spelled hw hrest
  cases w with
  | nil => cases hx
  | cons c cs =>
    obtain ⟨hmark, hothers⟩ := starts_of_startsNumber hstarts
    simp only [List.mem_cons, List.not_mem_nil, or_false, not_or] at hothers
    obtain ⟨hless, hgreater, hquote, hsingle⟩ := hothers
    have hscan : scanNumber (c :: (cs ++ rest)) = .ok (.number x, rest) := by
      rw [← List.cons_append, scanNumber, hsplit]
      simp only [hx]
    refine ⟨c, cs, rfl, ?_⟩
    rw [List.cons_append] at hstarts
    unfold scanToken
    rw [hmark]
    simp only [hless, hgreater, hquote, hsingle, hstarts, hscan, if_false, if_true]

/-- Nothing has to end the name of a sheet. -/
theorem scanToken_sheet (total : Nat) (s : String) (rest : List Char) :
    scanToken total '\'' (Text.doubled '\'' s.toList ++ ['\'', '!'] ++ rest) = .ok (.sheet s, rest) := by
  show scanSheet _ = _
  have hname : Text.readDelimited '\'' (Text.doubled '\'' s.toList ++ '\'' :: '!' :: rest) =
      some (s.toList, '!' :: rest) :=
    Text.readDelimited_doubled s.toList (by simp)
  rw [List.append_assoc, scanSheet, List.cons_append, List.cons_append, List.nil_append, hname]
  simp

theorem scanToken_text (total : Nat) (s : String) (hrest : Breaks rest) :
    scanToken total '"' (Text.doubled '"' s.toList ++ ['"'] ++ rest) = .ok (.text s, rest) := by
  show scanText _ = _
  have htext : Text.readDelimited '"' (Text.doubled '"' s.toList ++ '"' :: rest) = some (s.toList, rest) :=
    Text.readDelimited_doubled s.toList fun c hc => by
      rintro rfl
      exact absurd (hrest _ hc) (by decide)
  rw [List.append_assoc, scanText, List.cons_append, List.nil_append, htext]
  simp

/-- The marks that could go on end where they do not. -/
theorem scanToken_mark (total : Nat) (m : Mark) (hrest : ∀ c ∈ rest.head?, (Token.mark m).endsBefore c) :
    ∃ c cs, m.spelling.toList = c :: cs ∧ scanToken total c (cs ++ rest) = .ok (.mark m, rest) := by
  cases m with
  | less =>
    refine ⟨'<', [], rfl, ?_⟩
    cases rest with
    | nil => rfl
    | cons c rest =>
      obtain ⟨hequal, hgreater⟩ : c ≠ '=' ∧ c ≠ '>' := by simpa [Token.endsBefore] using hrest c rfl
      simp [scanToken, singleMark?, hequal, hgreater]
  | greater =>
    refine ⟨'>', [], rfl, ?_⟩
    cases rest with
    | nil => rfl
    | cons c rest =>
      have hequal : c ≠ '=' := by simpa [Token.endsBefore] using hrest c rfl
      simp [scanToken, singleMark?, hequal]
  | _ => exact ⟨_, _, rfl, rfl⟩

theorem exists_errorChars (e : ErrorValue) : ∃ cs, e.text.toList = '#' :: cs ∧ (∀ c ∈ cs, isErrorChar c) ∧
    ErrorValue.ofText? (String.ofList ('#' :: cs)) = some e := by
  cases e <;> exact ⟨_, rfl, List.all_eq_true.1 (by decide), by decide⟩

theorem scanToken_error (total : Nat) (e : ErrorValue) (hrest : ∀ c ∈ rest.head?, isErrorChar c = false) :
    ∃ c cs, e.text.toList = c :: cs ∧ scanToken total c (cs ++ rest) = .ok (.error e, rest) := by
  obtain ⟨cs, htext, hcs, he⟩ := exists_errorChars e
  refine ⟨'#', cs, htext, ?_⟩
  show Except.ok (scanError (cs ++ rest)) = _
  rw [scanError, Text.takeWhile_run hcs hrest, Text.dropWhile_run hcs hrest, he]

/-! ### Words -/

theorem isWordChar_of_isNameChar {c : Char} (h : isNameChar c) : isWordChar c := by
  simp only [isNameChar, Bool.or_eq_true, beq_iff_eq] at h
  simp only [isWordChar, Bool.or_eq_true, beq_iff_eq]
  exact h.imp_left Or.inl

theorem scanToken_name {s : String} (total : Nat) (hs : isName s) (hname : opensCall rest ∨ isReserved s = false)
    (hrest : Breaks rest) : ∃ c cs, s.toList = c :: cs ∧ scanToken total c (cs ++ rest) = .ok (.name s, rest) := by
  obtain ⟨c, cs, hchars, hc, hcs⟩ := exists_of_isName hs
  have hword : wordToken (c :: cs) rest = .name s := by
    rw [← hchars, wordToken, String.ofList_toList]
    rcases hname with hopens | hfree
    · rw [if_pos hopens]
    · simp only [isReserved, Bool.or_eq_false_iff] at hfree
      obtain ⟨⟨htrue, hfalse⟩, hcell⟩ := hfree
      simp [htrue, hfalse, hcell]
  refine ⟨c, cs, hchars, ?_⟩
  have hchars : ∀ d ∈ cs, isWordChar d := fun d hd => isWordChar_of_isNameChar (hcs d hd)
  rw [scanToken_word total (isWordStart_of_alphabetic hc) hchars hrest, hword]

theorem scanToken_boolean (total : Nat) (b : Bool) (hopens : opensCall rest = false) (hrest : Breaks rest) :
    ∃ c cs, (if b then "TRUE" else "FALSE").toList = c :: cs ∧
      scanToken total c (cs ++ rest) = .ok (.boolean b, rest) := by
  cases b with
  | true =>
    refine ⟨'T', "RUE".toList, rfl, ?_⟩
    rw [scanToken_word total (by decide) (List.all_eq_true.1 (by decide)) hrest, wordToken, hopens]
    rfl
  | false =>
    refine ⟨'F', "ALSE".toList, rfl, ?_⟩
    rw [scanToken_word total (by decide) (List.all_eq_true.1 (by decide)) hrest, wordToken, hopens]
    rfl

/-- No word with a digit in it is a truth value. -/
theorem equalIgnoringAsciiCase_of_digit {s word : String} {c : Char} (hc : c ∈ s.toList) (hdigit : isAsciiDigit c)
    (hword : (word.toList.map Text.asciiLowerChar).any isAsciiDigit = false) :
    Text.equalIgnoringAsciiCase s word = false := by
  have hsame : Text.asciiLowerChar c = c := by
    have hletter := Text.isAsciiLetter_of_digit hdigit
    rw [isAsciiLetter, Bool.or_eq_false_iff] at hletter
    rw [Text.asciiLowerChar, if_neg (by simp [hletter.2])]
  rw [Text.equalIgnoringAsciiCase, beq_eq_false_iff_ne]
  intro heq
  have hmem : c ∈ s.toList.map Text.asciiLowerChar := List.mem_map.2 ⟨c, hc, hsame⟩
  exact List.any_eq_false.1 hword c (heq ▸ hmem) hdigit

theorem scanToken_cell {a : Address} (total : Nat) (ha : a.InBounds) (hopens : opensCall rest = false)
    (hrest : Breaks rest) : ∃ c cs, a.writeCoordinates.toList = c :: cs ∧
      scanToken total c (cs ++ rest) = .ok (.cell a.writeCoordinates, rest) := by
  obtain ⟨c, cs, hchars, hc⟩ := a.exists_writeCoordinates
  obtain ⟨d, hd, hdigit⟩ := a.exists_digit_mem_writeCoordinates
  have hshape : isCellShaped (c :: cs) := hchars ▸ isCellShaped_writeCoordinates ha
  have hword : wordToken (c :: cs) rest = .cell a.writeCoordinates := by
    have htrue : Text.equalIgnoringAsciiCase a.writeCoordinates "TRUE" = false :=
      equalIgnoringAsciiCase_of_digit hd hdigit (by decide)
    have hfalse : Text.equalIgnoringAsciiCase a.writeCoordinates "FALSE" = false :=
      equalIgnoringAsciiCase_of_digit hd hdigit (by decide)
    rw [wordToken, hopens, hshape, ← hchars, String.ofList_toList, htrue, hfalse]
    rfl
  have hcs : ∀ d ∈ cs, isWordChar d := fun d hd => by
    have hmem : d ∈ a.writeCoordinates.toList := hchars ▸ List.mem_cons_of_mem c hd
    rcases a.mem_writeCoordinates hmem with hd | rfl
    · simp [isWordChar, hd]
    · decide
  refine ⟨c, cs, hchars, ?_⟩
  rw [scanToken_word total (isWordStart_of_coordinates hc) hcs hrest, hword]

/-- A spelled token is read back where it ends. -/
theorem scanToken_spelled (total : Nat) (h : Spells t w) (hrest : ∀ c ∈ rest.head?, t.endsBefore c)
    (ht : t.Legible (opensCall rest)) : ∃ c cs, w = c :: cs ∧ scanToken total c (cs ++ rest) = .ok (t, rest) := by
  cases h with
  | number hw hx => exact scanToken_number total hw hx hrest
  | text s => exact ⟨_, _, rfl, scanToken_text total s hrest⟩
  | boolean b => exact scanToken_boolean total b ht hrest
  | error e => exact scanToken_error total e fun c hc => isErrorChar_of_endsBefore (hrest c hc)
  | name s => exact scanToken_name total ht.1 ht.2 hrest
  | cell s =>
    obtain ⟨hopens, a, ha, rfl⟩ := ht
    exact scanToken_cell total ha hopens hrest
  | sheet s => exact ⟨_, _, rfl, scanToken_sheet total s rest⟩
  | mark m => exact scanToken_mark total m hrest

/-! ## Reading a text -/

/-- Whether a parenthesis comes first. -/
def opens : List Token → Bool
  | .mark .leftParen :: _ => true
  | _ => false

/-- Tokens none of which is taken for another one. -/
def Legible : List Token → Prop
  | [] => True
  | t :: ts => t.Legible (opens ts) ∧ Legible ts

/-- Tokens with a single space between them, which may be left out after the name of a sheet. -/
inductive Writes : List Token → List Char → Prop
  | last {t : Token} {w : List Char} (h : Spells t w) : Writes [t] w
  | space {t : Token} {w : List Char} {ts : List Token} {cs : List Char} (h : Spells t w) (hrest : Writes ts cs) :
      Writes (t :: ts) (w ++ ' ' :: cs)
  | sheet {s : String} {w : List Char} {ts : List Token} {cs : List Char} (h : Spells (.sheet s) w)
      (hrest : Writes ts cs) : Writes (.sheet s :: ts) (w ++ cs)

namespace TokenStream

/-- One token is read after blanks. -/
theorem ofChars_of_scan {total : Nat} {front after : List Char} {c : Char} (hfront : ∀ c ∈ front, isBlank c)
    (hc : isBlank c = false) (h : scanToken total c rest = .ok (t, after)) :
    ofChars total (front ++ c :: rest) = ⟨t :: (ofChars total after).tokens, (ofChars total after).fault⟩ := by
  have hcs : (front ++ c :: rest).dropWhile isBlank = c :: rest := Text.dropWhile_run hfront (by simp [hc])
  rw [ofChars]
  split
  · rename_i heq
    rw [hcs] at heq
    cases heq
  · rename_i heq
    rw [hcs] at heq
    cases heq
    split
    · rename_i heq
      rw [h] at heq
      cases heq
    · rename_i heq
      rw [h] at heq
      cases heq
      rfl

theorem ofChars_nil (total : Nat) : ofChars total [] = ⟨[], none⟩ := by
  rw [ofChars]
  rfl

end TokenStream

variable {ts : List Token} {cs : List Char}

/-- The first character of a text is that of its first token. -/
theorem Writes.firstChar (h : Writes ts cs) (hts : Legible ts) : ∃ t later c tail, ts = t :: later ∧ cs = c :: tail ∧
    isBlank c = false ∧ (∀ m, singleMark? c = some m → t = .mark m) ∧ (t = .mark .leftParen → c = '(') := by
  cases h with
  | last h =>
    obtain ⟨c, tail, rfl, hc⟩ := h.firstChar hts.1
    exact ⟨_, _, c, _, rfl, rfl, hc⟩
  | space h _ =>
    obtain ⟨c, tail, rfl, hc⟩ := h.firstChar hts.1
    exact ⟨_, _, c, _, rfl, rfl, hc⟩
  | sheet h _ =>
    obtain ⟨c, tail, rfl, hc⟩ := h.firstChar hts.1
    exact ⟨_, _, c, _, rfl, rfl, hc⟩

theorem Writes.lastChar (h : Writes ts cs) (hts : Legible ts) : ∀ c ∈ cs.getLast?, isBlank c = false := by
  induction h with
  | last h => exact h.lastChar hts.1
  | space _ hrest ih =>
    obtain ⟨_, _, c, tail, rfl, rfl, -⟩ := hrest.firstChar hts.2
    intro d hd
    rw [List.getLast?_append_cons, List.getLast?_cons_cons] at hd
    exact ih hts.2 d hd
  | sheet _ hrest ih =>
    obtain ⟨_, _, c, tail, rfl, rfl, -⟩ := hrest.firstChar hts.2
    rw [List.getLast?_append_cons]
    exact ih hts.2

/-- A parenthesis follows the word before a text where the first token is one. -/
theorem opensCall_front {later : List Token} {front tail : List Char} {c : Char} (hfront : ∀ c ∈ front, isBlank c)
    (hblank : isBlank c = false) (hmark : ∀ m, singleMark? c = some m → t = .mark m)
    (hparen : t = .mark .leftParen → c = '(') : opensCall (front ++ c :: tail) = opens (t :: later) := by
  rw [Formula.opensCall, Text.dropWhile_run hfront (by simp [hblank])]
  by_cases hc : c = '('
  · obtain rfl := hmark .leftParen (by rw [hc]; rfl)
    simp [hc, opens]
  · have ht : t ≠ .mark .leftParen := fun ht => hc (hparen ht)
    have hopens : opens (t :: later) = false := by
      unfold opens
      split
      · rename_i heq
        exact absurd (List.cons.inj heq).1 ht
      · rfl
    simp [hc, hopens]

theorem Writes.opensCall (h : Writes ts cs) (hts : Legible ts) {front : List Char} (hfront : ∀ c ∈ front, isBlank c) :
    opensCall (front ++ cs) = opens ts := by
  obtain ⟨t, later, c, tail, rfl, rfl, hblank, hmark, hparen⟩ := h.firstChar hts
  exact opensCall_front hfront hblank hmark hparen

/-- The tokens of a text are read back, and nothing is wrong with it. -/
theorem ofChars_writes (total : Nat) (h : Writes ts cs) (hts : Legible ts) {front : List Char}
    (hfront : ∀ c ∈ front, isBlank c) : TokenStream.ofChars total (front ++ cs) = ⟨ts, none⟩ := by
  induction h generalizing front with
  | last h =>
    obtain ⟨c, tail, rfl, hblank, -⟩ := h.firstChar hts.1
    obtain ⟨_, _, ⟨⟩, hscan⟩ := scanToken_spelled total h (Token.endsBefore_nil _) hts.1
    rw [List.append_nil] at hscan
    rw [TokenStream.ofChars_of_scan hfront hblank hscan, TokenStream.ofChars_nil]
  | @space _ _ ts cs h hrest ih =>
    have hspace : ∀ c ∈ [' '], isBlank c := List.forall_mem_singleton.2 (by decide)
    obtain ⟨c, tail, rfl, hblank, -⟩ := h.firstChar hts.1
    have hstops : Stops ([' '] ++ cs) := by simp [Stops]
    obtain ⟨_, _, ⟨⟩, hscan⟩ := scanToken_spelled total h hstops.endsBefore (hrest.opensCall hts.2 hspace ▸ hts.1)
    rw [show c :: tail ++ ' ' :: cs = c :: (tail ++ ([' '] ++ cs)) from rfl,
      TokenStream.ofChars_of_scan hfront hblank hscan, ih hts.2 hspace]
  | @sheet s _ ts cs h hrest ih =>
    cases h with
    | sheet =>
      rw [List.cons_append, TokenStream.ofChars_of_scan hfront (by decide) (scanToken_sheet total s cs),
        ← List.nil_append cs, ih hts.2 (List.forall_mem_nil _)]

end Spreadsheet.Formula
