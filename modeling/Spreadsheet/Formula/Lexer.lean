import Spreadsheet.Formula.Error
import Spreadsheet.Text.Delimited
import Spreadsheet.Text.Case

/-!
# Reading tokens

White space separates tokens and counts for nothing else. Every token is the longest one at its place,
but an exponent belongs to a number only when digits follow, and a word with `(` after it is a name
even when it is spelt like a cell (`LOG10(`) or a truth value.

* `scanToken` : the token at the front of a text that starts with no blank;
* `TokenStream.ofChars` : all tokens of a text up to where it stops being readable.
-/

namespace Spreadsheet.Formula

open Text (isAsciiDigit isAsciiLetter isAsciiAlphanumeric isAlphabetic isAlphanumeric isBlank)

/-- The marks of one character that start no other mark. -/
def singleMark? : Char → Option Mark
  | '+' => some .plus
  | '-' => some .minus
  | '*' => some .star
  | '/' => some .slash
  | '^' => some .caret
  | '%' => some .percent
  | '&' => some .ampersand
  | '=' => some .equal
  | ':' => some .colon
  | ',' => some .comma
  | ';' => some .semicolon
  | '(' => some .leftParen
  | ')' => some .rightParen
  | '\x7b' => some .leftBrace
  | '\x7d' => some .rightBrace
  | _ => none

/-! ## Numbers -/

/-- A point and the digits after it, if a point comes next, and the rest. -/
def splitPoint : List Char → List Char × List Char
  | '.' :: cs => ('.' :: cs.takeWhile isAsciiDigit, cs.dropWhile isAsciiDigit)
  | cs => ([], cs)

/-- An exponent with digits, if one comes next, and the rest. -/
def splitExponent (cs : List Char) : List Char × List Char :=
  match cs with
  | e :: s :: d :: rest =>
    if e ≠ 'e' ∧ e ≠ 'E' then ([], cs)
    else if isAsciiDigit s then
      (e :: (s :: d :: rest).takeWhile isAsciiDigit, (s :: d :: rest).dropWhile isAsciiDigit)
    else if (s = '+' ∨ s = '-') ∧ isAsciiDigit d then
      (e :: s :: (d :: rest).takeWhile isAsciiDigit, (d :: rest).dropWhile isAsciiDigit)
    else ([], cs)
  | [e, d] =>
    if (e = 'e' ∨ e = 'E') ∧ isAsciiDigit d then ([e, d], []) else ([], cs)
  | _ => ([], cs)

/-- The numeral at the front of a text, and the rest. -/
def splitNumber (cs : List Char) : List Char × List Char :=
  let whole := cs.takeWhile isAsciiDigit
  let (point, afterPoint) := splitPoint (cs.dropWhile isAsciiDigit)
  let (exponent, rest) := splitExponent afterPoint
  (whole ++ point ++ exponent, rest)

/-- Numbers start with a digit, or a point and a digit. -/
def startsNumber : List Char → Bool
  | c :: cs => isAsciiDigit c || (c == '.' && match cs with
    | d :: _ => isAsciiDigit d
    | [] => false)
  | [] => false

def scanNumber (cs : List Char) : Except ParseFault (Token × List Char) :=
  let (numeral, rest) := splitNumber cs
  match Decimal.decimalFloat? numeral with
  | some x => .ok (.number x, rest)
  | none => .error (.numberInvalid (String.ofList numeral))

/-! ## Words -/

def isWordChar (c : Char) : Bool := isAlphanumeric c || c == '_' || c == '$' || c == '.'

def isErrorChar (c : Char) : Bool := isAsciiAlphanumeric c || c == '!' || c == '/' || c == '?'

/-- Drops one `$` from the front. -/
def dropDollar : List Char → List Char
  | '$' :: cs => cs
  | cs => cs

/-- One to three letters and some digits, with an optional `$` before each of them. -/
def isCellShaped (word : List Char) : Bool :=
  let letters := (dropDollar word).takeWhile isAsciiLetter
  let digits := dropDollar ((dropDollar word).dropWhile isAsciiLetter)
  !letters.isEmpty && letters.length ≤ 3 && !digits.isEmpty && digits.all isAsciiDigit

/-- Whether the next character that is not blank opens a parenthesis. -/
def opensCall (cs : List Char) : Bool :=
  match cs.dropWhile isBlank with
  | c :: _ => c == '('
  | [] => false

/-- The token of a word, given what follows it. -/
def wordToken (word rest : List Char) : Token :=
  let s := String.ofList word
  if opensCall rest then .name s
  else if Text.equalIgnoringAsciiCase s "TRUE" then .boolean true
  else if Text.equalIgnoringAsciiCase s "FALSE" then .boolean false
  else if isCellShaped word then .cell s
  else .name s

/-- A word that starts with `c`; a `!` right after it makes it the name of a sheet. -/
def scanWord (c : Char) (cs : List Char) : Token × List Char :=
  let word := c :: cs.takeWhile isWordChar
  match cs.dropWhile isWordChar with
  | '!' :: rest => (.sheet (String.ofList word), rest)
  | rest => (wordToken word rest, rest)

/-- An error value after its `#`; any other word that starts so is a name. -/
def scanError (cs : List Char) : Token × List Char :=
  let word := String.ofList ('#' :: cs.takeWhile isErrorChar)
  let token := match ErrorValue.ofText? word with
    | some e => .error e
    | none => .name word
  (token, cs.dropWhile isErrorChar)

def scanText (cs : List Char) : Except ParseFault (Token × List Char) :=
  match Text.readDelimited '"' cs with
  | some (text, rest) => .ok (.text (String.ofList text), rest)
  | none => .error .textUnterminated

/-- A sheet name in quotes, after the opening one. -/
def scanSheet (cs : List Char) : Except ParseFault (Token × List Char) :=
  match Text.readDelimited '\'' cs with
  | some (name, '!' :: rest) => .ok (.sheet (String.ofList name), rest)
  | some (name, _) => .error (.bangMissing (String.ofList name))
  | none => .error .sheetUnterminated

/-! ## Tokens -/

/-- Bytes that a text takes up. -/
def byteLength (cs : List Char) : Nat := cs.foldl (fun n c => n + c.utf8Size) 0

/-- The token at the front of `c :: cs`, where `c` is not blank; `total` is the length in bytes of
the whole formula, from which positions in messages count. -/
def scanToken (total : Nat) (c : Char) (cs : List Char) :
    Except ParseFault (Token × List Char) :=
  match singleMark? c with
  | some m => .ok (.mark m, cs)
  | none =>
    if c = '<' then
      match cs with
      | '=' :: rest => .ok (.mark .lessEqual, rest)
      | '>' :: rest => .ok (.mark .notEqual, rest)
      | _ => .ok (.mark .less, cs)
    else if c = '>' then
      match cs with
      | '=' :: rest => .ok (.mark .greaterEqual, rest)
      | _ => .ok (.mark .greater, cs)
    else if c = '"' then scanText cs
    else if c = '\'' then scanSheet cs
    else if startsNumber (c :: cs) then scanNumber (c :: cs)
    else if c = '#' then .ok (scanError cs)
    else if isAlphabetic c || c == '_' || c == '$' then .ok (scanWord c cs)
    else .error (.unexpectedCharacter c (total - byteLength (c :: cs)))

/-! ### A token takes at least one character -/

theorem length_splitPoint_le (cs : List Char) : (splitPoint cs).2.length ≤ cs.length := by
  unfold splitPoint
  split
  · have := Text.length_dropWhile_le isAsciiDigit ‹List Char›
    simp only [List.length_cons]; omega
  · exact Nat.le_refl _

theorem length_splitExponent_le (cs : List Char) : (splitExponent cs).2.length ≤ cs.length := by
  unfold splitExponent
  split
  · rename_i e s d rest
    have h1 := Text.length_dropWhile_le isAsciiDigit (s :: d :: rest)
    have h2 := Text.length_dropWhile_le isAsciiDigit (d :: rest)
    simp only [List.length_cons] at h1 h2
    split
    · exact Nat.le_refl _
    · split
      · simp only [List.length_cons]; omega
      · split
        · simp only [List.length_cons]; omega
        · exact Nat.le_refl _
  · split <;> simp
  · exact Nat.le_refl _

theorem length_splitNumber_lt {c : Char} {cs : List Char} (h : startsNumber (c :: cs) = true) :
    (splitNumber (c :: cs)).2.length < (c :: cs).length := by
  have hpoint := length_splitPoint_le ((c :: cs).dropWhile isAsciiDigit)
  have hexp := length_splitExponent_le (splitPoint ((c :: cs).dropWhile isAsciiDigit)).2
  simp only [splitNumber]
  by_cases hd : isAsciiDigit c = true
  · have hdrop : (c :: cs).dropWhile isAsciiDigit = cs.dropWhile isAsciiDigit := by
      simp [hd]
    rw [hdrop] at hpoint hexp ⊢
    have := Text.length_dropWhile_le isAsciiDigit cs
    simp only [List.length_cons]; omega
  · have hdrop : (c :: cs).dropWhile isAsciiDigit = c :: cs := by simp [hd]
    rw [hdrop] at hexp ⊢
    have hc : c = '.' := by
      simp only [startsNumber, Bool.or_eq_true, Bool.and_eq_true, beq_iff_eq] at h
      rcases h with h | h
      · exact absurd h hd
      · exact h.1
    subst hc
    have := Text.length_dropWhile_le isAsciiDigit cs
    simp only [splitPoint] at hexp ⊢
    simp only [List.length_cons]; omega

theorem length_of_scanToken {total : Nat} {c : Char} {cs rest : List Char} {t : Token}
    (h : scanToken total c cs = .ok (t, rest)) : rest.length < (c :: cs).length := by
  unfold scanToken at h
  split at h
  · simp only [Except.ok.injEq, Prod.mk.injEq] at h
    simp [← h.2]
  split at h
  · split at h <;> simp only [Except.ok.injEq, Prod.mk.injEq] at h <;>
      simp only [← h.2, List.length_cons] <;> omega
  split at h
  · split at h <;> simp only [Except.ok.injEq, Prod.mk.injEq] at h <;>
      simp only [← h.2, List.length_cons] <;> omega
  split at h
  · unfold scanText at h
    split at h
    · rename_i heq
      simp only [Except.ok.injEq, Prod.mk.injEq] at h
      have := Text.length_of_readDelimited heq
      simp only [List.length_cons, ← h.2]; omega
    · simp at h
  split at h
  · unfold scanSheet at h
    split at h
    · rename_i heq
      simp only [Except.ok.injEq, Prod.mk.injEq] at h
      have := Text.length_of_readDelimited heq
      simp only [List.length_cons, ← h.2] at this ⊢; omega
    · simp at h
    · simp at h
  split at h
  · rename_i hs
    have := length_splitNumber_lt hs
    unfold scanNumber at h
    dsimp only at h
    split at h
    · simp only [Except.ok.injEq, Prod.mk.injEq] at h
      rw [← h.2]; exact this
    · simp at h
  split at h
  · have := Text.length_dropWhile_le isErrorChar cs
    simp only [scanError, Except.ok.injEq, Prod.mk.injEq] at h
    simp only [List.length_cons, ← h.2]; omega
  split at h
  · have := Text.length_dropWhile_le isWordChar cs
    simp only [scanWord, Except.ok.injEq] at h
    split at h
    · rename_i heq
      rw [heq] at this
      simp only [Prod.mk.injEq] at h
      simp only [List.length_cons, ← h.2] at this ⊢; omega
    · simp only [Prod.mk.injEq] at h
      simp only [List.length_cons, ← h.2]; omega
  · simp at h

/-- The tokens of a text, and what is wrong where they end, if something is. -/
structure TokenStream where
  tokens : List Token
  fault : Option ParseFault

namespace TokenStream

/-- Reads tokens to the end of the text or to a fault. -/
def ofChars (total : Nat) (cs : List Char) : TokenStream :=
  match _hcs : cs.dropWhile isBlank with
  | [] => ⟨[], none⟩
  | c :: rest =>
    match _h : scanToken total c rest with
    | .error fault => ⟨[], some fault⟩
    | .ok (t, rest) =>
      let later := ofChars total rest
      ⟨t :: later.tokens, later.fault⟩
termination_by cs.length
decreasing_by
  have h1 := length_of_scanToken _h
  have h2 := Text.length_dropWhile_le isBlank cs
  rw [_hcs] at h2
  omega

/-- The tokens of a formula. -/
def ofText (formula : List Char) : TokenStream := ofChars (byteLength formula) formula

end TokenStream

end Spreadsheet.Formula
