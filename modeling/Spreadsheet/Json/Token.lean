import Spreadsheet.Json.Numeral

/-!
# Tokens of JSON text

Text is split into marks, words, numbers and strings, between which blanks do not count. A string is
read into code units first, because an escape gives half of a surrogate pair at a time.

* `JsonToken`; `JsonToken.ofText?` : all tokens of a text;
* `stringUnits?`, `textOfUnits?` : the units of a string and the text they make up.
-/

namespace Spreadsheet

inductive JsonToken where
  | openArray
  | closeArray
  | openObject
  | closeObject
  | comma
  | colon
  | null
  | boolean (b : Bool)
  | number (n : JsonNumeral)
  /-- A string, unless its escapes make no text. -/
  | text (s : Option String)
deriving DecidableEq, Repr

namespace JsonToken

/-! ## Strings -/

def hexDigit? (c : Char) : Option Nat :=
  if '0' ≤ c && c ≤ '9' then some (c.toNat - '0'.toNat)
  else if 'a' ≤ c && c ≤ 'f' then some (c.toNat - 'a'.toNat + 10)
  else if 'A' ≤ c && c ≤ 'F' then some (c.toNat - 'A'.toNat + 10)
  else none

/-- The number that four hexadecimal digits write. -/
def hexUnit? (a b c d : Char) : Option Nat := do
  return ((((← hexDigit? a) * 16 + (← hexDigit? b)) * 16 + (← hexDigit? c)) * 16 + (← hexDigit? d))

/-- The character that an escape of one letter stands for. -/
def escaped? : Char → Option Char
  | '"' => some '"'
  | '\\' => some '\\'
  | '/' => some '/'
  | 'b' => some '\x08'
  | 'f' => some '\x0c'
  | 'n' => some '\n'
  | 'r' => some '\r'
  | 't' => some '\t'
  | _ => none

/-- The units of a string up to its closing quote, put in front of those in `read`, which holds them
in reverse, and what follows. -/
def stringUnits? (read : List Nat) : List Char → Option (List Nat × List Char)
  | [] => none
  | '"' :: rest => some (read.reverse, rest)
  | '\\' :: 'u' :: a :: b :: c :: d :: rest =>
    match hexUnit? a b c d with
    | some unit => stringUnits? (unit :: read) rest
    | none => none
  | '\\' :: c :: rest =>
    match escaped? c with
    | some c => stringUnits? (c.toNat :: read) rest
    | none => none
  | c :: rest => if c.toNat < 0x20 then none else stringUnits? (c.toNat :: read) rest

def isHighSurrogate (unit : Nat) : Bool := 0xD800 ≤ unit && unit < 0xDC00

def isLowSurrogate (unit : Nat) : Bool := 0xDC00 ≤ unit && unit < 0xE000

/-- The characters of code units; a surrogate has to be one of a pair. -/
def charsOfUnits? : List Nat → Option (List Char)
  | [] => some []
  | unit :: rest =>
    if isLowSurrogate unit then none
    else if isHighSurrogate unit then
      match rest with
      | low :: rest =>
        if isLowSurrogate low then
          (charsOfUnits? rest).map (Char.ofNat (0x10000 + (unit - 0xD800) * 0x400 + (low - 0xDC00)) :: ·)
        else none
      | [] => none
    else (charsOfUnits? rest).map (Char.ofNat unit :: ·)

def textOfUnits? (units : List Nat) : Option String := (charsOfUnits? units).map String.ofList

/-! ## Tokens -/

def isSpace (c : Char) : Bool := c == ' ' || c == '\n' || c == '\t' || c == '\r'

/-- The mark that a character is. -/
def mark? : Char → Option JsonToken
  | '[' => some openArray
  | ']' => some closeArray
  | '\x7b' => some openObject
  | '\x7d' => some closeObject
  | ',' => some comma
  | ':' => some colon
  | _ => none

/-- Reads the token at the front of a text that begins with no blank. -/
def next? : List Char → Option (JsonToken × List Char)
  | 'n' :: 'u' :: 'l' :: 'l' :: rest => some (null, rest)
  | 't' :: 'r' :: 'u' :: 'e' :: rest => some (boolean true, rest)
  | 'f' :: 'a' :: 'l' :: 's' :: 'e' :: rest => some (boolean false, rest)
  | '"' :: rest => (stringUnits? [] rest).map fun (units, rest) => (text (textOfUnits? units), rest)
  | c :: rest =>
    match mark? c with
    | some t => some (t, rest)
    | none => (JsonNumeral.read? (c :: rest)).map fun (n, rest) => (number n, rest)
  | [] => none

/-! ### Reading a token shortens the text -/

theorem length_of_stringUnits? {read units : List Nat} {cs rest : List Char}
    (h : stringUnits? read cs = some (units, rest)) : rest.length < cs.length := by
  fun_induction stringUnits? read cs with
  | case1 => simp at h
  | case2 => simp_all
  | case3 _ _ _ _ _ _ _ _ ih => have := ih h; simp only [List.length_cons]; omega
  | case4 => simp at h
  | case5 _ _ _ _ _ _ ih => have := ih h; simp only [List.length_cons]; omega
  | case6 => simp at h
  | case7 => simp at h
  | case8 _ _ _ _ _ _ _ ih => have := ih h; simp only [List.length_cons]; omega

theorem length_dropWhile_lt {α : Type} {p : α → Bool} {l : List α} (h : (l.takeWhile p).isEmpty = false) :
    (l.dropWhile p).length < l.length := by
  cases l with
  | nil => simp at h
  | cons a l =>
    cases ha : p a with
    | false => simp [ha] at h
    | true =>
      have := Text.length_dropWhile_le p l
      simp only [List.dropWhile_cons, ha, if_true, List.length_cons]
      omega

theorem length_of_readFraction? {cs ds rest : List Char}
    (h : JsonNumeral.readFraction? cs = some (ds, rest)) : rest.length ≤ cs.length := by
  unfold JsonNumeral.readFraction? at h
  split at h
  · simp only at h
    split at h
    · simp at h
    · simp only [Option.some.injEq, Prod.mk.injEq] at h
      have := Text.length_dropWhile_le Text.isAsciiDigit ‹List Char›
      simp only [← h.2, List.length_cons]
      omega
  · simp_all

theorem length_readSign (cs : List Char) : (JsonNumeral.readSign cs).2.length ≤ cs.length := by
  unfold JsonNumeral.readSign
  split <;> simp

theorem length_of_readExponent? {cs rest : List Char} {e : Option Int}
    (h : JsonNumeral.readExponent? cs = some (e, rest)) : rest.length ≤ cs.length := by
  unfold JsonNumeral.readExponent? at h
  split at h
  · next c tail =>
    split at h
    · simp only [Option.ite_none_left_eq_some, Option.some.injEq, Prod.mk.injEq] at h
      have h1 := Text.length_dropWhile_le Text.isAsciiDigit (JsonNumeral.readSign tail).2
      have h2 := length_readSign tail
      rw [← h.2.2, List.length_cons]
      omega
    · simp_all
  · simp_all

theorem length_of_readUnsigned? {negative : Bool} {cs rest : List Char} {n : JsonNumeral}
    (h : JsonNumeral.readUnsigned? negative cs = some (n, rest)) : rest.length < cs.length := by
  simp only [JsonNumeral.readUnsigned?, Option.bind_eq_bind] at h
  split at h
  · simp at h
  · next hw =>
    simp only [Bool.or_eq_true, not_or] at hw
    have h0 := length_dropWhile_lt (Bool.eq_false_iff.2 hw.1)
    cases hf : JsonNumeral.readFraction? (cs.dropWhile Text.isAsciiDigit) with
    | none => simp [hf] at h
    | some f =>
      cases he : JsonNumeral.readExponent? f.2 with
      | none => simp [hf, he] at h
      | some e =>
        have h1 := @length_of_readFraction? _ f.1 f.2 hf
        have h2 := @length_of_readExponent? _ e.2 e.1 he
        simp [hf, he] at h
        rw [← h.2]
        omega

theorem length_of_read? {cs rest : List Char} {n : JsonNumeral}
    (h : JsonNumeral.read? cs = some (n, rest)) : rest.length < cs.length := by
  unfold JsonNumeral.read? at h
  split at h
  · have := length_of_readUnsigned? h
    simp only [List.length_cons]
    omega
  · exact length_of_readUnsigned? h

theorem length_of_next? {cs rest : List Char} {t : JsonToken} (h : next? cs = some (t, rest)) :
    rest.length < cs.length := by
  unfold next? at h
  split at h
  · simp_all; omega
  · simp_all; omega
  · simp_all; omega
  · obtain ⟨⟨units, r⟩, hr, heq⟩ := Option.map_eq_some_iff.1 h
    have := length_of_stringUnits? hr
    simp only [Prod.mk.injEq] at heq
    simp only [List.length_cons, ← heq.2]
    omega
  · split at h
    · simp_all
    · obtain ⟨⟨n, r⟩, hr, heq⟩ := Option.map_eq_some_iff.1 h
      simp only [Prod.mk.injEq] at heq
      rw [← heq.2]
      exact length_of_read? hr
  · simp at h

/-- The tokens of a text, put behind those in `read`, which holds them in reverse. -/
def collect? (read : List JsonToken) (cs : List Char) : Option (List JsonToken) :=
  match cs with
  | [] => some read.reverse
  | c :: rest =>
    if isSpace c then collect? read rest
    else match _h : next? (c :: rest) with
      | some (t, after) => collect? (t :: read) after
      | none => none
termination_by cs.length
decreasing_by
  · exact Nat.lt_succ_self _
  · exact length_of_next? _h

def ofText? (cs : List Char) : Option (List JsonToken) := collect? [] cs

end JsonToken

end Spreadsheet
