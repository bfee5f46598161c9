import Spreadsheet.Text.CharRanges

/-!
# Character classes and trimming

Formulas, names and dates are read by the Unicode properties of characters, not by ASCII alone.

* `isAlphabetic`, `isAlphanumeric`, `isDecimalDigit` : letters, letters and numbers of any kind,
  and the digits of any script;
* `isAsciiLetter`, `isAsciiDigit` : the ASCII part, which references and numbers are limited to;
* `isBlank` : white space, and `trim`, which drops it from both ends;
* `isUnprintable` : what quoted text shows by number.
-/

namespace Spreadsheet.Text

/-- Whether a code point lies in one of the ranges. -/
def inRanges (ranges : List (Nat × Nat)) (n : Nat) : Bool :=
  ranges.any fun r => r.1 ≤ n && n ≤ r.2

def isAsciiLower (c : Char) : Bool := 'a' ≤ c && c ≤ 'z'

def isAsciiUpper (c : Char) : Bool := 'A' ≤ c && c ≤ 'Z'

def isAsciiLetter (c : Char) : Bool := isAsciiLower c || isAsciiUpper c

def isAsciiDigit (c : Char) : Bool := '0' ≤ c && c ≤ '9'

def isAsciiAlphanumeric (c : Char) : Bool := isAsciiLetter c || isAsciiDigit c

def isAlphabetic (c : Char) : Bool :=
  if c.toNat < 0x80 then isAsciiLetter c else inRanges CharRanges.alphabetic c.toNat

/-- Digits, letter numbers (such as `Ⅷ`) and other numbers (such as `½`). -/
def isNumeric (c : Char) : Bool :=
  if c.toNat < 0x80 then isAsciiDigit c else inRanges CharRanges.numeric c.toNat

def isAlphanumeric (c : Char) : Bool := isAlphabetic c || isNumeric c

def isDecimalDigit (c : Char) : Bool :=
  if c.toNat < 0x80 then isAsciiDigit c else inRanges CharRanges.decimalDigit c.toNat

def isCased (c : Char) : Bool :=
  if c.toNat < 0x80 then isAsciiLetter c else inRanges CharRanges.cased c.toNat

/-- Characters that a word may hold besides letters, such as an apostrophe or an accent. -/
def isCaseIgnorable (c : Char) : Bool :=
  if c.toNat < 0x80 then ['\'', '.', ':', '^', Char.ofNat 0x60].contains c
  else inRanges CharRanges.caseIgnorable c.toNat

def isUnprintable (c : Char) : Bool :=
  if c.toNat < 0x80 then c.toNat < 0x20 || c.toNat == 0x7F
  else inRanges CharRanges.unprintable c.toNat

/-! ## Dropping characters -/

/-- What is left is no longer. -/
theorem length_dropWhile_le {α : Type} (p : α → Bool) (l : List α) :
    (l.dropWhile p).length ≤ l.length := (List.dropWhile_suffix p).length_le

/-! ## White space -/

/-- Characters with the Unicode property of white space. -/
def isBlank (c : Char) : Bool :=
  inRanges [(0x09, 0x0D), (0x20, 0x20), (0x85, 0x85), (0xA0, 0xA0), (0x1680, 0x1680),
    (0x2000, 0x200A), (0x2028, 0x2029), (0x202F, 0x202F), (0x205F, 0x205F), (0x3000, 0x3000)]
    c.toNat

/-- The characters that are left once those satisfying `p` are dropped from the end. -/
def dropEndWhile (p : Char → Bool) (cs : List Char) : List Char :=
  (cs.reverse.dropWhile p).reverse

def trimChars (cs : List Char) : List Char := dropEndWhile isBlank (cs.dropWhile isBlank)

/-- Text without the white space at its ends. -/
def trim (s : String) : String := String.ofList (trimChars s.toList)

end Spreadsheet.Text
