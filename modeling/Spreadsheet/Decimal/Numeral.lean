import Spreadsheet.Binary64.Number
import Spreadsheet.Text.Case

/-!
# Reading numerals

A numeral is an optional sign and then either a word (`inf`, `infinity` or `nan` in any case), or
digits with an optional point among or around them and an optional exponent. Nothing else may stand
in the text, blanks included. The value is the float nearest to the decimal, and infinity beyond the
largest float.

* `digitsValue` : the number a list of digits writes;
* `unsignedFloat?`, `number?` : reading a numeral without and with a sign, which a NaN keeps;
* `trimmedNumber?`, `trimmedFloat?` : reading one with blanks around it.
-/

namespace Spreadsheet.Decimal

open Binary64 (Number)
open Text (isAsciiDigit asciiLowerChar)

def digitValue (c : Char) : Nat := c.toNat - '0'.toNat

def digitsValue (cs : List Char) : Nat := cs.foldl (fun n c => 10 * n + digitValue c) 0

def infinity : Float := 1.0 / 0.0

/-- The float nearest to `n · 10 ^ e`. Powers that lead far out of range are not computed: `n` is at
least one and less than `10 ^ (log2 n / 3 + 1)`. -/
def nearestFloat (n : Nat) (e : Int) : Float :=
  if n = 0 then 0.0
  else if 400 < e then infinity
  else if e + n.log2 / 3 + 1 < -400 then 0.0
  else Float.ofScientific n (e < 0) e.natAbs

/-- The value of an exponent part: an optional sign and at least one digit. -/
def exponent? : List Char → Option Int
  | '-' :: ds => if !ds.isEmpty && ds.all isAsciiDigit then some (-(digitsValue ds : Int)) else none
  | '+' :: ds => if !ds.isEmpty && ds.all isAsciiDigit then some (digitsValue ds) else none
  | ds => if !ds.isEmpty && ds.all isAsciiDigit then some (digitsValue ds) else none

/-- Splits off the fraction digits after a point. -/
def splitFraction : List Char → List Char × List Char
  | '.' :: cs => (cs.takeWhile isAsciiDigit, cs.dropWhile isAsciiDigit)
  | cs => ([], cs)

/-- Digits with an optional point and exponent. -/
def decimalFloat? (cs : List Char) : Option Float :=
  let whole := cs.takeWhile isAsciiDigit
  let (fraction, rest) := splitFraction (cs.dropWhile isAsciiDigit)
  if whole.isEmpty && fraction.isEmpty then none
  else
    let n := digitsValue (whole ++ fraction)
    let places : Int := fraction.length
    match rest with
    | [] => some (nearestFloat n (-places))
    | c :: part =>
      if asciiLowerChar c == 'e' then (exponent? part).map fun e => nearestFloat n (e - places)
      else none

def unsignedFloat? (cs : List Char) : Option Float :=
  let word := cs.map asciiLowerChar
  if word == "inf".toList || word == "infinity".toList then some infinity
  else if word == "nan".toList then some Binary64.nan
  else decimalFloat? cs

/-- The number a list of characters writes. -/
def numberOfChars? : List Char → Option Number
  | '-' :: cs => (unsignedFloat? cs).map fun x => -Number.ofFloat x
  | '+' :: cs => (unsignedFloat? cs).map .ofFloat
  | cs => (unsignedFloat? cs).map .ofFloat

/-- The number a text writes. -/
def number? (s : String) : Option Number := numberOfChars? s.toList

/-- The number a text writes once blanks at its ends are dropped. -/
def trimmedNumber? (s : String) : Option Number := number? (Text.trim s)

def trimmedFloat? (s : String) : Option Float := (trimmedNumber? s).map Number.float

end Spreadsheet.Decimal
