import Spreadsheet.Binary64.Integral
import Spreadsheet.Decimal.Layout

/-!
# Numbers with a fixed count of digits

* `roundHalfAway` : a float rounded to decimal places, a half away from zero, with a nudge that
  makes up for decimals that binary cannot hold (`1.005` counts as a half at two places);
* `exactPlaces`, `exactScientific` : the exact value of a float to so many places, or to so many
  places of its mantissa, a half to the even neighbour;
* `groupThousands` : commas between the thousands of a numeral;
* `formatFixed`, `formatCurrency`, `formatScientific` : what number codes show.
-/

namespace Spreadsheet.Format

open Binary64 (exact nearest signum epsilon)

/-- A power of ten as a float. -/
def powerOfTen (n : Nat) : Float := Binary64.natPower 10.0 n

/-- A float at `digits` decimal places; with negative `digits`, at a power of ten. -/
def roundHalfAway (value : Float) (digits : Int) : Float :=
  if digits < 0 then
    let divisor := powerOfTen digits.natAbs
    nearest (value / divisor) * divisor
  else
    let multiplier := powerOfTen digits.natAbs
    let scaled := value * multiplier
    let nudged := scaled + signum scaled * scaled.abs * epsilon * 4.0
    nearest nudged / multiplier

/-! ## Exact digits -/

def signed (negative : Bool) (digits : List Char) : List Char :=
  if negative then '-' :: digits else digits

/-- The words for what has no digits. -/
def nanText : List Char := "NaN".toList

def infinityText : List Char := "inf".toList

/-- A float with so many decimal places. -/
def exactPlaces (value : Float) (places : Nat) : List Char :=
  match exact value with
  | .nan => nanText
  | .infinite negative => signed negative infinityText
  | .finite b =>
    signed b.negative
      (Decimal.fixedPoint (Decimal.toPlaces b.numerator b.denominator places) places)

/-- Mantissa with so many decimal places, and exponent; the value is finite. -/
def scientificParts (b : Binary64.Binary) (places : Nat) : List Char × Int :=
  if b.mantissa = 0 then (signed b.negative (Decimal.fixedPoint 0 places), 0)
  else
    let (digits, e) := Decimal.significant b.numerator b.denominator (places + 1)
    (signed b.negative (Decimal.fixedPoint digits places), e)

/-- Mantissa and exponent as sheets write them, the exponent with a sign and at least two digits. -/
def joinExponent (mantissa : List Char) (e : Int) : List Char :=
  mantissa ++ 'E' :: (if e < 0 then '-' else '+') :: Decimal.padded 2 e.natAbs

def exactScientific (value : Float) (places : Nat) : List Char :=
  match exact value with
  | .nan => nanText
  | .infinite negative => signed negative infinityText
  | .finite b =>
    let (mantissa, e) := scientificParts b places
    joinExponent mantissa e

/-! ## Thousands -/

/-- Commas so that three digits follow each of them. -/
def groupDigits : List Char → List Char
  | [] => []
  | c :: cs =>
    if cs.length % 3 = 0 ∧ cs ≠ [] then c :: ',' :: groupDigits cs else c :: groupDigits cs

/-- Commas in the part of a numeral before its point. -/
def groupThousands (cs : List Char) : List Char :=
  groupDigits (cs.takeWhile (· != '.')) ++ cs.dropWhile (· != '.')

/-! ## What codes show -/

def formatFixedChars (value : Float) (decimals : Nat) (thousands : Bool) : List Char :=
  let rounded := roundHalfAway value decimals
  let body := exactPlaces rounded.abs decimals
  let body := if thousands then groupThousands body else body
  signed (rounded < 0.0) body

/-- Fixed decimals, with commas between the thousands if asked for. -/
def formatFixed (value : Float) (decimals : Nat) (thousands : Bool) : String :=
  String.ofList (formatFixedChars value decimals thousands)

/-- The sign stands before the currency symbol. -/
def formatCurrency (value : Float) (decimals : Nat) (thousands : Bool) : String :=
  let body := '$' :: formatFixedChars value.abs decimals thousands
  String.ofList (signed (roundHalfAway value decimals < 0.0) body)

def formatPercent (value : Float) (decimals : Nat) (thousands : Bool) : String :=
  String.ofList (formatFixedChars (value * 100.0) decimals thousands ++ ['%'])

def formatScientific (value : Float) (decimals : Nat) : String :=
  String.ofList (exactScientific value decimals)

end Spreadsheet.Format
