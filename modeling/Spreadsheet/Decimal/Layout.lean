import Spreadsheet.Decimal.Shortest

/-!
# Laying out digits

* `fixedPoint` : a count of `10 ^ -places` as a numeral with that many places;
* `Style` : when a numeral is positional, what a whole number ends in, and which digits are taken;
  `Style.lay` lays out digits by it;
* `Style.shortest` : a finite float by its shortest digits.
-/

namespace Spreadsheet.Decimal

def digitsOf (n : Nat) : List Char := Nat.toDigits 10 n

/-- The digits of `n`, with zeros in front up to `width`. -/
def padded (width n : Nat) : List Char :=
  let ds := digitsOf n
  List.replicate (width - ds.length) '0' ++ ds

/-- `n · 10 ^ -places` with exactly that many places, and no point when there are none. -/
def fixedPoint (n places : Nat) : List Char :=
  if places = 0 then digitsOf n
  else digitsOf (n / 10 ^ places) ++ '.' :: padded places (n % 10 ^ places)

def showInt (n : Int) : List Char := if n < 0 then '-' :: digitsOf n.natAbs else digitsOf n.natAbs

/-- How a numeral is laid out, by the exponent `e` of its first digit. -/
structure Style where
  /-- Positional from this exponent on. -/
  least : Int
  /-- Positional below this exponent. -/
  limit : Int
  /-- What follows a positional whole number. -/
  wholeEnd : String
  /-- Which of two equally near decimals the digits are. -/
  tie : Tie

namespace Style

/-- Digits `ds`, the first one worth `10 ^ e`, in positional notation. -/
def positional (style : Style) (ds : List Char) (e : Int) : List Char :=
  if e < 0 then ['0', '.'] ++ List.replicate (-e - 1).toNat '0' ++ ds
  else
    let wholeDigits := e.toNat + 1
    if ds.length ≤ wholeDigits then
      ds ++ List.replicate (wholeDigits - ds.length) '0' ++ style.wholeEnd.toList
    else ds.take wholeDigits ++ '.' :: ds.drop wholeDigits

/-- Digits `ds`, the first one worth `10 ^ e`, with an exponent. -/
def exponential (ds : List Char) (e : Int) : List Char :=
  let mantissa := match ds with
    | d :: rest@(_ :: _) => d :: '.' :: rest
    | _ => ds
  mantissa ++ 'e' :: showInt e

def lay (style : Style) (ds : List Char) (e : Int) : List Char :=
  if style.least ≤ e ∧ e < style.limit then style.positional ds e else exponential ds e

/-- The number `n · 10 ^ e`, for positive `n`. -/
def layNumber (style : Style) (n : Nat) (e : Int) : List Char :=
  let ds := digitsOf n
  style.lay ds (e + ds.length - 1)

/-- The shortest digits that read back. -/
def shortest (style : Style) (b : Binary64.Binary) : List Char :=
  let magnitude :=
    if b.mantissa = 0 then '0' :: style.wholeEnd.toList
    else
      let (n, e) := Decimal.shortest style.tie b
      style.layNumber n e
  if b.negative then '-' :: magnitude else magnitude

end Style

/-- Numbers in messages: positional from `0.0001` up to `10 ^ 16`, a whole one ends in `.0`. -/
def messageStyle : Style := ⟨-4, 16, ".0", .up⟩

/-- A float as messages show it. -/
def showFloat (x : Float) : String :=
  match Binary64.exact x with
  | .nan => "NaN"
  | .infinite negative => if negative then "-inf" else "inf"
  | .finite b => String.ofList (messageStyle.shortest b)

end Spreadsheet.Decimal
