import Spreadsheet.Binary64.Exact

/-!
# Rounding a fraction to decimal digits

A positive fraction `num / den` is rounded in integers, a tie going to the even neighbour.

* `roundEven` : a fraction to the nearest natural number;
* `toPlaces` : a fraction to the nearest multiple of `10 ^ -places`, as a natural number of them;
* `magnitudeExponent` : the decimal exponent of the first digit of a fraction;
* `significant` : the first digits of a fraction and the exponent of the first one.
-/

namespace Spreadsheet.Decimal

/-- The natural number nearest to `num / den`; of two, the even one. -/
def roundEven (num den : Nat) : Nat :=
  let q := num / den
  let r := num % den
  if 2 * r < den then q
  else if den < 2 * r then q + 1
  else q + q % 2

/-- `num / den` counted in steps of `10 ^ -places`. -/
def toPlaces (num den places : Nat) : Nat := roundEven (num * 10 ^ places) den

/-- `num / den · 10 ^ shift` as a fraction. -/
def shifted (num den : Nat) (shift : Int) : Nat × Nat :=
  (num * 10 ^ shift.toNat, den * 10 ^ (-shift).toNat)

/-- Whether `10 ^ e ≤ num / den`. -/
def reaches (num den : Nat) (e : Int) : Bool :=
  let (n, d) := shifted num den (-e)
  d ≤ n

/-- The last of `e`, `e + 1`, ..., `e + steps` whose power of ten the fraction reaches, when it
reaches the first. -/
def raiseExponent (num den : Nat) (e : Int) : Nat → Int
  | 0 => e
  | steps + 1 => if reaches num den (e + 1) then raiseExponent num den (e + 1) steps else e

/-- The `e` with `10 ^ e ≤ num / den < 10 ^ (e + 1)`, for a positive fraction. The bit lengths give
a lower estimate that is at most two short: `1233 / 4096` is just below the logarithm of two. -/
def magnitudeExponent (num den : Nat) : Int :=
  let bits : Int := (num.log2 : Int) - (den.log2 : Int) - 1
  let estimate : Int := if 0 ≤ bits then bits * 1233 / 4096 else bits * 1234 / 4096 - 1
  raiseExponent num den estimate 4

/-- The first `count` digits of a positive fraction, rounded, as a number with exactly `count`
digits, and the exponent of the first of them. Rounding up may carry into a new digit. -/
def significant (num den count : Nat) : Nat × Int :=
  let e := magnitudeExponent num den
  let (n, d) := shifted num den ((count : Int) - 1 - e)
  let digits := roundEven n d
  if digits = 10 ^ count then (10 ^ (count - 1), e + 1) else (digits, e)

end Spreadsheet.Decimal
