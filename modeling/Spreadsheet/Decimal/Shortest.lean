import Spreadsheet.Decimal.Rounding

/-!
# The shortest decimal that reads back as a given float

Every real nearer to a float than to its neighbours reads as that float, and so do the two midpoints
when the mantissa is even. For one digit, two digits and so on, the two decimals next to the float
are tested against that interval: the first count with a hit wins, and of two hits the nearer. Of
two that are equally near a `Tie` takes one.

The interval is scaled by four, so that its ends are whole: below a power of two the gap to the next
float is half of the gap above.
-/

namespace Spreadsheet.Decimal

open Binary64 (Binary)

/-- Which of two neighbouring decimals is taken when both are equally near. -/
inductive Tie where
  /-- The larger one. -/
  | up
  /-- The one with an even last digit. -/
  | even
deriving DecidableEq, Repr

/-- The whole number nearest to `v / d`. -/
def Tie.nearest (v d : Nat) : Tie → Nat
  | up => (2 * v + d) / (2 * d)
  | even => roundEven v d

/-- The reals that read as one float: between `low` and `high` quarters of `2 ^ exponent`. -/
structure ReadingInterval where
  low : Nat
  value : Nat
  high : Nat
  exponent : Int
  closed : Bool

def readingInterval (b : Binary) : ReadingInterval where
  low := 4 * b.mantissa - (if b.mantissa = 2 ^ 52 ∧ -1074 < b.exponent then 1 else 2)
  value := 4 * b.mantissa
  high := 4 * b.mantissa + 2
  exponent := b.exponent - 2
  closed := b.mantissa % 2 = 0

namespace ReadingInterval

/-- The fraction `n · 2 ^ exponent · 10 ^ shift`. -/
def scale (i : ReadingInterval) (n : Nat) (shift : Int) : Nat × Nat :=
  shifted (n * 2 ^ i.exponent.toNat) (2 ^ (-i.exponent).toNat) shift

/-- Whether `c · 10 ^ -shift` lies in the interval. -/
def holds (i : ReadingInterval) (c : Nat) (shift : Int) : Bool :=
  let (low, d) := i.scale i.low shift
  let (high, _) := i.scale i.high shift
  if i.closed then low ≤ c * d && c * d ≤ high else low < c * d && c * d < high

/-- The multiple of `10 ^ -shift` that reads back, if one of the two next to the value does. -/
def onGrid (i : ReadingInterval) (tie : Tie) (shift : Int) : Option Nat :=
  let (v, d) := i.scale i.value shift
  let below := v / d
  match i.holds below shift, i.holds (below + 1) shift with
  | true, true => some (tie.nearest v d)
  | true, false => some below
  | false, true => some (below + 1)
  | false, false => none

/-- Tries `count` digits, then one more, at most `tries` times. -/
def search (i : ReadingInterval) (tie : Tie) (first : Int) (count : Nat) : Nat → Nat × Int
  | 0 => (i.value, first)
  | tries + 1 =>
    let shift := (count : Int) - 1 - first
    match i.onGrid tie shift with
    | some c => (c, -shift)
    | none => i.search tie first (count + 1) tries

end ReadingInterval

/-- Whole numbers without their trailing zeros, which the exponent takes over. -/
def dropZeros (n : Nat) (e : Int) : Nat × Int :=
  if h : n ≠ 0 ∧ n % 10 = 0 then dropZeros (n / 10) (e + 1) else (n, e)
termination_by n
decreasing_by omega

/-- The digits `n` and the exponent `e` of the shortest decimal `n · 10 ^ e` that reads back as
the magnitude of a nonzero float. -/
def shortest (tie : Tie) (b : Binary) : Nat × Int :=
  let i := readingInterval b
  let (c, e) := i.search tie (magnitudeExponent b.numerator b.denominator) 1 17
  dropZeros c e

end Spreadsheet.Decimal
