import Spreadsheet.Power

/-!
# The exact value of a float

A finite float is a sign, a natural mantissa and a power of two. Rounding and printing are done on
these three integers, where nothing is lost.

* `Binary` : `±mantissa · 2 ^ exponent`; `exact` reads it off the 64 bits of a float;
* `Binary.numerator`, `Binary.denominator` : the magnitude as a fraction;
* `saturate` : the whole part, held within bounds;
* `totalKey` : the key that orders floats by sign, then magnitude, with `-0` below `0`;
* `larger` : of two floats, a NaN giving way to the other one.
-/

namespace Spreadsheet.Binary64

/-- The exact value `±mantissa · 2 ^ exponent` of a finite float. -/
structure Binary where
  negative : Bool
  mantissa : Nat
  exponent : Int
deriving DecidableEq

/-- What a float stands for. -/
inductive Exact where
  | nan
  | infinite (negative : Bool)
  | finite (value : Binary)

/-- Reads sign, exponent field and fraction off the bits. A zero exponent field marks the numbers
without a leading one. -/
def exact (x : Float) : Exact :=
  let bits := x.toBits.toNat
  let negative := 2 ^ 63 ≤ bits
  let field : Nat := bits / 2 ^ 52 % 2 ^ 11
  let fraction : Nat := bits % 2 ^ 52
  if field = 2 ^ 11 - 1 then
    if fraction = 0 then .infinite negative else .nan
  else if field = 0 then .finite ⟨negative, fraction, -1074⟩
  else .finite ⟨negative, 2 ^ 52 + fraction, (field : Int) - 1075⟩

namespace Binary

/-- The magnitude is `numerator / denominator`. -/
def numerator (b : Binary) : Nat := b.mantissa * 2 ^ b.exponent.toNat

def denominator (b : Binary) : Nat := 2 ^ (-b.exponent).toNat

theorem denominator_pos (b : Binary) : 0 < b.denominator := Nat.two_pow_pos _

/-- The value rounded toward zero. -/
def truncate (b : Binary) : Int :=
  let n : Int := (b.numerator / b.denominator : Nat)
  if b.negative then -n else n

def isWhole (b : Binary) : Bool := b.numerator % b.denominator == 0

end Binary

/-- The whole part of a float held within `lo` and `hi`; a NaN gives zero. -/
def saturate (lo hi : Int) (x : Float) : Int :=
  match exact x with
  | .nan => 0
  | .infinite negative => if negative then lo else hi
  | .finite b => max lo (min hi b.truncate)

/-- The whole part; an infinity or a NaN gives zero. -/
def wholePart (x : Float) : Int :=
  match exact x with
  | .finite b => b.truncate
  | _ => 0

/-- Whole part within the range of signed 64-bit integers. -/
def toInt64Range (x : Float) : Int := saturate (-2 ^ 63) (2 ^ 63 - 1) x

/-- Whole part within the range of unsigned 64-bit integers. -/
def toNat64Range (x : Float) : Nat := (saturate 0 (2 ^ 64 - 1) x).toNat

/-- Whether a finite float is an integer. -/
def isWhole (x : Float) : Bool :=
  match exact x with
  | .finite b => b.isWhole
  | _ => false

/-- Floats by increasing sign and magnitude: `-0` comes before `0`, and NaN after infinity. -/
def totalKey (x : Float) : Int :=
  let bits := x.toBits.toNat
  if bits < 2 ^ 63 then (bits : Int) else -((bits - 2 ^ 63 : Nat) : Int) - 1

/-- The larger of two numbers, or the one that is a number. -/
def larger (x y : Float) : Float := if x.isNaN then y else if x < y then y else x

end Spreadsheet.Binary64
