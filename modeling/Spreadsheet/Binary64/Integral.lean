import Spreadsheet.Binary64.Exact

/-!
# Rounding a float to a whole float

The magnitude is rounded as an exact fraction and the sign is put back, so a negative value that
rounds to zero gives `-0`. A value without a fraction, an infinity and a NaN stay as they are.

* `truncate`, `floor`, `ceil` : toward zero, down, up;
* `nearest` : to the nearest whole number, a half away from zero;
* `signum` : `1` or `-1` after the sign, also for the zeros;
* `natPower` : whole powers by repeated squaring.
-/

namespace Spreadsheet.Binary64

/-- Replaces the magnitude `n / d` of a float by a whole number that may depend on the sign. -/
def mapMagnitude (f : Bool → Nat → Nat → Nat) (x : Float) : Float :=
  match exact x with
  | .finite b =>
    if 0 ≤ b.exponent then x
    else
      let y := Float.ofNat (f b.negative b.numerator b.denominator)
      if b.negative then -y else y
  | _ => x

/-- Quotient rounded up. -/
def ceilDiv (n d : Nat) : Nat := (n + d - 1) / d

def truncate : Float → Float := mapMagnitude fun _ n d => n / d

def floor : Float → Float := mapMagnitude fun negative n d => if negative then ceilDiv n d else n / d

def ceil : Float → Float := mapMagnitude fun negative n d => if negative then n / d else ceilDiv n d

/-- A half goes away from zero. -/
def nearest : Float → Float := mapMagnitude fun _ n d => (2 * n + d) / (2 * d)

def signum (x : Float) : Float :=
  match exact x with
  | .nan => x
  | .infinite negative => if negative then -1 else 1
  | .finite b => if b.negative then -1 else 1

/-- `x ^ n` by repeated squaring: `acc` times `x ^ n`. -/
def powerAux (acc x : Float) (n : Nat) : Float :=
  let acc := if n % 2 = 1 then acc * x else acc
  if n / 2 = 0 then acc else powerAux acc (x * x) (n / 2)
termination_by n
decreasing_by omega

def natPower (x : Float) (n : Nat) : Float := powerAux 1 x n

/-- The least distance between two floats at `1`. -/
def epsilon : Float := 2.220446049250313e-16

end Spreadsheet.Binary64
