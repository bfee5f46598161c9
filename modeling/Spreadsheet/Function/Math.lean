import Spreadsheet.Format.Fixed
import Spreadsheet.Function.Arguments

/-!
# Mathematical functions

Rounding, powers, logarithms and remainders. A result that is no finite number is `#NUM!`. Before a
quotient or a scaled number is rounded up or down it is snapped to the whole number it almost is, so
that `0.3 / 0.1` counts as three.
-/

namespace Spreadsheet

namespace Math

open Binary64 (nearest floor ceil truncate signum)

/-- A finite number, or `#NUM!`. -/
def finite (x : Float) : Outcome Float := if x.isFinite then .ok x else .error .num

/-- The whole number within `10 ^ -9`, if there is one. -/
def snapped (x : Float) : Float := if (x - nearest x).abs < 1e-9 then nearest x else x

/-- Rounds at decimal places with `op`; negative places are left of the point. A number that leaves the
floats when it is scaled has no digits there and stays. -/
def roundWith (op : Float → Float) (x places : Float) : Float :=
  let places := Binary64.saturate (-308) 308 places
  let factor := Format.powerOfTen places.natAbs
  let scaled := if 0 ≤ places then x * factor else x / factor
  if !scaled.isFinite then x
  else
    let rounded := op (snapped scaled)
    if 0 ≤ places then rounded / factor else rounded * factor

/-- Away from zero. -/
def awayFromZero (x : Float) : Float := signum x * ceil x.abs

/-- To the nearest at so many places, a half away from zero. More than 15 places change nothing. -/
def round (x places : Float) : Outcome Float :=
  let places := truncate places
  if 15.0 < places then finite x
  else finite (Format.roundHalfAway x (Binary64.saturate (-2 ^ 31) (2 ^ 31 - 1) (Binary64.larger places (-308.0))))

/-- Down to a multiple. -/
def floorTo (x step : Float) : Outcome Float :=
  if x == 0.0 then .ok 0.0
  else if step == 0.0 then .error .divisionByZero
  else if x > 0.0 && step < 0.0 then .error .num
  else finite (floor (snapped (x / step)) * step)

/-- Up to a multiple. -/
def ceilingTo (x step : Float) : Outcome Float :=
  if x == 0.0 || step == 0.0 then .ok 0.0
  else if x > 0.0 && step < 0.0 then .error .num
  else finite (ceil (snapped (x / step)) * step)

/-- The remainder with the sign of the divisor. -/
def modulo (x divisor : Float) : Outcome Float :=
  if divisor == 0.0 then .error .divisionByZero
  else finite (x - divisor * floor (snapped (x / divisor)))

def power (base exponent : Float) : Outcome Float :=
  if base == 0.0 && exponent < 0.0 then .error .divisionByZero else finite (base.pow exponent)

def squareRoot (x : Float) : Outcome Float := if x < 0.0 then .error .num else finite x.sqrt

def sign (x : Float) : Float := if x > 0.0 then 1.0 else if x < 0.0 then -1.0 else 0.0

def naturalLog (x : Float) : Outcome Float := if x <= 0.0 then .error .num else finite x.log

def commonLog (x : Float) : Outcome Float := if x <= 0.0 then .error .num else finite x.log10

/-- The logarithm to a base. -/
def logarithm (x base : Float) : Outcome Float :=
  if x <= 0.0 || base <= 0.0 then .error .num
  else if base == 1.0 then .error .divisionByZero
  else if base == 10.0 then finite x.log10
  else finite (x.log / base.log)

/-- The ratio of a circle's circumference to its diameter. -/
def circleRatio : Float := 3.141592653589793

/-! ## Functions -/

/-- A function of one number. -/
def unary (name : String) (f : Float → Outcome Float) : Function :=
  .ofValues .math name 1 (some 1) fun arguments => do
    return .number (← f (← numberArg arguments 0))

/-- A function of a number and a second one that has a default. -/
def withDefault (name : String) (default : Float) (f : Float → Float → Outcome Float) : Function :=
  .ofValues .math name 1 (some 2) fun arguments => do
    let x ← numberArg arguments 0
    return .number (← f x (← optionalNumber arguments 1 default))

/-- A function of two numbers. -/
def binary (name : String) (f : Float → Float → Outcome Float) : Function :=
  .ofValues .math name 2 (some 2) fun arguments => do
    let x ← numberArg arguments 0
    return .number (← f x (← numberArg arguments 1))

end Math

open Math in
def mathFunctions : List Function :=
  [ withDefault "ROUND" 0.0 round,
    withDefault "ROUNDUP" 0.0 fun x places => finite (roundWith awayFromZero x places),
    withDefault "ROUNDDOWN" 0.0 fun x places => finite (roundWith Binary64.truncate x places),
    withDefault "FLOOR" 1.0 floorTo,
    withDefault "CEILING" 1.0 ceilingTo,
    unary "ABS" fun x => finite x.abs,
    binary "POWER" power,
    unary "SQRT" squareRoot,
    binary "MOD" modulo,
    unary "INT" fun x => finite (Binary64.floor x),
    withDefault "TRUNC" 0.0 fun x places => finite (roundWith Binary64.truncate x places),
    unary "SIGN" fun x => .ok (sign x),
    .ofValues .math "PI" 0 (some 0) fun _ => .ok (.number circleRatio),
    unary "EXP" fun x => finite x.exp,
    unary "LN" naturalLog,
    withDefault "LOG" 10.0 logarithm,
    unary "LOG10" commonLog ]

end Spreadsheet
