import Spreadsheet.Function.Arguments

/-!
# Financial functions

An annuity of `n` payments at the rate `r` obeys
`pv (1+r)^n + pmt (1 + r type) ((1+r)^n - 1) / r + fv = 0`, where `type` is 1 for payments at the start
of a period and 0 otherwise. At the rate zero the middle factor is `n`. The rate itself is found by
Newton's method.

* `Financial.growth?` : `(1+r)^n` and `(1+r)^n - 1`, the second one without loss for small rates;
* `Financial.newton` : successive approximations, as many as the budget allows;
* `Financial.rate`, `Financial.internalRate` : solutions for the rate;
* `financialFunctions` : the functions of this category.
-/

namespace Spreadsheet

namespace Financial

/-- Steps no larger than this end an approximation. -/
def tolerance : Float := 1.0e-7

def finite (x : Float) : Outcome Float := if x.isFinite then .ok x else .error .num

/-! ## Growth -/

/-- The logarithm of `1 + x`. What rounding adds in `1 + x` is taken off again. -/
def logOnePlus (x : Float) : Float :=
  let u := 1.0 + x
  u.log - ((u - 1.0) - x) / u

/-- The exponential of `x` less one. Near zero, what rounding loses in the exponential is added again. -/
def expMinusOne (x : Float) : Float :=
  let u := x.exp
  if x.abs < 1.0 then (u - 1.0) + u * (x - u.log) else u - 1.0

/-- `(1+r)^n` and `(1+r)^n - 1`, if they are finite. -/
def growth? (rate periods : Float) : Option (Float × Float) :=
  let log := logOnePlus rate
  if !log.isFinite then none
  else
    let gain := expMinusOne (periods * log)
    let growth := gain + 1.0
    if growth.isFinite && gain.isFinite then some (growth, gain) else none

/-- The same, or `#NUM!`. -/
def growth (rate periods : Float) : Outcome (Float × Float) :=
  match growth? rate periods with
  | some g => .ok g
  | none => .error .num

/-- What a payment of one in each period grows to. -/
def annuityFactor (rate gain timing : Float) : Float := (1.0 + rate * timing) * gain / rate

/-! ## The terms of an annuity -/

def presentValue (rate periods payment future timing : Float) : Outcome Float := do
  if rate == 0.0 then finite (-future - payment * periods)
  else if rate == -1.0 && periods != 0.0 then throw .divisionByZero
  else
    let (grown, gain) ← growth rate periods
    if grown == 0.0 then throw .divisionByZero
    finite (-(future + payment * annuityFactor rate gain timing) / grown)

def futureValue (rate periods payment present timing : Float) : Outcome Float := do
  if rate == 0.0 then finite (-(present + payment * periods))
  else
    let (grown, gain) ← growth rate periods
    finite (-(present * grown + payment * annuityFactor rate gain timing))

def payment (rate periods present future timing : Float) : Outcome Float := do
  if periods == 0.0 then throw .divisionByZero
  if rate == 0.0 then finite (-(present + future) / periods)
  else
    let (grown, gain) ← growth rate periods
    let factor := annuityFactor rate gain timing
    if factor == 0.0 then throw .divisionByZero
    finite (-(present * grown + future) / factor)

/-- The number of periods without interest. -/
def periodsWithoutInterest (payment present future : Float) : Outcome Float :=
  if payment == 0.0 then
    if present + future == 0.0 then .ok 0.0 else .error .num
  else finite (-(present + future) / payment)

/-- The number of periods, from `(1+r)^n = (a - fv) / (pv + a)` with `a = pmt (1 + r type) / r`. -/
def periods (rate payment present future timing : Float) : Outcome Float := do
  if rate == 0.0 then periodsWithoutInterest payment present future
  else
    let log := logOnePlus rate
    if !log.isFinite || log == 0.0 then throw .num
    let a := payment * (1.0 + rate * timing) / rate
    if present + a == 0.0 then throw .num
    let grown := (a - future) / (present + a)
    if grown <= 0.0 then throw .num
    finite (grown.log / log)

/-! ## Approximation -/

/-- Where an approximation ends. -/
inductive Approximation where
  /-- The last step was within the tolerance. -/
  | settled (x : Float)
  /-- The budget ran out. -/
  | unsettled (x : Float)

/-- Newton's method from `x`, for a function given with its slope where it is defined. A flat or
infinite step is `#NUM!`. -/
def newton (f : Float → Option (Float × Float)) : (budget : Nat) → (x : Float) → Outcome Approximation
  | 0, x => .ok (.unsettled x)
  | budget + 1, x =>
    match f x with
    | none => .error .num
    | some (y, slope) =>
      if slope == 0.0 || !slope.isFinite then .error .num
      else
        let next := x - y / slope
        if !next.isFinite then .error .num
        else if (next - x).abs <= tolerance then .ok (.settled next)
        else newton f budget next

/-- What is left of the annuity at a rate, and its slope. -/
def annuityBalance (periods payment present future timing rate : Float) : Option (Float × Float) :=
  if rate <= -1.0 then none
  else if rate == 0.0 then
    some (present + payment * periods + future,
      periods * present + payment * (periods * (periods - 1.0) / 2.0 + timing * periods))
  else do
    let (grown, gain) ← growth? rate periods
    let annuity := gain / rate
    let balance := present * grown + payment * (1.0 + rate * timing) * annuity + future
    let grownSlope := periods * grown / (1.0 + rate)
    let annuitySlope := (grownSlope * rate - gain) / (rate * rate)
    let factorSlope := timing * annuity + (1.0 + rate * timing) * annuitySlope
    let slope := present * grownSlope + payment * factorSlope
    if balance.isFinite && slope.isFinite then some (balance, slope) else none

/-- The rate of an annuity; it must settle within the budget. -/
def rate (periods payment present future timing guess : Float) (budget : Nat) : Outcome Float := do
  if periods <= 0.0 || guess <= -1.0 then throw .num
  match ← newton (annuityBalance periods payment present future timing) budget guess with
  | .settled x => return x
  | .unsettled _ => throw .num

/-- The value at the start of the first period of payments at the ends of the periods. -/
def netPresentValue (rate : Float) (payments : List Float) : Outcome Float :=
  if rate == -1.0 then .error .divisionByZero
  else
    let step := fun (total, discount) x =>
      let discount := discount * (1.0 + rate)
      (total + x / discount, discount)
    finite (payments.foldl step (0.0, 1.0)).1

/-- The value of payments at the starts of the periods at a rate, and its slope. -/
def flowBalance (flows : List Float) (rate : Float) : Option (Float × Float) :=
  if rate <= -1.0 then none
  else
    let base := 1.0 + rate
    let step := fun (value, slope) (x, i) =>
      let t := Float.ofNat i
      (value + x / base.pow t, slope - t * x / base.pow (t + 1.0))
    some (flows.zipIdx.foldl step (0.0, 0.0))

/-- The rate at which payments are worth nothing. When the budget runs out the last approximation
stands. -/
def internalRate (flows : List Float) (guess : Float) (budget : Nat) : Outcome Float := do
  if !flows.any (· > 0.0) || !flows.any (· < 0.0) || guess <= -1.0 then throw .num
  match ← newton (flowBalance flows) budget guess with
  | .settled x => finite x
  | .unsettled x => finite x

/-! ## Functions -/

/-- Whether payments are made at the start of a period: one if so, and zero otherwise. -/
def timingArg (arguments : List Value) (i : Nat) : Outcome Float := do
  return if (← optionalNumber arguments i 0.0) != 0.0 then 1.0 else 0.0

/-- A function of three numbers, a fourth one that may be left out, and the time of payment. -/
def annuity (name : String) (f : Float → Float → Float → Float → Float → Outcome Float) : Function :=
  .ofValues .financial name 3 (some 5) fun arguments => do
    let a ← numberArg arguments 0
    let b ← numberArg arguments 1
    let c ← numberArg arguments 2
    let d ← optionalNumber arguments 3 0.0
    return .number (← f a b c d (← timingArg arguments 4))

def rateOf (s : Surroundings) (arguments : List Value) : Outcome Value := do
  let periods ← numberArg arguments 0
  let payment ← numberArg arguments 1
  let present ← numberArg arguments 2
  let future ← optionalNumber arguments 3 0.0
  let timing ← timingArg arguments 4
  let guess ← optionalNumber arguments 5 0.1
  return .number (← rate periods payment present future timing guess s.options.maxIterations)

def netPresentValueOf (arguments : List Value) : Outcome Value := do
  let rate ← numberArg arguments 0
  return .number (← netPresentValue rate ((← collectNumbers arguments.tail).map (·.float)))

def internalRateOf (s : Surroundings) (arguments : List Value) : Outcome Value := do
  let flows ← collectNumbers (arguments.take 1)
  let guess ← optionalNumber arguments 1 0.1
  return .number (← internalRate (flows.map (·.float)) guess s.options.maxIterations)

end Financial

open Financial in
def financialFunctions : List Function :=
  [ annuity "PV" presentValue,
    annuity "FV" futureValue,
    annuity "PMT" payment,
    annuity "NPER" periods,
    { name := "RATE", category := .financial, least := 3, most := some 6,
      implementation := pureFunction rateOf },
    .ofValues .financial "NPV" 2 none netPresentValueOf,
    { name := "IRR", category := .financial, least := 1, most := some 2,
      implementation := pureFunction internalRateOf } ]

end Spreadsheet
