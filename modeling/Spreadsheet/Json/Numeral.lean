import Spreadsheet.Decimal.Layout
import Spreadsheet.Decimal.Numeral

/-!
# Numbers in JSON text

A number is kept as it is written, and read as a float only when one is wanted. The digits, without
the point, are taken as long as they stay below `2 ^ 64`, and one multiplication or division by a
power of ten scales them; so a numeral of many digits may come out next to the nearest float.

* `JsonNumeral` : sign, digits and exponent;
* `JsonNumeral.float?` : its value, unless that is too large;
* `JsonNumeral.ofFinite` : the shortest digits of a float, positional from `10 ^ -5` up to `10 ^ 16`,
  a tie going to the even digit;
* `JsonNumeral.read?`, `JsonNumeral.write` : as text.
-/

namespace Spreadsheet

open Text (isAsciiDigit)
open Decimal (digitValue digitsOf)

/-- A number as JSON text writes it. -/
structure JsonNumeral where
  negative : Bool
  /-- Digits before the point. -/
  whole : List Char
  /-- Digits after the point; without any there is no point. -/
  fraction : List Char
  exponent : Option Int
deriving DecidableEq, Repr

namespace JsonNumeral

def ofNat (n : Nat) : JsonNumeral := ⟨false, digitsOf n, [], none⟩

def ofInt (n : Int) : JsonNumeral := ⟨n < 0, digitsOf n.natAbs, [], none⟩

/-! ## Value -/

/-- Appends digits to `n` as long as it stays below `2 ^ 64`, and gives the digits left over. -/
def absorb (n : Nat) : List Char → Nat × List Char
  | [] => (n, [])
  | d :: ds =>
    let more := 10 * n + digitValue d
    if more < 2 ^ 64 then absorb more ds else (n, d :: ds)

/-- The largest power of ten that is a float. -/
def maxPower : Nat := 308

/-- `x · 10 ^ e` with one rounding, or more of them far below one; nothing beyond the largest float. -/
def scaled (x : Float) (e : Int) : Option Float :=
  if 0 ≤ e then
    if e ≤ maxPower then
      let y := x * Decimal.nearestFloat 1 e
      if y.isInf then none else some y
    else if x == 0.0 then some x else none
  else if -e ≤ maxPower then some (x / Decimal.nearestFloat 1 (-e))
  else if x == 0.0 then some x
  else scaled (x / Decimal.nearestFloat 1 maxPower) (e + maxPower)
termination_by e.natAbs
decreasing_by simp only [maxPower] at *; omega

def float? (n : JsonNumeral) : Option Float :=
  let (digits, droppedWhole) := absorb 0 n.whole
  let (digits, droppedFraction) := absorb digits n.fraction
  let places : Int := n.fraction.length - droppedFraction.length
  (scaled (Float.ofNat digits) (n.exponent.getD 0 + droppedWhole.length - places)).map fun x =>
    if n.negative then -x else x

/-- The natural number that a numeral without sign, point and exponent writes. -/
def nat? (n : JsonNumeral) : Option Nat :=
  if n.negative || !n.fraction.isEmpty || n.exponent.isSome then none
  else some (Decimal.digitsValue n.whole)

/-- The integer that a numeral without point and exponent writes. -/
def int? (n : JsonNumeral) : Option Int :=
  if !n.fraction.isEmpty || n.exponent.isSome then none
  else
    let magnitude : Int := Decimal.digitsValue n.whole
    some (if n.negative then -magnitude else magnitude)

/-! ## Digits of a float -/

/-- Digits, the first one worth `10 ^ e`. -/
def ofDigits (negative : Bool) (ds : List Char) (e : Int) : JsonNumeral :=
  if -5 ≤ e ∧ e < 0 then ⟨negative, ['0'], List.replicate (-e - 1).toNat '0' ++ ds, none⟩
  else if 0 ≤ e ∧ e < 16 then
    let count := e.toNat + 1
    let fraction := ds.drop count
    ⟨negative, ds.take count ++ List.replicate (count - ds.length) '0',
      if fraction.isEmpty then ['0'] else fraction, none⟩
  else ⟨negative, ds.take 1, ds.drop 1, some e⟩

def ofFinite (b : Binary64.Binary) : JsonNumeral :=
  if b.mantissa = 0 then ⟨b.negative, ['0'], ['0'], none⟩
  else
    let (n, e) := Decimal.shortest .even b
    let ds := digitsOf n
    ofDigits b.negative ds (e + ds.length - 1)

/-! ## Text -/

/-- Reads digits after a point. -/
def readFraction? : List Char → Option (List Char × List Char)
  | '.' :: cs =>
    let ds := cs.takeWhile isAsciiDigit
    if ds.isEmpty then none else some (ds, cs.dropWhile isAsciiDigit)
  | cs => some ([], cs)

/-- Splits off the sign of an exponent. -/
def readSign : List Char → Bool × List Char
  | '-' :: cs => (true, cs)
  | '+' :: cs => (false, cs)
  | cs => (false, cs)

/-- Reads an exponent, if one follows. -/
def readExponent? (cs : List Char) : Option (Option Int × List Char) :=
  match cs with
  | c :: rest =>
    if c == 'e' || c == 'E' then
      let (negative, rest) := readSign rest
      let ds := rest.takeWhile isAsciiDigit
      let e : Int := Decimal.digitsValue ds
      if ds.isEmpty then none
      else some (some (if negative then -e else e), rest.dropWhile isAsciiDigit)
    else some (none, cs)
  | [] => some (none, [])

/-- Reads a number without its sign; only a zero begins with one. -/
def readUnsigned? (negative : Bool) (cs : List Char) : Option (JsonNumeral × List Char) := do
  let whole := cs.takeWhile isAsciiDigit
  if whole.isEmpty || (whole.head? == some '0' && 1 < whole.length) then none
  let (fraction, rest) ← readFraction? (cs.dropWhile isAsciiDigit)
  let (exponent, rest) ← readExponent? rest
  return (⟨negative, whole, fraction, exponent⟩, rest)

/-- Reads a number at the front of a text. -/
def read? : List Char → Option (JsonNumeral × List Char)
  | '-' :: cs => readUnsigned? true cs
  | cs => readUnsigned? false cs

def writeExponent : Option Int → List Char
  | none => []
  | some e => 'e' :: (if e < 0 then '-' else '+') :: digitsOf e.natAbs

def write (n : JsonNumeral) : List Char :=
  (if n.negative then ['-'] else []) ++ n.whole ++
    (if n.fraction.isEmpty then [] else '.' :: n.fraction) ++ writeExponent n.exponent

end JsonNumeral

end Spreadsheet
