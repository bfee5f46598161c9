import Spreadsheet.Format.DateCode
import Spreadsheet.Format.General

/-!
# Number format codes

A code is read up to its first `;`, and text between quotes, after a backslash or in brackets does
not count for what kind of code it is: general, a date, currency, a percentage, scientific, or fixed
decimals. `formatNumber` shows a number by a code.
-/

namespace Spreadsheet.Format

open Text (asciiLowerChar asciiUpperChar)

/-- The code up to a `;` outside quotes. -/
def firstSection (quotes : Bool) : List Char → List Char
  | [] => []
  | c :: cs =>
    if c = '"' then c :: firstSection (!quotes) cs
    else if c = ';' ∧ !quotes then []
    else c :: firstSection quotes cs

/-- What of a code is text. -/
inductive Enclosure where
  | none
  | quotes
  | escape
  | brackets

/-- The code without quoted text, escaped characters and brackets. -/
def bareCode : Enclosure → List Char → List Char
  | _, [] => []
  | .none, c :: cs =>
    if c = '"' then bareCode .quotes cs
    else if c = '\\' then bareCode .escape cs
    else if c = '[' then bareCode .brackets cs
    else c :: bareCode .none cs
  | .quotes, c :: cs => bareCode (if c = '"' then .none else .quotes) cs
  | .escape, _ :: cs => bareCode .none cs
  | .brackets, c :: cs => bareCode (if c = ']' then .none else .brackets) cs

/-- How many `0` stand in the run of `0` and `#` after the first point. -/
def decimalPlaces (bare : List Char) : Nat :=
  (((bare.dropWhile (· != '.')).drop 1).takeWhile fun c => c == '0' || c == '#').count '0'

/-- Whether a bare code has a letter that stands for a date or time field. -/
def isDateCode (bare : List Char) : Bool := bare.any fun c => (fieldOfLetter? c).isSome

/-- Whether a bare code has an exponent: `E+` or `E-` in any case. -/
def hasExponent : List Char → Bool
  | c :: d :: cs => (asciiUpperChar c == 'E' && (d == '+' || d == '-')) || hasExponent (d :: cs)
  | _ => false

/-- What a code asks for. -/
inductive CodeKind where
  | general
  | date
  | currency
  | percent
  | scientific
  | fixed
deriving DecidableEq, Repr

/-- The kind of a trimmed section of a code. -/
def codeKind (code : String) : CodeKind :=
  if code.isEmpty || Text.equalIgnoringAsciiCase code "general" || code == "@" then .general
  else
    let bare := bareCode .none code.toList
    if isDateCode bare then .date
    else if bare.contains '$' then .currency
    else if bare.contains '%' then .percent
    else if hasExponent bare then .scientific
    else .fixed

/-- A number shown by a format code. Infinities and NaN show as the error for numbers. -/
def formatNumber (value : Float) (code : String) : String :=
  if !value.isFinite then ErrorValue.num.text
  else
    let code := Text.trim (String.ofList (firstSection false code.toList))
    let bare := bareCode .none code.toList
    let decimals := decimalPlaces bare
    let thousands := bare.contains ','
    match codeKind code with
    | .general => formatGeneral value
    | .date => (formatMoment? value code).getD (formatGeneral value)
    | .currency => formatCurrency value decimals thousands
    | .percent => formatPercent value decimals thousands
    | .scientific => formatScientific value decimals
    | .fixed => formatFixed value decimals thousands

end Spreadsheet.Format
