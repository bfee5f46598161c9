import Spreadsheet.Format.Code
import Spreadsheet.Function.Arguments
import Spreadsheet.Text.Editing
import Spreadsheet.Wildcard

/-!
# Text functions

Places and lengths count characters. A place that may be left out is the first one.

* `TextFunction.countArg`, `TextFunction.placeArg` : how many characters, and where; `TextFunction.before` : how many
  stand before a place;
* `TextFunction.valueOfText?` : the number that `VALUE` reads, an amount or a date;
* `textFunctions` : the functions of this category.
-/

namespace Spreadsheet

namespace TextFunction

open Binary64 (Number)

/-! ## Arguments -/

/-- A count of characters. -/
def countArg (arguments : List Value) (i : Nat) (default : Float) : Outcome Nat := do
  let x ← optionalNumber arguments i default
  if x < 0.0 then throw .value
  return Binary64.toNat64Range x

/-- A place among characters, counted from one; what is no number gives zero. -/
def placeArg (arguments : List Value) (i : Nat) : Outcome Nat := do
  let x ← optionalNumber arguments i 1.0
  if x < 1.0 then throw .value
  return Binary64.toNat64Range x

/-- How many characters stand before a place. Places are machine words, so before zero is the last of them. -/
def before (place : Nat) : Nat := if place = 0 then 2 ^ 64 - 1 else place - 1

/-- The characters of a text argument. -/
def charsArg (arguments : List Value) (i : Nat) : Outcome (List Char) := do
  return (← textArg arguments i).toList

def ofChars (cs : List Char) : Value := .text (String.ofList cs)

/-! ## Parts of a text -/

def left (arguments : List Value) : Outcome Value := do
  let cs ← charsArg arguments 0
  return ofChars (cs.take (← countArg arguments 1 1.0))

def right (arguments : List Value) : Outcome Value := do
  let cs ← charsArg arguments 0
  return ofChars (cs.drop (cs.length - (← countArg arguments 1 1.0)))

def middle (arguments : List Value) : Outcome Value := do
  let cs ← charsArg arguments 0
  let place ← placeArg arguments 1
  return ofChars ((cs.drop (before place)).take (← countArg arguments 2 0.0))

def length (arguments : List Value) : Outcome Value := do
  return .number (Float.ofNat (← charsArg arguments 0).length)

/-! ## Changes -/

/-- The second text replaced by the third, everywhere or at one occurrence. -/
def substitute (arguments : List Value) : Outcome Value := do
  let cs ← charsArg arguments 0
  let old ← charsArg arguments 1
  let new ← charsArg arguments 2
  if old.isEmpty then return ofChars cs
  if arguments.length < 4 then return ofChars (Text.substitute old new (fun _ => true) cs)
  let occurrence ← placeArg arguments 3
  return ofChars (Text.substitute old new (· == occurrence) cs)

/-- A text in place of so many characters. -/
def replace (arguments : List Value) : Outcome Value := do
  let cs ← charsArg arguments 0
  let kept := before (← placeArg arguments 1)
  let count ← countArg arguments 2 0.0
  let new ← charsArg arguments 3
  return ofChars (cs.take kept ++ new ++ cs.drop (kept + count))

/-- The most bytes a repeated text may take. -/
def maxRepeated : Nat := 32767

def replicate (arguments : List Value) : Outcome Value := do
  let s ← textArg arguments 0
  let times ← countArg arguments 1 0.0
  if maxRepeated < s.utf8ByteSize * times then throw .value
  return .text (Text.repeated s times)

/-- All texts in one; a grid of several cells is no text. -/
def concatenate (arguments : List Value) : Outcome Value := do
  return .text (String.join (← arguments.mapM textOf))

/-- All texts in one, grids cell by cell. -/
def concat (arguments : List Value) : Outcome Value := concatenate (scalars arguments)

/-! ## Places -/

/-- The place that `search` finds for a text in another one, from a place on that may be one past the
end. -/
def placeOf (search : List Char → List Char → Nat → Option Nat) (arguments : List Value) :
    Outcome Value := do
  let needle ← charsArg arguments 0
  let cs ← charsArg arguments 1
  let start ← placeArg arguments 2
  if start = 0 || cs.length + 1 < start then throw .value
  match search needle cs (start - 1) with
  | some k => return .number (Float.ofNat (k + 1))
  | none => throw .value

section Search

variable [RegexLibrary]

/-- The expression of a search; without wildcards every character stands for itself. -/
def searchExpression (needle : List Char) : String :=
  if Wildcard.hasWildcards needle then Wildcard.expression needle
  else RegexLibrary.escape (String.ofList needle)

/-- The first place of a match; an expression that does not compile has none. -/
def searchFrom? (needle cs : List Char) (start : Nat) : Option Nat := do
  let r ← RegexLibrary.compile? (searchExpression needle)
  return Text.charsWithin cs (← r.findAt? (String.ofList cs) (Text.byteOffset cs start))

end Search

/-! ## Numbers and text -/

/-- A number shown by a format code; a text that is no numeral stays. -/
def formatted (arguments : List Value) : Outcome Value := do
  let code ← textArg arguments 1
  match argAt arguments 0 with
  | .text s => match Decimal.trimmedFloat? s with
    | some x => return .text (Format.formatNumber x code)
    | none => return .text s
  | v => return .text (Format.formatNumber (← numberOf v) code)

/-- The amount that trimmed characters write: a numeral with a minus sign in front of a dollar sign, a
percent sign at the end, and commas anywhere. -/
def amount? (cs : List Char) : Option Number := do
  let (negative, unsigned) := match cs with
    | '-' :: rest => (true, rest.dropWhile Text.isBlank)
    | _ => (false, cs)
  let percent := unsigned.getLast? == some '%'
  let body := if percent then Text.dropEndWhile Text.isBlank unsigned.dropLast else unsigned
  let body := match body with
    | '$' :: rest => rest
    | _ => body
  let x ← Decimal.numberOfChars? (body.filter (· != ','))
  let x := if percent then x / (100.0 : Float) else x
  return if negative then -x else x

/-- The number a text stands for: an amount, or the serial of a date. -/
def valueOfText? (order : Calendar.DateOrder) (s : String) : Option Number :=
  let cs := Text.trimChars s.toList
  if cs.isEmpty then none
  else match amount? cs with
    | some x => some x
    | none => (Calendar.parseDate? (String.ofList cs) order).map fun d => d.serial

def valueOf (surroundings : Surroundings) (arguments : List Value) : Outcome Value :=
  match argAt arguments 0 with
  | .number x => .ok (.number x)
  | .empty => .ok (.number (0.0 : Float))
  | v => do
    match valueOfText? surroundings.options.dateOrder (← textOf v) with
    | some x => return .number x
    | none => throw .value

def same (arguments : List Value) : Outcome Value := do
  let s ← textArg arguments 0
  return .boolean (s == (← textArg arguments 1))

/-! ## Functions -/

def function (name : String) (least most : Nat) (f : List Value → Outcome Value) : Function :=
  .ofValues .text name least (some most) f

/-- A change of one text. -/
def change (name : String) (f : String → String) : Function :=
  function name 1 1 fun arguments => do return .text (f (← textArg arguments 0))

/-- A change of the characters of one text. -/
def changeChars (name : String) (f : List Char → List Char) : Function :=
  change name fun s => String.ofList (f s.toList)

end TextFunction

open TextFunction in
def textFunctions [RegexLibrary] : List Function :=
  [ function "LEFT" 1 2 left,
    function "RIGHT" 1 2 right,
    function "MID" 3 3 middle,
    function "LEN" 1 1 length,
    change "UPPER" Text.upper,
    change "LOWER" Text.lower,
    changeChars "PROPER" (Text.capitalise true),
    changeChars "TRIM" Text.withoutExtraSpaces,
    function "SUBSTITUTE" 3 4 substitute,
    function "REPLACE" 4 4 replace,
    function "FIND" 2 3 (placeOf Text.place?),
    function "SEARCH" 2 3 (placeOf searchFrom?),
    .ofValues .text "CONCATENATE" 1 none concatenate,
    (Function.ofValues .text "CONCAT" 1 none concat).ignoringBlanks,
    function "REPT" 2 2 replicate,
    function "TEXT" 2 2 formatted,
    { name := "VALUE", category := .text, least := 1, most := some 1,
      implementation := pureFunction valueOf },
    function "EXACT" 2 2 same ]

end Spreadsheet
