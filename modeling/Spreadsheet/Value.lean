import Spreadsheet.Format.General
import Spreadsheet.Decimal.Numeral
import Spreadsheet.Text.Quoted

/-!
# Values

A formula gives a number, a text, a truth value, an error value, nothing, or a grid of values.

* `Value.asNumber?`, `Value.asBool?`, `Value.display` : conversions;
* `Value.scalar` : a grid of one cell counts as what it holds;
* `Value.compare` : the order of values: numbers before texts before truth values before errors,
  texts without regard to case, and nothing as `0` or the empty text after what it meets;
* `Value.describe` : a value as messages show it.
-/

namespace Spreadsheet

open Binary64 (Number)

inductive Value where
  | number (x : Number)
  | text (s : String)
  | boolean (b : Bool)
  | error (e : ErrorValue)
  | array (rows : List (List Value))
  | empty

/-- Rows of values. -/
abbrev Grid := List (List Value)

namespace Value

instance : Inhabited Value := ⟨empty⟩

/-- One for true and zero for false. -/
def ofTruth (b : Bool) : Float := if b then 1.0 else 0.0

def asNumber? : Value → Option Number
  | number x => some x
  | boolean b => some (ofTruth b)
  | text s => Decimal.trimmedNumber? s
  | empty => some (0.0 : Float)
  | array [[v]] => v.asNumber?
  | array _ => none
  | error _ => none

def asBool? : Value → Option Bool
  | boolean b => some b
  | number x => some (x.float != 0.0)
  | empty => some false
  | text s =>
    if Text.equalIgnoringAsciiCase s "TRUE" then some true
    else if Text.equalIgnoringAsciiCase s "FALSE" then some false
    else none
  | _ => none

/-- The text of a truth value. -/
def truthText (b : Bool) : String := if b then "TRUE" else "FALSE"

/-- The text a value shows; a grid shows its first cell. -/
def display : Value → String
  | number x => Format.formatGeneral x.float
  | text s => s
  | boolean b => truthText b
  | error e => e.text
  | empty => ""
  | array ((v :: _) :: _) => v.display
  | array _ => ""

def isError : Value → Bool
  | error _ => true
  | _ => false

def error? : Value → Option ErrorValue
  | error e => some e
  | _ => none

def isEmpty : Value → Bool
  | empty => true
  | _ => false

def isArray : Value → Bool
  | array _ => true
  | _ => false

/-- A grid of one cell counts as what the cell holds. -/
def scalar : Value → Value
  | array [[v]] => v
  | v => v

/-- A value as a grid; one that is none makes a grid of one cell. -/
def grid : Value → Grid
  | array rows => rows
  | v => [[v]]

/-! ## Order -/

/-- Order of numbers, a NaN being equal to everything. -/
def compareNumbers (x y : Float) : Ordering := if x < y then .lt else if y < x then .gt else .eq

/-- Which kind of value comes first. -/
def kindRank : Value → Nat
  | number _ => 0
  | text _ => 1
  | boolean _ => 2
  | _ => 3

/-- Order of two values of which neither is empty. -/
def compareFilled : Value → Value → Ordering
  | number x, number y => compareNumbers x.float y.float
  | text s, text t => Text.compareText (Text.lower s) (Text.lower t)
  | boolean a, boolean b => Ord.compare a b
  | error e, error f => Text.compareText e.text f.text
  | error _, _ => .gt
  | _, error _ => .lt
  | array _, _ => .eq
  | _, array _ => .eq
  | v, w => Ord.compare v.kindRank w.kindRank

/-- Spreadsheet order. -/
def compare : Value → Value → Ordering
  | empty, empty => .eq
  | empty, text s => Text.compareText "" s
  | text s, empty => Text.compareText s ""
  | empty, boolean b => Ord.compare false b
  | boolean b, empty => Ord.compare b false
  | empty, w => compareFilled (number (0.0 : Float)) w
  | v, empty => compareFilled v (number (0.0 : Float))
  | v, w => compareFilled v w

/-! ## Values in messages -/

mutual

/-- A value with its kind, for messages. -/
def describe : Value → String
  | number x => "Number(" ++ Decimal.showFloat x.float ++ ")"
  | text s => "String(" ++ Text.quoted s ++ ")"
  | boolean b => "Boolean(" ++ (if b then "true" else "false") ++ ")"
  | error e => "Error(" ++ e.messageName ++ ")"
  | array rows => "Array([" ++ ", ".intercalate (describeRows rows) ++ "])"
  | empty => "Empty"

def describeRows : List (List Value) → List String
  | [] => []
  | row :: rows => ("[" ++ ", ".intercalate (describeRow row) ++ "]") :: describeRows rows

def describeRow : List Value → List String
  | [] => []
  | v :: row => v.describe :: describeRow row

end

end Value

end Spreadsheet
