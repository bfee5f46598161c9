import Spreadsheet.Function.Arguments
import Spreadsheet.Grid
import Spreadsheet.Wildcard

/-!
# Lookup functions

A target is looked for among the keys of a row or a column. Only keys of the target's kind count, and
texts are compared without regard to case.

* `Lookup.Target` : a single value, possibly read as a pattern;
* `Lookup.exactly?`, `Lookup.approximately?`, `Lookup.closest?` : the place of the key that is chosen,
  from the keys in the order in which they are visited;
* `Lookup.Mode.find?` : the choice by mode;
* `lookupFunctions` : the functions of this category.
-/

namespace Spreadsheet

namespace Lookup

variable [RegexLibrary]

structure Target where
  value : Value
  pattern : Option Regex

namespace Target

/-- A value as a target; a text with wildcards becomes a pattern if they are allowed and it compiles. -/
def ofValue (v : Value) (wildcards : Bool) : Outcome Target :=
  match v with
  | .error e => .error e
  | .array _ => .error .value
  | .text s =>
    .ok ⟨v, if wildcards && Wildcard.hasWildcards s.toList then Wildcard.compile? s.toList else none⟩
  | _ => .ok ⟨v, none⟩

/-- How a key of the target's kind compares with it. -/
def ordering? (t : Target) (key : Value) : Option Ordering :=
  match t.value, key with
  | .number _, .number _ => some (key.compare t.value)
  | .text _, .text _ => some (key.compare t.value)
  | .boolean _, .boolean _ => some (key.compare t.value)
  | _, _ => none

/-- Whether a key is what is looked for. -/
def accepts (t : Target) (key : Value) : Bool :=
  match t.pattern, key with
  | some r, .text s => r.isMatch s
  | _, _ => t.ordering? key == some .eq

end Target

/-! ## Choosing a key

Keys come with their places, in the order in which they are visited. -/

/-- The first key that is accepted. -/
def exactly? (t : Target) (keys : List (Value × Nat)) : Option Nat :=
  (keys.find? fun key => t.accepts key.1).map (·.2)

/-- The last comparable key before the first one that compares as `beyond`, or `found`. -/
def approximately? (t : Target) (beyond : Ordering) (found : Option Nat) :
    List (Value × Nat) → Option Nat
  | [] => found
  | (key, i) :: rest =>
    match t.ordering? key with
    | some o => if o == beyond then found else approximately? t beyond (some i) rest
    | none => approximately? t beyond found rest

/-- The first equal key, otherwise the one nearest to the target on the `side` where keys compare with
it that way, or `best`. -/
def closest? (t : Target) (side : Ordering) (best : Option (Value × Nat)) :
    List (Value × Nat) → Option Nat
  | [] => best.map (·.2)
  | (key, i) :: rest =>
    match t.ordering? key with
    | some .eq => some i
    | some o =>
      if o == side && best.all fun b => key.compare b.1 == side.swap then
        closest? t side (some (key, i)) rest
      else closest? t side best rest
    | none => closest? t side best rest

inductive Mode where
  /-- Equality, perhaps with wildcards. -/
  | exact (wildcards : Bool)
  /-- The largest key that is not larger, in ascending keys. -/
  | ascending
  /-- The smallest key that is not smaller, in descending keys. -/
  | descending
  /-- The equal key or the next smaller one, in any keys. -/
  | nextSmaller
  /-- The equal key or the next larger one, in any keys. -/
  | nextLarger
deriving DecidableEq

/-- Whether texts may be patterns. -/
def Mode.wildcards : Mode → Bool
  | exact wildcards => wildcards
  | _ => false

/-- The place of the key that a mode chooses. -/
def Mode.find? (mode : Mode) (t : Target) (keys : List (Value × Nat)) : Option Nat :=
  match mode with
  | exact _ => exactly? t keys
  | ascending => approximately? t .gt none keys
  | descending => approximately? t .lt none keys
  | nextSmaller => closest? t .lt none keys
  | nextLarger => closest? t .gt none keys

/-- The same for keys in their order or from the last one back. -/
def Mode.place (mode : Mode) (t : Target) (keys : List Value) (backward : Bool) : Option Nat :=
  let visited := if backward then keys.zipIdx.reverse else keys.zipIdx
  mode.find? t visited

/-- The place of a key, or that there is none. -/
def Mode.placeOr (mode : Mode) (t : Target) (keys : List Value) : Outcome Nat :=
  match mode.place t keys false with
  | some i => .ok i
  | none => .error .notAvailable

/-! ## Functions -/

/-- The value in a numbered column of the row whose first value is looked for. -/
def inTable (arguments : List Value) (table : Grid) : Outcome Value := do
  let approximate ←
    if isMissing arguments 3 then .ok true else truthOf (argAt arguments 3)
  let mode := if approximate then .ascending else Mode.exact true
  let t ← Target.ofValue (argAt arguments 0) mode.wildcards
  let k ← positiveIndex (← numberArg arguments 2)
  if table.width < k then throw .ref
  let i ← mode.placeOr t (table.column 0)
  return table.entry i (k - 1)

def vertical (arguments : List Value) : Outcome Value :=
  inTable arguments (argAt arguments 1).grid

def horizontal (arguments : List Value) : Outcome Value :=
  inTable arguments (argAt arguments 1).grid.transpose

/-- The place of a value in a row or column, counted from one. -/
def position (arguments : List Value) : Outcome Value := do
  let kind ← optionalNumber arguments 2 1.0
  let mode := if kind > 0.0 then .ascending else if kind < 0.0 then .descending else Mode.exact true
  let t ← Target.ofValue (argAt arguments 0) mode.wildcards
  match (argAt arguments 1).grid.vector? with
  | none => throw .notAvailable
  | some keys => return .number (Float.ofNat ((← mode.placeOr t keys) + 1))

/-- A row or column number, where zero stands for all of them. -/
def indexOf (v : Value) : Outcome Nat := do
  let x := Binary64.truncate (← numberOf v)
  if x < 0.0 then throw .value
  return Binary64.toNat64Range x

/-- The part of a grid at a row and a column. -/
def part (g : Grid) (row column : Nat) : Outcome Value :=
  if g.length < row || g.width < column then .error .ref
  else match row, column with
    | 0, 0 => .ok (.array g)
    | 0, c + 1 => .ok (.array ((g.column c).map fun v => [v]))
    | r + 1, 0 => .ok (.array [g[r]?.getD []])
    | r + 1, c + 1 => .ok (g.entry r c)

/-- The part at given numbers; a single number counts along a single row. -/
def index (arguments : List Value) : Outcome Value :=
  match argAt arguments 0 with
  | .error e => .error e
  | v => do
    let g := v.grid
    let first ← indexOf (argAt arguments 1)
    match arguments[2]? with
    | some second => part g first (← indexOf second)
    | none => if g.length = 1 then part g 1 first else part g first 1

/-- How keys are compared, by number. -/
def modeOf (code : Float) : Outcome Mode :=
  match Binary64.toInt64Range code with
  | 0 => .ok (.exact false)
  | -1 => .ok .nextSmaller
  | 1 => .ok .nextLarger
  | 2 => .ok (.exact true)
  | _ => .error .value

/-- Whether keys are visited from the last one back, by number. -/
def isBackward (code : Float) : Outcome Bool :=
  match Binary64.toInt64Range code with
  | 1 => .ok false
  | -1 => .ok true
  | _ => .error .value

/-- A result along a column of keys is a row, and one along a row of keys a column; a single value
stands for itself. -/
def resultOf (alongColumn : Bool) : List Value → Value
  | [v] => v
  | vs => .array (if alongColumn then [vs] else vs.map fun v => [v])

/-- The result that lines up with the key found. -/
def aligned (arguments : List Value) : Outcome Value := do
  let mode ← modeOf (← optionalNumber arguments 4 0.0)
  let backward ← isBackward (← optionalNumber arguments 5 1.0)
  let t ← Target.ofValue (argAt arguments 0) mode.wildcards
  let keyGrid := (argAt arguments 1).grid
  let alongColumn := 1 < keyGrid.length || keyGrid.width = 1
  match keyGrid.vector? with
  | none => throw .value
  | some keys =>
    let resultGrid := (argAt arguments 2).grid
    let results := if alongColumn then resultGrid else resultGrid.transpose
    if results.length != keys.length then throw .value
    match mode.place t keys backward with
    | some i => return resultOf alongColumn (results[i]?.getD [])
    | none => if isMissing arguments 3 then throw .notAvailable else return argAt arguments 3

/-- The argument with a number. -/
def choose (arguments : List Value) : Outcome Value := do
  let k ← positiveIndex (← numberArg arguments 0)
  match arguments[k]? with
  | some v => return v
  | none => throw .value

/-- A measure of a grid; error values pass through. -/
def measureOf (f : Grid → Nat) (arguments : List Value) : Outcome Value :=
  match argAt arguments 0 with
  | .error e => .error e
  | v => .ok (.number (Float.ofNat (f v.grid)))

def measure (name : String) (f : Grid → Nat) : Function := .ofValues .lookup name 1 (some 1) (measureOf f)

def function (name : String) (least : Nat) (most : Option Nat)
    (f : List Value → Outcome Value) : Function :=
  .ofValues .lookup name least most f

end Lookup

open Lookup in
def lookupFunctions [RegexLibrary] : List Function :=
  [ function "VLOOKUP" 3 (some 4) vertical,
    function "HLOOKUP" 3 (some 4) horizontal,
    function "MATCH" 2 (some 3) position,
    function "INDEX" 2 (some 3) index,
    function "XLOOKUP" 3 (some 6) aligned,
    function "CHOOSE" 2 none choose,
    measure "ROWS" List.length,
    measure "COLUMNS" Grid.width ]

end Spreadsheet
