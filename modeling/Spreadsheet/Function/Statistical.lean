import Spreadsheet.Criteria
import Spreadsheet.Function.Arguments
import Spreadsheet.Grid

/-!
# Statistical functions

Sums, means, extremes, counts, spread and rank of the numbers in the arguments, and the same for cells
picked by criteria.

* `mean`, `variance`, `median`, `mostFrequent`, `kth` : of plain numbers;
* `Picking` : the values of one range that stand where another range meets a criterion;
* `statisticalFunctions` : the functions of this category.
-/

namespace Spreadsheet

namespace Statistical

open Binary64 (Number)

/-! ## Of numbers -/

/-- The length of a list as a number. -/
def size {α : Type} (xs : List α) : Float := Float.ofNat xs.length

def mean (xs : List Number) : Outcome Number :=
  if xs.isEmpty then .error .divisionByZero else .ok (sum xs / size xs)

/-- The mean squared distance from the mean; a sample counts one number less. -/
def variance (sample : Bool) (xs : List Number) : Outcome Number := do
  let degrees := if sample then xs.length - 1 else xs.length
  if degrees = 0 then throw .divisionByZero
  let m ← mean xs
  return sum (xs.map fun x => (x - m) * (x - m)) / Float.ofNat degrees

/-- Folds numbers into one; no numbers give zero. -/
def extreme (choose : Number → Number → Number) : List Number → Number
  | [] => (0.0 : Float)
  | x :: xs => xs.foldl choose x

def product : List Number → Number
  | [] => (0.0 : Float)
  | xs => xs.foldl (· * ·) (.ofFloat 1.0)

def ascending (xs : List Number) : List Number := xs.mergeSort Number.totalLe

def descending (xs : List Number) : List Number := xs.mergeSort fun x y => y.totalLe x

/-- The middle of a sorted list, halfway between two if its length is even. -/
def middle (sorted : List Number) : Option Number :=
  let half := sorted.length / 2
  if sorted.length % 2 = 0 then do
    let low ← sorted[half - 1]?
    let high ← sorted[half]?
    return (low + high) / (2.0 : Float)
  else sorted[half]?

def median (xs : List Number) : Outcome Number :=
  match middle (ascending xs) with
  | some x => .ok x
  | none => .error .num

/-- A number that occurs more often than `best`, as often as `count` says. -/
def betterOf (xs : List Float) (best : Option (Float × Nat)) (x : Float) : Option (Float × Nat) :=
  let count := xs.countP (· == x)
  if 1 < count && best.all (·.2 < count) then some (x, count) else best

/-- The number that occurs most often, the earliest of several; one that occurs once does not count. -/
def mostFrequent (xs : List Float) : Outcome Float :=
  match xs.eraseDups.foldl (betterOf xs) none with
  | some (x, _) => .ok x
  | none => .error .notAvailable

/-- The number at a place counted from one. -/
def kth (sorted : List Number) (k : Float) : Outcome Number :=
  match positiveIndex k with
  | .error _ => .error .num
  | .ok k => match sorted[k - 1]? with
    | some x => .ok x
    | none => .error .num

/-! ## Counts -/

/-- How many numbers an argument holds. -/
def numberCount : Value → Nat
  | .array rows => rows.flatten.countP fun
    | .number _ => true
    | _ => false
  | .number _ => 1
  | .boolean _ => 1
  | .text s => if (Decimal.trimmedFloat? s).isSome then 1 else 0
  | _ => 0

/-- Whether a cell looks empty. -/
def looksBlank : Value → Bool
  | .empty => true
  | .text s => s.isEmpty
  | _ => false

def countOf (n : Nat) : Value := .number (Float.ofNat n)

/-! ## Products of grids -/

/-- What a cell counts as a factor. -/
def factor : Value → Outcome Number
  | .number x => .ok x
  | .error e => .error e
  | _ => .ok (0.0 : Float)

/-- The product of the entries of all grids at one place. -/
def productAt (grids : List Grid.Cells) (row column : Nat) : Outcome Number :=
  grids.foldlM (fun acc g => do return acc * (← factor ((g.get? row column).getD .empty)))
    (.ofFloat 1.0)

/-- The sum of the products of entries at the same place, of grids of the same shape. -/
def sumOfProducts (grids : List Grid) : Outcome Number := do
  let (rows, columns) := Grid.dimensions (grids.headD [])
  if grids.any fun g => g.dimensions != (rows, columns) then throw .value
  let places := (List.range rows).flatMap fun r => (List.range columns).map fun c => (r, c)
  let cells := grids.map Grid.cells
  places.foldlM (fun total (r, c) => do return total + (← productAt cells r c)) (.ofFloat 0.0)

/-! ## Values picked by criteria -/

variable [RegexLibrary]

/-- What a picked cell adds: numbers count, error values end the computation. -/
def pickedNumbers (picked : List (Option Value)) : Outcome (List Number) :=
  gather cellNumbers (picked.filterMap id)

/-- The numbers of `values` where the cell of `range` meets the criterion, the two aligned at their
top left corners. -/
def numbersWhere (range : Grid) (c : Criterion) (values : Grid) : Outcome (List Number) :=
  let cells := values.cells
  pickedNumbers (range.zipIdx.flatMap fun (row, r) =>
    row.zipIdx.filterMap fun (v, column) =>
      if c.accepts v then some (cells.get? r column) else none)

/-- The numbers that a range, a criterion and possibly a range of values pick. -/
def matchingNumbers (arguments : List Value) : Outcome (List Number) :=
  let range := (argAt arguments 0).grid
  let values := match arguments[2]? with
    | some v => v.grid
    | none => range
  numbersWhere range (Criterion.ofValue (argAt arguments 1)) values

/-- Ranges with their criteria. -/
def criteriaPairs : List Value → List (Grid × Criterion)
  | range :: c :: rest => (range.grid, Criterion.ofValue c) :: criteriaPairs rest
  | _ => []

/-- Which cells of a range meet a criterion, row by row. -/
def hits (pair : Grid × Criterion) : List Bool := pair.1.flatten.map pair.2.accepts

/-- Which places meet all criteria; the ranges must have one shape. -/
def hitsOfAll : List (Grid × Criterion) → Outcome (List Bool)
  | [] => .ok []
  | pair :: rest =>
    if rest.any fun other => other.1.dimensions != pair.1.dimensions then .error .value
    else .ok (rest.foldl (fun mask other => List.zipWith and mask (hits other)) (hits pair))

/-- The numbers of the first argument where all criteria are met. -/
def numbersWhereAll (arguments : List Value) : Outcome (List Number) := do
  if arguments.length % 2 = 0 then throw .value
  let values := (argAt arguments 0).grid.flatten
  let mask ← hitsOfAll (criteriaPairs arguments.tail)
  if mask.length != values.length then throw .value
  gather cellNumbers ((values.zip mask).filterMap fun (v, hit) => if hit then some v else none)

/-! ## Functions -/

/-- A function of the numbers in all arguments. -/
def ofNumbers (f : List Number → Outcome Number) (arguments : List Value) : Outcome Value := do
  return .number (← f (← collectNumbers arguments))

def count (arguments : List Value) : Outcome Value :=
  .ok (countOf (arguments.foldl (fun n v => n + numberCount v) 0))

def countFilled (arguments : List Value) : Outcome Value :=
  .ok (countOf ((scalars arguments).countP fun v => !v.isEmpty))

def countBlank (arguments : List Value) : Outcome Value :=
  .ok (countOf ((scalars arguments).countP looksBlank))

def sumProduct (arguments : List Value) : Outcome Value := do
  return .number (← sumOfProducts (arguments.map Value.grid))

/-- The number at a place of the sorted numbers of the first argument. -/
def ranked (sort : List Number → List Number) (arguments : List Value) : Outcome Value := do
  let xs ← collectNumbers (arguments.take 1)
  return .number (← kth (sort xs) (← numberArg arguments 1))

def countIf (arguments : List Value) : Outcome Value :=
  let c := Criterion.ofValue (argAt arguments 1)
  .ok (countOf ((scalars (arguments.take 1)).countP c.accepts))

/-- A function of the numbers picked by one criterion. -/
def ofMatching (f : List Number → Outcome Number) (arguments : List Value) : Outcome Value := do
  return .number (← f (← matchingNumbers arguments))

def countIfs (arguments : List Value) : Outcome Value := do
  if arguments.length % 2 != 0 then throw .value
  let mask ← hitsOfAll (criteriaPairs arguments)
  return countOf (mask.countP id)

/-- A function of the numbers picked by several criteria. -/
def ofMatchingAll (f : List Number → Outcome Number) (arguments : List Value) : Outcome Value := do
  return .number (← f (← numbersWhereAll arguments))

/-- A statistical function of at least `least` values. -/
def function (name : String) (least : Nat) (most : Option Nat)
    (f : List Value → Outcome Value) : Function :=
  .ofValues .statistical name least most f

/-- A function of any numbers, for which blanks make no difference. -/
def aggregate (name : String) (f : List Value → Outcome Value) : Function :=
  (function name 1 none f).ignoringBlanks

end Statistical

open Statistical in
def statisticalFunctions [RegexLibrary] : List Function :=
  [ aggregate "SUM" (ofNumbers fun xs => .ok (sum xs)),
    aggregate "AVERAGE" (ofNumbers mean),
    aggregate "MAX" (ofNumbers fun xs => .ok (extreme .larger xs)),
    aggregate "MIN" (ofNumbers fun xs => .ok (extreme .smaller xs)),
    aggregate "COUNT" count,
    aggregate "COUNTA" countFilled,
    function "COUNTBLANK" 1 (some 1) countBlank,
    aggregate "MEDIAN" (ofNumbers median),
    aggregate "MODE" (ofNumbers fun xs => .ofFloat <$> mostFrequent (xs.map (·.float))),
    aggregate "STDEV" (ofNumbers fun xs => (·.sqrt) <$> variance true xs),
    aggregate "STDEVP" (ofNumbers fun xs => (·.sqrt) <$> variance false xs),
    aggregate "VAR" (ofNumbers (variance true)),
    aggregate "VARP" (ofNumbers (variance false)),
    aggregate "PRODUCT" (ofNumbers fun xs => .ok (product xs)),
    function "SUMPRODUCT" 1 none sumProduct,
    function "LARGE" 2 (some 2) (ranked descending),
    function "SMALL" 2 (some 2) (ranked ascending),
    function "COUNTIF" 2 (some 2) countIf,
    function "SUMIF" 2 (some 3) (ofMatching fun xs => .ok (sum xs)),
    function "AVERAGEIF" 2 (some 3) (ofMatching mean),
    function "COUNTIFS" 2 none countIfs,
    function "SUMIFS" 3 none (ofMatchingAll fun xs => .ok (sum xs)),
    function "AVERAGEIFS" 3 none (ofMatchingAll mean) ]

end Spreadsheet
