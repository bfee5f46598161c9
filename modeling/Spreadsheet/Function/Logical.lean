import Spreadsheet.Function.Arguments

/-!
# Logical functions

Choices evaluate their conditions in order and then only the branch that is taken, so what stands in
the other branches is never read.

* `Logical.choose` : the value of the first pair whose condition holds;
* `Logical.truthValues` : the truth values that `AND`, `OR` and `XOR` work on;
* `logicalFunctions` : the functions of this category.
-/

namespace Spreadsheet

namespace Logical

/-! ## Choices -/

/-- Evaluates a condition and goes on with it; an error value ends the choice. -/
def onCondition (condition : Argument) (next : Bool → Readings Value) : Readings Value := do
  match truthOf (← condition.evaluate ()) with
  | .error e => return .error e
  | .ok holds => next holds

/-- The second argument if the first holds, otherwise the third, which counts as false if left out. -/
def ifElse : List Argument → Readings Value
  | condition :: consequent :: rest =>
    onCondition condition fun holds =>
      if holds then consequent.evaluate ()
      else match rest.head? with
        | some alternative => alternative.evaluate ()
        | none => return .boolean false
  | _ => return .error .value

/-- The value of the first pair whose condition holds. -/
def choose : List Argument → Readings Value
  | condition :: consequent :: rest =>
    onCondition condition fun holds => if holds then consequent.evaluate () else choose rest
  | _ => return .error .notAvailable

/-- Pairs of conditions and values. -/
def ifs (arguments : List Argument) : Readings Value :=
  if arguments.length % 2 != 0 then throw (.argument "IFS expects condition/value pairs")
  else choose arguments

/-- The second argument in place of an error value or a failed formula. -/
def ifError : List Argument → Readings Value
  | [first, fallback] => do
    match ← Readings.attempt (first.evaluate ()) with
    | .ok (.error _) => fallback.evaluate ()
    | .error _ => fallback.evaluate ()
    | .ok v => return v
  | _ => return .error .value

/-- The second argument in place of `#N/A`. -/
def ifNotAvailable : List Argument → Readings Value
  | [first, fallback] => do
    match ← first.evaluate () with
    | .error .notAvailable => fallback.evaluate ()
    | v => return v
  | _ => return .error .value

/-! ## Connectives -/

/-- What a cell of a grid adds: blanks and texts are passed over. -/
def cellTruth : Value → Outcome (List Bool)
  | .boolean b => .ok [b]
  | .number x => .ok [x.float != 0.0]
  | .error e => .error e
  | _ => .ok []

def argumentTruths : Value → Outcome (List Bool)
  | .array rows => do
    let parts ← rows.flatten.mapM cellTruth
    return parts.flatten
  | .empty => .ok []
  | v => do return [← truthOf v]

/-- The truth values of all arguments, of which there must be some. -/
def truthValues (arguments : List Value) : Outcome (List Bool) := do
  let truths := (← arguments.mapM argumentTruths).flatten
  if truths.isEmpty then throw .value
  return truths

/-- A function of truth values, for which blanks make no difference. -/
def connective (name : String) (f : List Bool → Bool) : Function :=
  (Function.ofValues .logical name 1 none fun arguments => do
    return .boolean (f (← truthValues arguments))).ignoringBlanks

def constant (name : String) (b : Bool) : Function :=
  .ofValues .logical name 0 (some 0) fun _ => .ok (.boolean b)

/-- A function that evaluates its arguments itself. -/
def choice (name : String) (least : Nat) (most : Option Nat)
    (f : List Argument → Readings Value) : Function :=
  { name, category := .logical, least, most, implementation := .lazy fun _ => f }

end Logical

open Logical in
def logicalFunctions : List Function :=
  [ choice "IF" 2 (some 3) ifElse,
    choice "IFS" 2 none ifs,
    choice "IFERROR" 2 (some 2) ifError,
    choice "IFNA" 2 (some 2) ifNotAvailable,
    connective "AND" fun truths => truths.all id,
    connective "OR" fun truths => truths.any id,
    connective "XOR" fun truths => truths.countP id % 2 == 1,
    .ofValues .logical "NOT" 1 (some 1) fun arguments => do
      return .boolean !(← truthOf (argAt arguments 0)),
    constant "TRUE" true,
    constant "FALSE" false ]

end Spreadsheet
