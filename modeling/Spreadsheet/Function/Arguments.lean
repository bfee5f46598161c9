import Spreadsheet.Function.Basic

/-!
# Values of arguments

What functions read from the values they are given. A computation on them may end early in an error
value, which is then the value of the call.

* `Outcome` : a result or an error value; `pureFunction` and `Function.ofValues` make a function of one;
* `numberOf`, `textOf`, `truthOf` : a single value as number, text or condition;
* `numberArg`, `optionalNumber`, `textArg` : the same for the argument at a place;
* `scalars` : all values, grids taken apart row by row;
* `collectNumbers` : the numbers that aggregates work on.
-/

namespace Spreadsheet

open Binary64 (Number)

/-- A result, or the error value that ends the computation. -/
abbrev Outcome := Except ErrorValue

def Outcome.toValue : Outcome Value → Value
  | .ok v => v
  | .error e => .error e

theorem Outcome.toValue_eq_iff {o : Outcome Value} {v : Value} (hv : v.isError = false) :
    o.toValue = v ↔ o = .ok v := by
  cases o with
  | ok w => exact ⟨fun h => congrArg Except.ok h, fun h => Except.ok.inj h⟩
  | error e =>
    constructor
    · rintro rfl
      cases hv
    · nofun

theorem ok_bind {α β : Type} (a : α) (f : α → Outcome β) : ((Except.ok a : Outcome α) >>= f) = f a := rfl

/-- A computation has a result if its parts have. -/
theorem bind_eq_ok_iff {α β : Type} {x : Outcome α} {f : α → Outcome β} {b : β} :
    x >>= f = .ok b ↔ ∃ a, x = .ok a ∧ f a = .ok b := by
  cases x with
  | ok a => exact ⟨fun h => ⟨a, rfl, h⟩, fun ⟨_, ha, h⟩ => Except.ok.inj ha ▸ h⟩
  | error e => exact ⟨nofun, nofun⟩

/-- An eager implementation that never fails except in error values. -/
def pureFunction (f : Surroundings → List Value → Outcome Value) : Implementation :=
  .eager fun s arguments => .ok (f s arguments).toValue

/-- The same without a view of the surroundings. -/
def plainFunction (f : List Value → Outcome Value) : Implementation := pureFunction fun _ => f

/-- A function that only computes with its values. -/
def Function.ofValues (category : Category) (name : String) (least : Nat) (most : Option Nat)
    (f : List Value → Outcome Value) : Function :=
  { name, category, least, most, implementation := plainFunction f }

/-- The same for one to which blank cells make no difference. -/
def Function.ignoringBlanks (f : Function) : Function := { f with ignoresBlanks := true }

/-- A single value as a float, for which the sign of a NaN is lost. -/
def numberOf : Value → Outcome Float
  | .number x => .ok x.float
  | .boolean b => .ok (Value.ofTruth b)
  | .empty => .ok 0.0
  | .text s => match Decimal.trimmedFloat? s with
    | some x => .ok x
    | none => .error .value
  | .error e => .error e
  | .array [[v]] => numberOf v
  | .array _ => .error .value

def textOf : Value → Outcome String
  | .error e => .error e
  | .array [[v]] => textOf v
  | .array _ => .error .value
  | v => .ok v.display

/-- Whether a condition holds: `0`, the texts `0` and empty, false and nothing do not, any other number
or text does. -/
def truthOf : Value → Outcome Bool
  | .boolean b => .ok b
  | .number x => .ok (x.float != 0.0)
  | .empty => .ok false
  | .text s => .ok !(s.isEmpty || s == "0")
  | .error e => .error e
  | .array [[v]] => truthOf v
  | .array _ => .error .value

/-! ## Arguments by place -/

def numberArg (arguments : List Value) (i : Nat) : Outcome Float :=
  match arguments[i]? with
  | some v => numberOf v
  | none => .error .value

/-- Whether an argument is left out or blank. -/
def isMissing (arguments : List Value) (i : Nat) : Bool :=
  match arguments[i]? with
  | none => true
  | some v => v.isEmpty

/-- A number that may be left out. -/
def optionalNumber (arguments : List Value) (i : Nat) (default : Float) : Outcome Float :=
  if isMissing arguments i then .ok default else numberArg arguments i

def textArg (arguments : List Value) (i : Nat) : Outcome String :=
  match arguments[i]? with
  | some v => textOf v
  | none => .error .value

/-- The argument at a place; calls have been checked for their number. -/
def argAt (arguments : List Value) (i : Nat) : Value := arguments[i]?.getD .empty

/-- A number as a count from one. -/
def positiveIndex (x : Float) : Outcome Nat :=
  if !x.isFinite || x < 1.0 then .error .value else .ok (Binary64.toNat64Range x)

/-! ## Aggregates -/

/-- The values of an argument, a grid taken apart row by row. -/
def cellsOf : Value → List Value
  | .array rows => rows.flatten
  | v => [v]

def scalars (arguments : List Value) : List Value := arguments.flatMap cellsOf

/-- What a value inside a grid adds to an aggregate: only numbers count. -/
def cellNumbers : Value → Outcome (List Number)
  | .number x => .ok [x]
  | .error e => .error e
  | _ => .ok []

/-- What a value given directly adds: truth values and numeric text count too. -/
def directNumbers : Value → Outcome (List Number)
  | .number x => .ok [x]
  | .boolean b => .ok [.ofFloat (Value.ofTruth b)]
  | .text s => .ok (Decimal.trimmedNumber? s).toList
  | .error e => .error e
  | .empty => .ok []
  | .array _ => .ok []

/-- Puts together what each value adds; the first error value ends it. -/
def gather (adds : Value → Outcome (List Number)) (vs : List Value) : Outcome (List Number) := do
  let parts ← vs.mapM adds
  return parts.flatten

def argumentNumbers : Value → Outcome (List Number)
  | .array rows => gather cellNumbers rows.flatten
  | v => directNumbers v

/-- The numbers of all arguments, in order. -/
def collectNumbers (arguments : List Value) : Outcome (List Number) :=
  gather argumentNumbers arguments

/-- The sum, added up from the left. It starts from `-0`, which changes no number it is added to. -/
def sum (xs : List Number) : Number := xs.foldl (· + ·) (.ofFloat (-0.0))

end Spreadsheet
