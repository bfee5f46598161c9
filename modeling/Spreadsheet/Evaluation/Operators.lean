import Spreadsheet.Formula.Expr
import Spreadsheet.Value

/-!
# Operators on values

A grid of one cell counts as its value, and a larger one is `#VALUE!`. Error values pass through, the
left one first. Arithmetic that leaves the finite numbers is `#NUM!`.
-/

namespace Spreadsheet

open Binary64 (Number)
open Formula (BinaryOp UnaryOp)

namespace Value

/-- A number, unless it is infinite or no number. -/
def ofFinite (x : Float) : Value := if x.isFinite then number x else error .num

/-- The number of an operand. -/
def operandNumber : Value → Except ErrorValue Number
  | error e => .error e
  | v => match v.asNumber? with
    | some x => .ok x
    | none => .error .value

/-- Arithmetic on the numbers of two operands. -/
def arithmetic (f : Float → Float → Value) (v w : Value) : Value :=
  match v.operandNumber, w.operandNumber with
  | .ok x, .ok y => f x.float y.float
  | .error e, _ => error e
  | _, .error e => error e

def quotient (x y : Float) : Value := if y == 0.0 then error .divisionByZero else ofFinite (x / y)

/-- A power; zero has no negative ones. -/
def power (x y : Float) : Value :=
  if x == 0.0 && y < 0.0 then error .divisionByZero else ofFinite (x.pow y)

end Value

open Value

/-- An operator on two values that are neither errors nor grids. -/
def applyToScalars (op : BinaryOp) (v w : Value) : Value :=
  match op with
  | .add => arithmetic (fun x y => ofFinite (x + y)) v w
  | .subtract => arithmetic (fun x y => ofFinite (x - y)) v w
  | .multiply => arithmetic (fun x y => ofFinite (x * y)) v w
  | .divide => arithmetic quotient v w
  | .power => arithmetic power v w
  | .equal => boolean (v.compare w == .eq)
  | .notEqual => boolean (v.compare w != .eq)
  | .less => boolean (v.compare w == .lt)
  | .lessEqual => boolean (v.compare w != .gt)
  | .greater => boolean (v.compare w == .gt)
  | .greaterEqual => boolean (v.compare w != .lt)
  | .concat => text (v.display ++ w.display)

def applyBinary (op : BinaryOp) (v w : Value) : Value :=
  match v.scalar, w.scalar with
  | error e, _ => error e
  | _, error e => error e
  | array _, _ => error .value
  | _, array _ => error .value
  | v, w => applyToScalars op v w

def applyUnary (op : UnaryOp) (v : Value) : Value :=
  match v.scalar with
  | array _ => error .value
  | v => match v.operandNumber with
    | .error e => error e
    | .ok x => match op with
      | .negate => number (-x)
      | .percent => number (x / (100.0 : Float))

end Spreadsheet
