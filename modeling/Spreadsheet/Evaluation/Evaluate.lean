import Spreadsheet.Evaluation.Operators
import Spreadsheet.Formula.Grammar
import Spreadsheet.Function.Basic

/-!
# Evaluation

An expression is evaluated operands first and from left to right. What comes after a value is handed
down as a continuation, so that a long chain of operators, which nests to the left, is walked in a loop.

* `evaluateInto` : evaluates an expression and goes on with its value;
* `evaluate` : the value of an expression;
* `evaluateFormula` : the value of a formula given as text.
-/

namespace Spreadsheet

open Formula (Expr)

/-- What formulas are evaluated with. -/
structure Environment where
  registry : Registry
  surroundings : Surroundings

/-- The values of arguments, put behind those in `read`, which holds them in reverse. A bare range may
be read only as far as there is data. -/
def argumentValues (clipped : Bool) (read : List Value) : List Argument → Readings (List Value)
  | [] => return read.reverse
  | a :: rest => do
    let v ← match a.expr with
      | .range r => if clipped then Value.array <$> Readings.usedGrid r else a.evaluate ()
      | _ => a.evaluate ()
    argumentValues clipped (v :: read) rest

/-- The value of a call of a function. Ranges may be read only as far as there is data. -/
def Function.callWith (f : Function) (clipped : Bool) (env : Environment) (arguments : List Argument) :
    Readings Value :=
  match f.arityError? arguments.length with
  | some fault => throw fault
  | none =>
    match f.implementation with
    | .eager apply => do
      let values ← argumentValues clipped [] arguments
      liftExcept (apply env.surroundings values)
    | .lazy apply => apply env.surroundings arguments
where
  /-- The outcome of an eager function. -/
  liftExcept (outcome : Except FormulaError Value) : Readings Value := ExceptT.mk (.done outcome)

/-- The value of a call. -/
def callFunction (env : Environment) (name : String) (arguments : List Argument) : Readings Value :=
  match env.registry.get? name with
  | none => throw (.unknownFunction name)
  | some f => f.callWith f.ignoresBlanks env arguments

mutual

/-- Evaluates an expression and goes on with its value. -/
def evaluateInto (env : Environment) : Expr → (Value → Readings Value) → Readings Value
  | .number x, next => next (.number x)
  | .text s, next => next (.text s)
  | .boolean b, next => next (.boolean b)
  | .error e, next => next (.error e)
  | .missing, next => next .empty
  | .cell a, next => do next (← Readings.cell a)
  | .range r, next => do next (.array (← Readings.grid r))
  | .name s, _ => throw (.unknownName s)
  | .binary op left right, next =>
    evaluateInto env left fun v => evaluateInto env right fun w => next (applyBinary op v w)
  | .unary op operand, next => evaluateInto env operand fun v => next (applyUnary op v)
  | .call function arguments, next => do
    next (← callFunction env function (argumentList env arguments))
  | .array rows, next => do next (.array (← rowValues env rows))

/-- Arguments, ready to be evaluated. -/
def argumentList (env : Environment) : List Expr → List Argument
  | [] => []
  | e :: es => ⟨e, fun _ => evaluateInto env e pure⟩ :: argumentList env es

/-- The items of a row of an array. -/
def itemValues (env : Environment) : List Expr → Readings (List Value)
  | [] => return []
  | e :: es => do
    let v ← evaluateInto env e pure
    return v :: (← itemValues env es)

def rowValues (env : Environment) : List (List Expr) → Readings Grid
  | [] => return []
  | row :: rows => do
    let vs ← itemValues env row
    return vs :: (← rowValues env rows)

end

def evaluate (env : Environment) (e : Expr) : Readings Value := evaluateInto env e pure

/-- The value of a formula, with or without its leading `=`. -/
def evaluateFormula (env : Environment) (formula : String) : Readings Value :=
  match Formula.parseFormula formula with
  | .ok e => evaluate env e
  | .error fault => throw fault

end Spreadsheet
