import Spreadsheet.Reference.CellRange
import Spreadsheet.ErrorValue

/-!
# Expressions

The tree of a formula: literals, references, operators, function calls and arrays. An argument left
out between commas is `missing`. `Expr.depth` measures nesting: a chain of operators down the left
side, as in `A1+A2+A3`, counts once.
-/

namespace Spreadsheet.Formula

inductive BinaryOp where
  | add
  | subtract
  | multiply
  | divide
  | power
  | equal
  | notEqual
  | less
  | lessEqual
  | greater
  | greaterEqual
  | concat
deriving DecidableEq, Repr

/-- How an operator is written. -/
def BinaryOp.spelling : BinaryOp → String
  | add => "+"
  | subtract => "-"
  | multiply => "*"
  | divide => "/"
  | power => "^"
  | equal => "="
  | notEqual => "<>"
  | less => "<"
  | lessEqual => "<="
  | greater => ">"
  | greaterEqual => ">="
  | concat => "&"

inductive UnaryOp where
  | negate
  | percent
deriving DecidableEq, Repr

inductive Expr where
  | number (x : Float)
  | text (s : String)
  | boolean (b : Bool)
  | error (e : ErrorValue)
  /-- An argument left out. -/
  | missing
  | cell (a : Address)
  | range (r : CellRange)
  | name (s : String)
  | binary (op : BinaryOp) (left right : Expr)
  | unary (op : UnaryOp) (operand : Expr)
  | call (function : String) (arguments : List Expr)
  | array (rows : List (List Expr))

namespace Expr

instance : Inhabited Expr := ⟨missing⟩

mutual

/-- Levels of nesting; a chain of binary operators down the left side is one level. -/
def depth : Expr → Nat
  | binary _ left right => max (chainDepth left) (depth right) + 1
  | unary _ operand => depth operand + 1
  | call _ arguments => listDepth arguments + 1
  | array rows => rowsDepth rows + 1
  | _ => 1

/-- The deepest operand of the chain that an expression continues. -/
def chainDepth : Expr → Nat
  | binary _ left right => max (chainDepth left) (depth right)
  | unary _ operand => depth operand + 1
  | call _ arguments => listDepth arguments + 1
  | array rows => rowsDepth rows + 1
  | _ => 1

def listDepth : List Expr → Nat
  | [] => 0
  | e :: es => max (depth e) (listDepth es)

def rowsDepth : List (List Expr) → Nat
  | [] => 0
  | row :: rows => max (listDepth row) (rowsDepth rows)

end

end Expr

end Spreadsheet.Formula
