import Spreadsheet.Formula.Expr
import Spreadsheet.Formula.Lexer

/-!
# The grammar of formulas

From loosest to tightest: comparison, `&`, `+` and `-`, `*` and `/`, signs, `^`, `%`, `:`. Chains of
one level group to the left, but `^` groups to the right and its exponent may carry a sign. The
leading `=` of a formula may be left out.

Whatever nests, be it parentheses, calls, arrays, signs or exponents, goes through a signed operand,
so `signedOperand` counts the levels left and everything below it is given the parser of the next
level. Chains are loops over the tokens that are left.

* `TokenParser` : reads from a token stream, or stops with the first fault it comes to; a token can
  be passed only if the one after it is readable;
* `signedOperand`, `expression` : the grammar;
* `parseFormula` : the expression a formula writes.
-/

namespace Spreadsheet.Formula

/-- Deepest nesting of parentheses, calls, signs and powers, and longest run of percent signs. -/
def maxNesting : Nat := 100

/-- Why a text is no formula. -/
inductive Rejection where
  | malformed (fault : ParseFault)
  | reference (problem : ReferenceProblem)

def Rejection.fault : Rejection → FormulaError
  | malformed fault => .malformed fault
  | reference problem => .invalidReference problem

abbrev TokenParser := StateT TokenStream (Except Rejection)

def failParse {α : Type} (fault : ParseFault) : TokenParser α := throw (.malformed fault)

def failReference {α : Type} (problem : ReferenceProblem) : TokenParser α := throw (.reference problem)

/-- The token to be read next. -/
def current : TokenParser Token := do
  match (← get).tokens with
  | t :: _ => return t
  | [] => return .finish

/-- Makes sure that the stream can be read at its front. -/
def checkReadable : TokenParser Unit := do
  let s ← get
  match s.tokens, s.fault with
  | [], some fault => failParse fault
  | _, _ => return

/-- Passes the current token and gives it. -/
def advance : TokenParser Token := do
  let t ← current
  modify fun s => { s with tokens := s.tokens.tail }
  checkReadable
  return t

/-- Passes a mark that has to come next. -/
def expect (m : Mark) : TokenParser Unit := do
  let t ← current
  if t = .mark m then discard advance else failParse (.expected (.mark m) t)

/-! ## Chains of operators -/

/-- Operators of one level. -/
abbrev OperatorLevel := Token → Option BinaryOp

def comparisonOps : OperatorLevel
  | .mark .equal => some .equal
  | .mark .notEqual => some .notEqual
  | .mark .less => some .less
  | .mark .lessEqual => some .lessEqual
  | .mark .greater => some .greater
  | .mark .greaterEqual => some .greaterEqual
  | _ => none

def concatOps : OperatorLevel
  | .mark .ampersand => some .concat
  | _ => none

def additiveOps : OperatorLevel
  | .mark .plus => some .add
  | .mark .minus => some .subtract
  | _ => none

def multiplicativeOps : OperatorLevel
  | .mark .star => some .multiply
  | .mark .slash => some .divide
  | _ => none

/-- Operators and operands as long as they follow; each takes a token, so as many rounds as there
are tokens are enough. -/
def chainRest (ops : OperatorLevel) (operand : TokenParser Expr) (left : Expr) :
    Nat → TokenParser Expr
  | 0 => return left
  | rounds + 1 => do
    match ops (← current) with
    | none => return left
    | some op =>
      discard advance
      let right ← operand
      chainRest ops operand (.binary op left right) rounds

/-- Operands joined by operators of one level, grouped to the left. -/
def chain (ops : OperatorLevel) (operand : TokenParser Expr) : TokenParser Expr := do
  let left ← operand
  if (ops (← current)).isSome then chainRest ops operand left (← get).tokens.length
  else return left

/-- An expression, given its signed operands. -/
def expressionOf (operand : TokenParser Expr) : TokenParser Expr :=
  chain comparisonOps (chain concatOps (chain additiveOps (chain multiplicativeOps operand)))

/-! ## Operands -/

/-- The address a word shaped like a cell stands for, on a sheet. -/
def readCell (sheet : Option String) (word : String) : TokenParser Address :=
  match Address.read word with
  | .ok a => return { a with sheet }
  | .error fault => failReference (.unreadable fault)

/-- The cell that has to follow the name of a sheet. -/
def cellOnSheet (sheet : String) : TokenParser Address := do
  match ← advance with
  | .cell word => readCell (some sheet) word
  | found => failReference (.cellMissing sheet found)

/-- Further items of an array: `row` holds the last row and `rows` the ones before it, both in
reverse. -/
def arrayRest (item : TokenParser Expr) (rows : List (List Expr)) (row : List Expr) :
    Nat → TokenParser (List (List Expr))
  | 0 => failParse .arraySeparator
  | rounds + 1 => do
    match ← current with
    | .mark .comma =>
      discard advance
      let e ← item
      arrayRest item rows (e :: row) rounds
    | .mark .semicolon =>
      discard advance
      let e ← item
      arrayRest item (row.reverse :: rows) [e] rounds
    | .mark .rightBrace => return (row.reverse :: rows).reverse
    | _ => failParse .arraySeparator

/-- Whether all rows are as long as the first. -/
def isRectangular {α : Type} : List (List α) → Bool
  | [] => true
  | row :: rows => rows.all fun r => r.length == row.length

/-- An array between braces. -/
def arrayLiteral (item : TokenParser Expr) : TokenParser Expr := do
  expect .leftBrace
  let rows ← if (← current) = .mark .rightBrace then pure []
    else do
      let e ← item
      arrayRest item [] [e] ((← get).tokens.length + 1)
  if !isRectangular rows then failParse .arrayRagged
  expect .rightBrace
  return .array rows

/-- An argument, which may be left out. -/
def argument (item : TokenParser Expr) : TokenParser Expr := do
  match ← current with
  | .mark .comma => return .missing
  | .mark .rightParen => return .missing
  | _ => item

/-- Further arguments, each after a comma; `read` holds those before, in reverse. -/
def argumentsRest (item : TokenParser Expr) (read : List Expr) : Nat → TokenParser (List Expr)
  | 0 => return read.reverse
  | rounds + 1 => do
    if (← current) = .mark .comma then
      discard advance
      let e ← argument item
      argumentsRest item (e :: read) rounds
    else return read.reverse

/-- The arguments of a call, in parentheses. -/
def callArguments (item : TokenParser Expr) : TokenParser (List Expr) := do
  expect .leftParen
  let arguments ← if (← current) = .mark .rightParen then pure []
    else do
      let e ← argument item
      argumentsRest item [e] (← get).tokens.length
  expect .rightParen
  return arguments

/-- Literals, references, calls, arrays, and expressions in parentheses. -/
def primary (item : TokenParser Expr) : TokenParser Expr := do
  match ← current with
  | .number x => discard advance; return .number x
  | .text s => discard advance; return .text s
  | .boolean b => discard advance; return .boolean b
  | .error e => discard advance; return .error e
  | .mark .leftParen =>
    discard advance
    let e ← item
    expect .rightParen
    return e
  | .mark .leftBrace => arrayLiteral item
  | .sheet sheet => discard advance; return .cell (← cellOnSheet sheet)
  | .cell word => discard advance; return .cell (← readCell none word)
  | .name name =>
    discard advance
    if (← current) = .mark .leftParen then
      return .call (Text.upper name) (← callArguments item)
    else return .name name
  | found => failParse (.unexpected found)

/-- The end of a range, after its colon. -/
def rangeEnd : TokenParser Address := do
  match ← advance with
  | .cell word => readCell none word
  | .sheet sheet => cellOnSheet sheet
  | found => failReference (.rangeEnd found)

/-- A primary, or two cells around a colon. -/
def rangeOperand (item : TokenParser Expr) : TokenParser Expr := do
  let left ← primary item
  if (← current) = .mark .colon then
    discard advance
    match left with
    | .cell start => return .range (CellRange.ofCorners start (← rangeEnd))
    | _ => failReference .rangeStart
  else return left

/-- Percent signs after an operand, of which `left` more may come. -/
def percents (e : Expr) : (left : Nat) → TokenParser Expr
  | 0 => do if (← current) = .mark .percent then failParse .tooManyPercents else return e
  | left + 1 => do
    if (← current) = .mark .percent then
      discard advance
      percents (.unary .percent e) left
    else return e

def percentOperand (item : TokenParser Expr) : TokenParser Expr := do
  percents (← rangeOperand item) maxNesting

/-- Reads signs, powers and what they apply to, with so many levels of nesting left. -/
def signedOperand : (levels : Nat) → TokenParser Expr
  | 0 => failParse (.nestsTooDeep maxNesting)
  | levels + 1 => do
    match ← current with
    | .mark .minus =>
      discard advance
      return .unary .negate (← signedOperand levels)
    | .mark .plus =>
      discard advance
      signedOperand levels
    | _ =>
      let base ← percentOperand (expressionOf (signedOperand levels))
      if (← current) = .mark .caret then
        discard advance
        return .binary .power base (← signedOperand levels)
      else return base

def expression : TokenParser Expr := expressionOf (signedOperand maxNesting)

/-! ## Formulas -/

/-- A whole formula: an expression and nothing after it. -/
def wholeFormula : TokenParser Expr := do
  checkReadable
  let e ← expression
  match ← current with
  | .finish => return e
  | found => failParse (.trailing found)

/-- The formula without blanks around it and without its leading `=`. -/
def formulaBody (formula : String) : List Char :=
  match (Text.trim formula).toList with
  | '=' :: cs => cs
  | cs => cs

/-- The expression that a formula writes. -/
def parseFormula (formula : String) : Except FormulaError Expr :=
  let body := formulaBody formula
  if body.all Text.isBlank then .error (.malformed .emptyFormula)
  else (wholeFormula.run' (TokenStream.ofText body)).mapError Rejection.fault

end Spreadsheet.Formula
