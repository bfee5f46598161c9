import Spreadsheet.ErrorValue
import Spreadsheet.Decimal.Layout
import Spreadsheet.Text.Quoted

/-!
# Tokens

The words of a formula. A `Mark` is an operator or a delimiter, which has one spelling; the other
tokens carry what they were read from. `finish` stands after the last token.

`Token.describe` shows a token in messages.
-/

namespace Spreadsheet.Formula

inductive Mark where
  | plus
  | minus
  | star
  | slash
  | caret
  | percent
  | ampersand
  | equal
  | notEqual
  | less
  | lessEqual
  | greater
  | greaterEqual
  | colon
  | comma
  | semicolon
  | leftParen
  | rightParen
  | leftBrace
  | rightBrace
deriving DecidableEq, Repr

namespace Mark

def spelling : Mark → String
  | plus => "+"
  | minus => "-"
  | star => "*"
  | slash => "/"
  | caret => "^"
  | percent => "%"
  | ampersand => "&"
  | equal => "="
  | notEqual => "<>"
  | less => "<"
  | lessEqual => "<="
  | greater => ">"
  | greaterEqual => ">="
  | colon => ":"
  | comma => ","
  | semicolon => ";"
  | leftParen => "("
  | rightParen => ")"
  | leftBrace => "\x7b"
  | rightBrace => "\x7d"

/-- The name of a mark in messages. -/
def messageName : Mark → String
  | plus => "Plus"
  | minus => "Minus"
  | star => "Star"
  | slash => "Slash"
  | caret => "Caret"
  | percent => "Percent"
  | ampersand => "Ampersand"
  | equal => "Equal"
  | notEqual => "NotEqual"
  | less => "LessThan"
  | lessEqual => "LessEqual"
  | greater => "GreaterThan"
  | greaterEqual => "GreaterEqual"
  | colon => "Colon"
  | comma => "Comma"
  | semicolon => "Semicolon"
  | leftParen => "LeftParen"
  | rightParen => "RightParen"
  | leftBrace => "LeftBrace"
  | rightBrace => "RightBrace"

end Mark

inductive Token where
  | number (x : Float)
  | text (s : String)
  | boolean (b : Bool)
  | error (e : ErrorValue)
  /-- A function name or a bare name. -/
  | name (s : String)
  /-- A word shaped like a cell reference. -/
  | cell (s : String)
  /-- A sheet name that `!` followed. -/
  | sheet (s : String)
  | mark (m : Mark)
  | finish
deriving DecidableEq

/-- A token as messages show it. -/
def Token.describe : Token → String
  | number x => "Number(" ++ Decimal.showFloat x ++ ")"
  | text s => "String(" ++ Text.quoted s ++ ")"
  | boolean b => "Boolean(" ++ (if b then "true" else "false") ++ ")"
  | error e => "Error(" ++ e.messageName ++ ")"
  | name s => "Identifier(" ++ Text.quoted s ++ ")"
  | cell s => "CellRef(" ++ Text.quoted s ++ ")"
  | sheet s => "SheetRef(" ++ Text.quoted s ++ ")"
  | mark m => m.messageName
  | finish => "Eof"

/-- Numbers in running text: always positional, a whole one without a point. -/
def plainStyle : Decimal.Style := ⟨-400, 400, "", .up⟩

/-- A float in running text. -/
def plainNumber (x : Float) : String :=
  match Binary64.exact x with
  | .finite b => String.ofList (plainStyle.shortest b)
  | _ => Decimal.showFloat x

/-- What a token was read from, where that is plain; else how messages show it. -/
def Token.plain : Token → String
  | name s => s
  | cell s => s
  | number x => plainNumber x
  | t => t.describe

end Spreadsheet.Formula
