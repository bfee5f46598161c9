import Spreadsheet.Regex.Library
import Spreadsheet.Regex.Size

/-!
# Expressions matched by tables

A library for the expressions that patterns become. An expression is read into its items, and is malformed if it holds
anything else.

* `Regex.isSpecial`, `Regex.escapeChars` : the characters that are escaped;
* `Regex.items?` : the items of an expression;
* `Regex.ofItems` : matching by the table; `Regex.tables` : the library.
-/

namespace Spreadsheet

namespace Regex

/-- The characters that may have a meaning of their own. -/
def isSpecial (c : Char) : Bool :=
  c ∈ ['\\', '.', '+', '*', '?', '(', ')', '|', '[', ']', '\x7b', '\x7d', '^', '$', '#', '&', '-', '~']

/-- Characters as an expression. -/
def escapeChars (cs : List Char) : List Char := cs.flatMap fun c => if isSpecial c then ['\\', c] else [c]

/-- The items of an expression. -/
def items? : List Char → Option (List Item)
  | [] => some []
  | '(' :: '?' :: 's' :: ':' :: '.' :: ')' :: cs => (.one :: ·) <$> items? cs
  | '(' :: '?' :: 's' :: ':' :: '.' :: '*' :: ')' :: cs => (.any :: ·) <$> items? cs
  | '^' :: cs => (.front :: ·) <$> items? cs
  | '$' :: cs => (.finish :: ·) <$> items? cs
  | '\\' :: c :: cs => if isSpecial c then (.char c :: ·) <$> items? cs else none
  | c :: cs => if isSpecial c then none else (.char c :: ·) <$> items? cs

/-- Looks for items in the table of a text. -/
def ofItems (items : List Item) : Regex where
  isMatch s := (begins items s.toList).any id
  findAt? s start :=
    let cs := s.toList
    let place := Text.charsWithin cs start
    (((begins items cs).drop place).findIdx? id).map fun i => Text.byteOffset cs (place + i)

/-- The library that matches by tables. -/
instance tables : RegexLibrary where
  escape s := String.ofList (escapeChars s.toList)
  compile? e := (items? e.toList).bind fun items => if fits items then some (ofItems items) else none

end Regex

end Spreadsheet
