import Spreadsheet.Regex.Library

/-!
# Wildcard patterns

In a pattern `*` stands for any text, `?` for one character, and `~` takes the next character, or itself at the end, for
what it is. Everything else stands for itself in any case. A pattern is turned into a regular expression.

* `Wildcard.hasWildcards`, `Wildcard.unescape` : patterns that are compared as texts, and with which text;
* `Wildcard.expression` : the expression of a pattern; `Wildcard.compile?` : the same for a text as a whole, compiled.
-/

namespace Spreadsheet.Wildcard

open RegexLibrary (escape)

variable [RegexLibrary]

/-- Whether a pattern has a wildcard that is not escaped. -/
def hasWildcards : List Char → Bool
  | [] => false
  | ['~'] => false
  | '~' :: _ :: cs => hasWildcards cs
  | '*' :: _ => true
  | '?' :: _ => true
  | _ :: cs => hasWildcards cs

/-- The text of a pattern without its escapes. -/
def unescape : List Char → List Char
  | [] => []
  | ['~'] => ['~']
  | '~' :: c :: cs => c :: unescape cs
  | c :: cs => c :: unescape cs

/-- The expressions of the wildcards and characters of a pattern. -/
def parts : List Char → List String
  | [] => []
  | ['~'] => [escape "~"]
  | '~' :: c :: cs => escape (String.singleton c) :: parts cs
  | '*' :: cs => "(?s:.*)" :: parts cs
  | '?' :: cs => "(?s:.)" :: parts cs
  | c :: cs => escape (String.singleton c) :: parts cs

/-- The expression of a pattern, which may begin anywhere in a text. -/
def expression (cs : List Char) : String := String.join (parts cs)

/-- The pattern of a text as a whole, unless it is too large. -/
def compile? (cs : List Char) : Option Regex := RegexLibrary.compile? ("^" ++ expression cs ++ "$")

end Spreadsheet.Wildcard
