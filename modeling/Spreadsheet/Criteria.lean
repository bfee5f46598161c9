import Spreadsheet.Value
import Spreadsheet.Wildcard

/-!
# Criteria

A criterion picks cells: a number or a truth value picks its equals, a text is read as a comparison
such as `>5`, `<>apple` or `=a*`, where a missing operator means equality, and nothing picks blanks.
Numbers within `10 ^ -10` of each other are equal. Error values are never picked.

* `Comparison`, `TextPattern`, `Criterion` : the kinds of criteria;
* `Criterion.ofValue` : the criterion that a value asks for;
* `Criterion.accepts` : whether it picks a value.
-/

namespace Spreadsheet

inductive Comparison where
  | equal
  | notEqual
  | less
  | lessEqual
  | greater
  | greaterEqual
deriving DecidableEq, Repr

namespace Comparison

def holds : Comparison → Ordering → Bool
  | equal, o => o == .eq
  | notEqual, o => o != .eq
  | less, o => o == .lt
  | lessEqual, o => o != .gt
  | greater, o => o == .gt
  | greaterEqual, o => o != .lt

/-- Splits the comparison off the front of a text. -/
def split : List Char → Comparison × List Char
  | '>' :: '=' :: cs => (greaterEqual, cs)
  | '<' :: '=' :: cs => (lessEqual, cs)
  | '<' :: '>' :: cs => (notEqual, cs)
  | '>' :: cs => (greater, cs)
  | '<' :: cs => (less, cs)
  | '=' :: cs => (equal, cs)
  | cs => (equal, cs)

end Comparison

variable [RegexLibrary]

/-- What a text is compared with for equality. -/
inductive TextPattern where
  /-- A text, by its lower-case form. -/
  | exact (lower : String)
  | wildcard (r : Regex)

namespace TextPattern

/-- A pattern that does not compile counts as a text. -/
def ofText (pattern : String) : TextPattern :=
  let cs := pattern.toList
  match if Wildcard.hasWildcards cs then Wildcard.compile? cs else none with
  | some r => wildcard r
  | none => exact (Text.lower (String.ofList (Wildcard.unescape cs)))

def accepts : TextPattern → String → Bool
  | exact lower, s => Text.lower s == lower
  | wildcard r, s => r.isMatch s

end TextPattern

inductive Criterion where
  | number (op : Comparison) (x : Float)
  /-- Equality with a pattern, or the lack of it. -/
  | pattern (negated : Bool) (p : TextPattern)
  /-- An order comparison with a text in lower case. -/
  | ordered (op : Comparison) (lower : String)
  | boolean (op : Comparison) (b : Bool)
  | blank
  | notBlank
  | never

namespace Criterion

/-- The criterion that a text writes. -/
def ofText (s : String) : Criterion :=
  let (op, operand) := Comparison.split s.toList
  let text := String.ofList operand
  if operand.isEmpty then
    match op with
    | .equal => blank
    | .notEqual => notBlank
    | _ => never
  else match Decimal.trimmedFloat? text with
    | some x => number op x
    | none =>
      if Text.equalIgnoringAsciiCase text "TRUE" then boolean op true
      else if Text.equalIgnoringAsciiCase text "FALSE" then boolean op false
      else match op with
        | .equal => pattern false (TextPattern.ofText text)
        | .notEqual => pattern true (TextPattern.ofText text)
        | op => ordered op (Text.lower text)

/-- The criterion that a value asks for; error values and grids of several cells pick nothing. -/
def ofValue : Value → Criterion
  | .number x => number .equal x.float
  | .boolean b => boolean .equal b
  | .text s => ofText s
  | .empty => blank
  | .array [[v]] => ofValue v
  | .array _ => never
  | .error _ => never

/-- Order of numbers, those close together being equal. -/
def compareClosely (x y : Float) : Ordering :=
  if (x - y).abs < 1e-10 then .eq else Value.compareNumbers x y

/-- Whether a criterion picks a value. One for another kind of value picks it if it asks for something
different. -/
def accepts : Criterion → Value → Bool
  | number op x, .number y => op.holds (compareClosely y.float x)
  | number .equal x, .text s =>
    match Decimal.trimmedFloat? s with
    | some y => compareClosely y x == .eq
    | none => false
  | number _ _, .error _ => false
  | number op _, _ => op == .notEqual
  | boolean op b, .boolean c => op.holds (compare c b)
  | boolean _ _, .error _ => false
  | boolean op _, _ => op == .notEqual
  | pattern negated p, .text s => p.accepts s != negated
  | pattern _ _, .error _ => false
  | pattern negated _, _ => negated
  | ordered op lower, .text s => op.holds (Text.compareText (Text.lower s) lower)
  | ordered _ _, _ => false
  | blank, .empty => true
  | blank, .text s => s.isEmpty
  | blank, _ => false
  | notBlank, v => !v.isEmpty
  | never, _ => false

end Criterion

end Spreadsheet
