import Spreadsheet.Json.Basic
import Spreadsheet.Json.Token

/-!
# Reading JSON

Tokens are put together by a stack of the arrays and objects that are still open, so depth costs no
recursion.

* `Json.Frame` : an array or object up to the value that is read next;
* `Json.valueFrom?`, `Json.valueAfter?` : the value of tokens, at a value and after one;
* `Json.parse?` : the value of a text.
-/

namespace Spreadsheet.Json

/-- What is open around a value: the items or members before it, in reverse, and for a member its
key. A key that is no text is missing, and so are the members once one of them has such a key. -/
inductive Frame where
  | items (before : List Json)
  | members (before : Option (List (String × Json))) (key : Option String)

/-- The members, in reverse, with one more. -/
def addMember? (before : Option (List (String × Json))) (key : Option String) (v : Json) :
    Option (List (String × Json)) := do
  return (← key, v) :: (← before)

/-- The object with these members, which are in reverse. -/
def ofMembers : Option (List (String × Json)) → Json
  | some members => object members.reverse
  | none => broken

mutual

/-- The value of tokens of which the first ones are a value within the open frames. -/
def valueFrom? (open_ : List Frame) : List JsonToken → Option Json
  | .null :: ts => valueAfter? null open_ ts
  | .boolean b :: ts => valueAfter? (boolean b) open_ ts
  | .number n :: ts => valueAfter? (number n) open_ ts
  | .text (some s) :: ts => valueAfter? (text s) open_ ts
  | .text none :: ts => valueAfter? broken open_ ts
  | .openArray :: .closeArray :: ts => valueAfter? (array []) open_ ts
  | .openArray :: ts => valueFrom? (.items [] :: open_) ts
  | .openObject :: .closeObject :: ts => valueAfter? (object []) open_ ts
  | .openObject :: .text key :: .colon :: ts => valueFrom? (.members (some []) key :: open_) ts
  | _ => none

/-- The value of tokens that follow the value `v` within the open frames. -/
def valueAfter? (v : Json) (open_ : List Frame) (tokens : List JsonToken) : Option Json :=
  match open_, tokens with
  | [], [] => some v
  | .items before :: outer, .comma :: ts => valueFrom? (.items (v :: before) :: outer) ts
  | .items before :: outer, .closeArray :: ts => valueAfter? (array (v :: before).reverse) outer ts
  | .members before key :: outer, .comma :: .text next :: .colon :: ts =>
    valueFrom? (.members (addMember? before key v) next :: outer) ts
  | .members before key :: outer, .closeObject :: ts =>
    valueAfter? (ofMembers (addMember? before key v)) outer ts
  | _, _ => none

end

/-- The value that a text writes. -/
def parse? (s : String) : Option Json := do
  valueFrom? [] (← JsonToken.ofText? s.toList)

end Spreadsheet.Json
