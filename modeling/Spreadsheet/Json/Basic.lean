import Spreadsheet.Json.Numeral

/-!
# JSON values

Members of an object keep their order and may repeat a key, so that a reader can refuse that.

* `Json` : a value; `JsonLibrary` : what is asked of a library for it;
* `Json.ofFloat` : a finite float, and `null` for the others;
* `Json.member` : the member of an object under any of several keys;
* `Json.isReadable` : no number is out of range, no text is broken, and not too much is nested.
-/

namespace Spreadsheet

inductive Json where
  | null
  | boolean (b : Bool)
  | number (n : JsonNumeral)
  | text (s : String)
  /-- A string that escapes half of a surrogate pair, which is no text, or an object with such a key. -/
  | broken
  | array (items : List Json)
  | object (members : List (String × Json))

/-- A library that writes and reads values. Everything that becomes a text is given one. -/
class JsonLibrary where
  /-- The numeral of a finite float. -/
  numeral : Binary64.Binary → JsonNumeral
  /-- The value of a numeral, unless it is too large. -/
  float? : JsonNumeral → Option Float
  render : Json → String
  parse? : String → Option Json

namespace Json

instance : Inhabited Json := ⟨null⟩

def ofNat (n : Nat) : Json := number (.ofNat n)

def ofInt (n : Int) : Json := number (.ofInt n)

def ofFloat [JsonLibrary] (x : Float) : Json :=
  match Binary64.exact x with
  | .finite b => number (JsonLibrary.numeral b)
  | _ => null

/-- A text, or `null`. -/
def ofText? : Option String → Json
  | some s => text s
  | none => null

/-- What an object holds under several keys that mean the same. -/
inductive Member where
  | absent
  | found (v : Json)
  | repeated

def member (keys : List String) (members : List (String × Json)) : Member :=
  match members.filter fun m => keys.contains m.1 with
  | [] => .absent
  | [m] => .found m.2
  | _ => .repeated

mutual

/-- Whether every number has a value, every string is a text, and no array or object stands within
`levels` others. -/
def isReadable [JsonLibrary] (levels : Nat) : Json → Bool
  | number n => (JsonLibrary.float? n).isSome
  | broken => false
  | array items => 0 < levels && allReadable (levels - 1) items
  | object members => 0 < levels && membersReadable (levels - 1) members
  | _ => true

def allReadable [JsonLibrary] (levels : Nat) : List Json → Bool
  | [] => true
  | v :: vs => v.isReadable levels && allReadable levels vs

def membersReadable [JsonLibrary] (levels : Nat) : List (String × Json) → Bool
  | [] => true
  | (_, v) :: members => v.isReadable levels && membersReadable levels members

end

end Json

end Spreadsheet
