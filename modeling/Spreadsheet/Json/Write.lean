import Spreadsheet.Json.Basic
import Spreadsheet.Text.Quoted

/-!
# Writing JSON

Compact text: no blanks between tokens, and of characters only quotes, backslashes and control
characters are escaped. What is written is put in front of what follows.

* `Json.writeText` : a string; `Json.write` : a value; `Json.render` : a value as a text of its own.
-/

namespace Spreadsheet.Json

/-- A number below 256 in two hexadecimal digits. -/
def hexPair (n : Nat) : List Char := [Nat.digitChar (n / 16), Nat.digitChar (n % 16)]

def escapeChar (c : Char) : List Char :=
  if c == '"' then ['\\', '"']
  else if c == '\\' then ['\\', '\\']
  else if c == '\n' then ['\\', 'n']
  else if c == '\r' then ['\\', 'r']
  else if c == '\t' then ['\\', 't']
  else if c == '\x08' then ['\\', 'b']
  else if c == '\x0c' then ['\\', 'f']
  else if c.toNat < 0x20 then ['\\', 'u', '0', '0'] ++ hexPair c.toNat
  else [c]

/-- Puts escaped characters in front. -/
def writeChars (rest : List Char) : List Char → List Char
  | [] => rest
  | c :: cs => escapeChar c ++ writeChars rest cs

def writeText (s : String) (rest : List Char) : List Char := '"' :: writeChars ('"' :: rest) s.toList

mutual

def write : Json → List Char → List Char
  | null, rest => "null".toList ++ rest
  | boolean b, rest => (if b then "true" else "false").toList ++ rest
  | number n, rest => n.write ++ rest
  | text s, rest => writeText s rest
  | broken, rest => "null".toList ++ rest
  | array [], rest => '[' :: ']' :: rest
  | array (v :: vs), rest => '[' :: v.write (writeItems vs (']' :: rest))
  | object [], rest => '\x7b' :: '\x7d' :: rest
  | object ((key, v) :: members), rest =>
    '\x7b' :: writeText key (':' :: v.write (writeMembers members ('\x7d' :: rest)))

/-- Items that follow another one. -/
def writeItems : List Json → List Char → List Char
  | [], rest => rest
  | v :: vs, rest => ',' :: v.write (writeItems vs rest)

/-- Members that follow another one. -/
def writeMembers : List (String × Json) → List Char → List Char
  | [], rest => rest
  | (key, v) :: members, rest => ',' :: writeText key (':' :: v.write (writeMembers members rest))

end

def render (v : Json) : String := String.ofList (v.write [])

end Spreadsheet.Json
