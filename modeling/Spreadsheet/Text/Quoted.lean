import Spreadsheet.Text.CharClass

/-!
# Quoted text

Messages show a text between double quotes, so that its ends, blanks and control characters can be
seen: a quote or a backslash is escaped by a backslash, the common control characters have letters,
and what cannot be printed is given by its number.
-/

namespace Spreadsheet.Text

/-- A number in hexadecimal, without leading zeros. -/
def hexDigits (n : Nat) : List Char := Nat.toDigits 16 n

/-- One character as quoted text shows it. -/
def escapeChar (c : Char) : List Char :=
  if c == '"' then ['\\', '"']
  else if c == '\\' then ['\\', '\\']
  else if c == '\t' then ['\\', 't']
  else if c == '\r' then ['\\', 'r']
  else if c == '\n' then ['\\', 'n']
  else if c.toNat == 0 then ['\\', '0']
  else if isUnprintable c then ['\\', 'u', '\x7b'] ++ hexDigits c.toNat ++ ['\x7d']
  else [c]

/-- Text between double quotes, with escapes. -/
def quoted (s : String) : String := String.ofList ('"' :: s.toList.flatMap escapeChar ++ ['"'])

end Spreadsheet.Text
