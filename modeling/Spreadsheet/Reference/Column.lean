import Spreadsheet.Power
import Spreadsheet.Reference.Fault
import Spreadsheet.Text.Case

/-!
# Column letters

Columns are numbered from one by letters: `A` to `Z`, then `AA`. This is positional notation in base
26 with digits one to twenty-six, so every number above zero has exactly one spelling and zero has
the empty one.

* `columnLetters` : the letters of a number;
* `columnIndex` : the number of some letters in either case, which must stay below `2 ^ 32`.
-/

namespace Spreadsheet

open Text (isAsciiLetter asciiUpperChar)

/-- Numbers of columns stay below this bound. -/
def columnIndexBound : Nat := 2 ^ 32

/-- Puts the letters of `n` in front of `rest`. -/
def columnLettersAux (n : Nat) (rest : List Char) : List Char :=
  if n = 0 then rest
  else columnLettersAux ((n - 1) / 26) (Char.ofNat ('A'.toNat + (n - 1) % 26) :: rest)
termination_by n
decreasing_by omega

def columnLetters (n : Nat) : String := String.ofList (columnLettersAux n [])

/-- A letter as a digit from one to twenty-six. -/
def letterDigit (c : Char) : Nat := (asciiUpperChar c).toNat - 'A'.toNat + 1

/-- Reads letters onto the number `n` of those before them; `whole` is what a message quotes. -/
def columnIndexAux (whole : String) (n : Nat) : List Char → Except ReferenceFault Nat
  | [] => .ok n
  | c :: cs =>
    if !isAsciiLetter c then .error (.letterInvalid c)
    else
      let next := 26 * n + letterDigit c
      if columnIndexBound ≤ next then .error (.columnTooLarge whole)
      else columnIndexAux whole next cs

def columnIndex (letters : String) : Except ReferenceFault Nat :=
  if letters.isEmpty then .error .lettersEmpty else columnIndexAux letters 0 letters.toList

end Spreadsheet
