import Spreadsheet.Regex.Item

/-!
# How large an expression may be

An expression is matched by an automaton on the bytes of UTF-8 text, read from the end, and there is room for ten
mebibytes of it. A state takes 32 bytes, a branch of a choice between states 4, and an entry in a table of ASCII
characters 8.

* `Regex.itemSize` : what an item takes; a character takes a state for each byte of its case variants, where variants
  share the bytes in which they begin, and adjacent ones also the last byte;
* `Regex.fits` : whether there is room for an expression.
-/

namespace Spreadsheet.Regex

open Text (caseVariants)

def stateSize : Nat := 32

def branchSize : Nat := 4

def entrySize : Nat := 8

/-- The room for the automaton of an expression. -/
def sizeLimit : Nat := 10 * 1024 * 1024

/-- The beginnings of the bytes of some characters, each once. -/
def leadingBytes (cs : List Char) : List (List UInt8) :=
  (cs.flatMap fun c =>
    let bytes := String.utf8EncodeChar c
    (List.range' 1 (bytes.length - 1)).map bytes.take).eraseDups

/-- How many ranges of last bytes some characters make up. -/
def lastByteRanges (cs : List Char) : Nat :=
  cs.countP fun c => c.toNat % 64 == 0 || !cs.any fun d => d.toNat + 1 == c.toNat

/-- What a choice between several characters takes. -/
def choiceSize (cs : List Char) : Nat :=
  if cs.all (·.toNat < 0x80) then 2 * stateSize + cs.length * entrySize
  else
    let ranges := lastByteRanges cs
    (2 + (leadingBytes cs).length + ranges) * stateSize + ranges * branchSize

def charSize (c : Char) : Nat :=
  let variants := caseVariants c
  if variants.length ≤ 1 then c.utf8Size * stateSize else choiceSize variants

/-- What one character of any kind takes: nine ranges of characters by the count and the first of their bytes, with 27
states. -/
def oneSize : Nat := (2 + 27) * stateSize + 9 * branchSize

def itemSize : Item → Nat
  | .front => 2 * stateSize
  | .finish => 2 * stateSize
  | .one => oneSize
  | .any => oneSize + stateSize + 2 * branchSize
  | .char c => charSize c

/-- What it takes to begin at any place of a text. -/
def anyStartSize : Nat := 4 * stateSize + entrySize + 2 * branchSize

/-- What it takes to find the place where an expression begins, which is known if it begins with the front. -/
def startSize : List Item → Nat
  | .front :: _ => 0
  | _ => anyStartSize

def fits (items : List Item) : Bool :=
  items.foldl (fun size p => size + itemSize p) (startSize items) ≤ sizeLimit

end Spreadsheet.Regex
