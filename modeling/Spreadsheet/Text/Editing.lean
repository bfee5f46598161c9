import Spreadsheet.Text.Case

/-!
# Searching and editing text

* `place?` : the first place where a text stands in another one;
* `replaceWhere` : puts a text in place of chosen occurrences of another one, which are found from the
  left and do not overlap;
* `withoutExtraSpaces`, `capitalised` : the spacing and the case of words;
* `repeated` : a text so many times.
-/

namespace Spreadsheet.Text

/-- The first place where `needle` stands, when the text begins at place `k`. -/
def placeFrom? (needle : List Char) (k : Nat) : List Char → Option Nat
  | [] => if needle.isEmpty then some k else none
  | c :: cs => if needle.isPrefixOf (c :: cs) then some k else placeFrom? needle (k + 1) cs

/-- The first place from `start` on, counted from zero, where `needle` stands. -/
def place? (needle cs : List Char) (start : Nat) : Option Nat :=
  placeFrom? needle start (cs.drop start)

/-- The text with `new` in place of the occurrences of `o :: old` whose numbers are picked, the first
one having number `k`. -/
def replaceWhere (o : Char) (old new : List Char) (pick : Nat → Bool) (k : Nat) :
    List Char → List Char
  | [] => []
  | c :: cs =>
    if (o :: old).isPrefixOf (c :: cs) then
      (if pick k then new else o :: old) ++
        replaceWhere o old new pick (k + 1) (cs.drop old.length)
    else c :: replaceWhere o old new pick k cs
termination_by cs => cs.length
decreasing_by all_goals simp only [List.length_cons, List.length_drop]; omega

/-- The text with `new` in place of the picked occurrences of `old`; the empty text occurs nowhere. -/
def substitute (old new : List Char) (pick : Nat → Bool) (cs : List Char) : List Char :=
  match old with
  | [] => cs
  | o :: old => replaceWhere o old new pick 1 cs

/-- Puts a character in front of the first word, or a space between words. -/
def consWord (c : Char) (words : List (List Char)) : List (List Char) :=
  if c == ' ' then [] :: words
  else match words with
    | [] => [[c]]
    | word :: rest => (c :: word) :: rest

/-- The parts of a text between spaces, some of them empty. -/
def betweenSpaces (cs : List Char) : List (List Char) := cs.foldr consWord [[]]

/-- Words with one space between them. -/
def withoutExtraSpaces (cs : List Char) : List Char :=
  [' '].intercalate ((betweenSpaces cs).filter fun word => !word.isEmpty)

/-- Words with a capital in front and small letters after it. -/
def capitalise (atStart : Bool) : List Char → List Char
  | [] => []
  | c :: cs =>
    if isAlphabetic c then
      (if atStart then upperChar c else lowerChar c) ++ capitalise false cs
    else c :: capitalise true cs

/-- A text so many times. -/
def repeated (s : String) (times : Nat) : String :=
  if s.isEmpty then "" else String.ofList (List.replicate times s.toList).flatten

end Spreadsheet.Text
