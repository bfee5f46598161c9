import Spreadsheet.Text.CharClass
import Spreadsheet.Text.CaseRuns

/-!
# Upper case, lower case, and comparing without case

* `upper`, `lower` : the full case maps, under which a text may change its length
  (`ß` becomes `SS`); a capital sigma becomes `ς` at the end of a word and `σ` elsewhere;
* `foldChar` : the form in which pattern matching compares characters, always one character;
* `caseVariants` : all characters with one such form;
* `equalIgnoringAsciiCase` : comparison for keywords, which are ASCII;
* `compareText` : order by code point.
-/

namespace Spreadsheet.Text

def asciiLowerChar (c : Char) : Char := if isAsciiUpper c then Char.ofNat (c.toNat + 32) else c

def asciiUpperChar (c : Char) : Char := if isAsciiLower c then Char.ofNat (c.toNat - 32) else c

def asciiLower (s : String) : String := String.ofList (s.toList.map asciiLowerChar)

def asciiUpper (s : String) : String := String.ofList (s.toList.map asciiUpperChar)

def equalIgnoringAsciiCase (s t : String) : Bool :=
  s.toList.map asciiLowerChar == t.toList.map asciiLowerChar

/-! ## Full case maps -/

/-- The lower-case form of one character; only the dotted capital I takes two. -/
def lowerChar (c : Char) : List Char :=
  if c.toNat < 0x80 then [asciiLowerChar c]
  else if c.toNat == 0x130 then ['i', Char.ofNat 0x307]
  else [Char.ofNat ((CaseRun.image? CaseRuns.lowerRuns c.toNat).getD c.toNat)]

def upperChar (c : Char) : List Char :=
  if c.toNat < 0x80 then [asciiUpperChar c]
  else match CaseRuns.upperExpansions.lookup c.toNat with
    | some ns => ns.map Char.ofNat
    | none => [Char.ofNat ((CaseRun.image? CaseRuns.upperRuns c.toNat).getD c.toNat)]

def upper (s : String) : String := String.ofList (s.toList.flatMap upperChar)

/-- Whether the first character that is not ignorable is a cased one. -/
def startsCased (cs : List Char) : Bool :=
  match cs.dropWhile isCaseIgnorable with
  | c :: _ => isCased c
  | [] => false

/-- `before` holds the characters already passed, the last one first. -/
def lowerChars (before : List Char) : List Char → List Char
  | [] => []
  | c :: rest =>
    let image :=
      if c == 'Σ' then
        if startsCased before && !startsCased rest then ['ς'] else ['σ']
      else lowerChar c
    image ++ lowerChars (c :: before) rest

def lower (s : String) : String := String.ofList (lowerChars [] s.toList)

/-! ## Comparing -/

/-- The caseless form of a character: two characters match without regard to case when these
agree. -/
def foldChar (c : Char) : Char :=
  if c.toNat < 0x80 then asciiLowerChar c
  else
    let image := CaseRun.image? CaseRuns.foldRuns c.toNat <|> CaseRun.image? CaseRuns.lowerRuns c.toNat
    Char.ofNat (image.getD c.toNat)

/-- All characters with the caseless form of `c`. -/
def caseVariants (c : Char) : List Char :=
  let form := foldChar c
  let near := if isAsciiLower form then [form, asciiUpperChar form] else [form]
  let far := (CaseRun.preimages CaseRuns.foldRuns form.toNat ++
    CaseRun.preimages CaseRuns.lowerRuns form.toNat).map Char.ofNat
  (near ++ far.filter fun d => foldChar d == form).eraseDups

/-- Order of two lists of characters by code point, a shorter one before its extensions. -/
def compareChars : List Char → List Char → Ordering
  | [], [] => .eq
  | [], _ :: _ => .lt
  | _ :: _, [] => .gt
  | a :: s, b :: t => (compare a.toNat b.toNat).then (compareChars s t)

def compareText (s t : String) : Ordering := compareChars s.toList t.toList

/-- Equality of the lower-case forms. -/
def equalIgnoringCase (s t : String) : Bool := lower s == lower t

end Spreadsheet.Text
