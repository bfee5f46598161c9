/-!
# Libraries of regular expressions

Patterns become regular expressions, which a library compiles and matches. Everything that uses patterns is given the
library as an instance, so that nothing depends on how it works. Offsets in a text count the bytes of its UTF-8 form.

* `Regex` : a compiled expression; `RegexLibrary` : what is asked of a library;
* `Text.byteOffset`, `Text.charsWithin` : from characters to bytes and back.
-/

namespace Spreadsheet

/-- A compiled expression. -/
structure Regex where
  /-- Whether a text has a match somewhere. -/
  isMatch : String → Bool
  /-- Where the first match begins of those that do not begin before an offset. -/
  findAt? : String → Nat → Option Nat

class RegexLibrary where
  /-- The expression for a text as it stands. -/
  escape : String → String
  /-- Compiles an expression that ignores case. It may be malformed, or too large. -/
  compile? : String → Option Regex

namespace Text

/-- How many bytes stand before a place, counted from zero. -/
def byteOffset : List Char → (place : Nat) → Nat
  | c :: cs, place + 1 => c.utf8Size + byteOffset cs place
  | _, _ => 0

/-- How many characters the first bytes hold. -/
def charsWithin : List Char → (bytes : Nat) → Nat
  | [], _ => 0
  | c :: cs, bytes => if c.utf8Size ≤ bytes then charsWithin cs (bytes - c.utf8Size) + 1 else 0

theorem charsWithin_le (cs : List Char) (bytes : Nat) : charsWithin cs bytes ≤ cs.length := by
  induction cs generalizing bytes with
  | nil => exact Nat.le_refl 0
  | cons c cs ih =>
    rw [charsWithin]
    split
    · exact Nat.succ_le_succ (ih _)
    · exact Nat.zero_le _

theorem charsWithin_byteOffset {cs : List Char} {k : Nat} (hk : k ≤ cs.length) :
    charsWithin cs (byteOffset cs k) = k := by
  induction k generalizing cs with
  | zero =>
    cases cs with
    | nil => rfl
    | cons c cs => exact if_neg (Nat.not_le.2 c.utf8Size_pos)
  | succ k ih =>
    cases cs with
    | nil => cases hk
    | cons c cs =>
      rw [byteOffset, charsWithin, if_pos (Nat.le_add_right ..), Nat.add_sub_cancel_left,
        ih (Nat.le_of_succ_le_succ hk)]

end Text

end Spreadsheet
