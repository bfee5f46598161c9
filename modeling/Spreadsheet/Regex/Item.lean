import Spreadsheet.Text.Case

/-!
# Matching a row of items

The expressions that patterns become are rows of characters, gaps and ends of the text. A table tells where in a text
they begin to match: it has a row for each rest of the text, each row made from the next one, which says of each rest of
the items whether it matches at the front of that rest of the text.

* `Regex.Item` : what an expression is made of; `Regex.Begins` : what it matches;
* `Regex.begins` : for the text and each rest of it, whether the items match at its front;
* `Regex.begins_eq_true_iff` : the table decides matching.
-/

namespace Spreadsheet.Regex

open Text (foldChar)

/-- A part of an expression. -/
inductive Item where
  /-- The front of the text. -/
  | front
  /-- The end of the text. -/
  | finish
  /-- One character of any kind. -/
  | one
  /-- Any number of characters. -/
  | any
  /-- A character in any case. -/
  | char (c : Char)
deriving DecidableEq, Repr

/-- Items match what stands at the beginning of some characters. These are the whole text if they are at the front, or
else a rest of it. -/
inductive Begins : List Item → (atFront : Bool) → List Char → Prop where
  | nil {atFront : Bool} {cs : List Char} : Begins [] atFront cs
  | front {items : List Item} {cs : List Char} : Begins items true cs → Begins (.front :: items) true cs
  | finish {items : List Item} {atFront : Bool} : Begins items atFront [] → Begins (.finish :: items) atFront []
  | one {items : List Item} {atFront : Bool} {c : Char} {cs : List Char} :
    Begins items false cs → Begins (.one :: items) atFront (c :: cs)
  | anyEnd {items : List Item} {atFront : Bool} {cs : List Char} :
    Begins items atFront cs → Begins (.any :: items) atFront cs
  | anyMore {items : List Item} {atFront : Bool} {c : Char} {cs : List Char} :
    Begins (.any :: items) false cs → Begins (.any :: items) atFront (c :: cs)
  | char {items : List Item} {atFront : Bool} {c d : Char} {cs : List Char} :
    foldChar c = foldChar d → Begins items false cs → Begins (.char d :: items) atFront (c :: cs)

/-- For each rest of the items, whether it matches where a text ends. -/
def lastRow (atFront : Bool) : List Item → List Bool
  | [] => [true]
  | p :: ps =>
    let row := lastRow atFront ps
    let here := match p with
      | .front => atFront && row.headD false
      | .finish | .any => row.headD false
      | .one | .char _ => false
    here :: row

/-- For each rest of the items, whether it matches at `c` and then a text; `later` is the row of that text. -/
def rowBefore (atFront : Bool) (c : Char) : List Item → List Bool → List Bool
  | p :: ps, b :: later =>
    let row := rowBefore atFront c ps later
    let here := match p with
      | .front => atFront && row.headD false
      | .finish => false
      | .any => row.headD false || b
      | .one => later.headD false
      | .char d => foldChar c == foldChar d && later.headD false
    here :: row
  | _, _ => [true]

/-- Adds the row of a rest of a text, and whether the items match there, in front of what is known of its own rests. -/
def rowInFront (items : List Item) (c : Char) (known : List Bool × List Bool) : List Bool × List Bool :=
  let row := rowBefore false c items known.1
  (row, row.headD false :: known.2)

/-- For the text and each rest of it, the empty one included, whether the items match at its front. -/
def begins (items : List Item) : List Char → List Bool
  | [] => [(lastRow true items).headD false]
  | c :: cs =>
    let last := lastRow false items
    let known := cs.foldr (rowInFront items) (last, [last.headD false])
    (rowBefore true c items known.1).headD false :: known.2

/-! ## The table decides matching -/

/-- A row is right for some characters when it says of each rest of the items whether it matches there. -/
def RowFor (atFront : Bool) (cs : List Char) : List Item → List Bool → Prop
  | [], row => ∃ b, row = [b] ∧ (b = true ↔ Begins [] atFront cs)
  | p :: ps, row => ∃ b later, row = b :: later ∧ (b = true ↔ Begins (p :: ps) atFront cs) ∧ RowFor atFront cs ps later

variable {atFront : Bool} {c : Char} {cs : List Char} {items : List Item} {row : List Bool} {i : Nat}

theorem RowFor.headD (h : RowFor atFront cs items row) : row.headD false = true ↔ Begins items atFront cs := by
  cases items with
  | nil => obtain ⟨b, rfl, hb⟩ := h; simpa using hb
  | cons p ps => obtain ⟨b, later, rfl, hb, _⟩ := h; simpa using hb

theorem rowFor_lastRow (atFront : Bool) (items : List Item) : RowFor atFront [] items (lastRow atFront items) := by
  induction items with
  | nil => exact ⟨true, rfl, by simp [Begins.nil]⟩
  | cons p ps ih =>
    refine ⟨_, _, rfl, ?_, ih⟩
    cases p with
    | front =>
      rw [Bool.and_eq_true, ih.headD]
      constructor
      · rintro ⟨rfl, h⟩
        exact .front h
      · intro h
        cases h with
        | front h => exact ⟨rfl, h⟩
    | finish => exact ih.headD.trans ⟨.finish, fun h => by cases h with | finish h => exact h⟩
    | any => exact ih.headD.trans ⟨.anyEnd, fun h => by cases h with | anyEnd h => exact h⟩
    | one => exact ⟨nofun, nofun⟩
    | char d => exact ⟨nofun, nofun⟩

theorem rowFor_rowBefore (h : RowFor false cs items row) :
    RowFor atFront (c :: cs) items (rowBefore atFront c items row) := by
  induction items generalizing row with
  | nil => exact ⟨true, rfl, by simp [Begins.nil]⟩
  | cons p ps ih =>
    obtain ⟨b, later, rfl, hb, hlater⟩ := h
    have hrow := ih hlater
    refine ⟨_, _, rfl, ?_, hrow⟩
    cases p with
    | front =>
      rw [Bool.and_eq_true, hrow.headD]
      constructor
      · rintro ⟨rfl, h⟩
        exact .front h
      · intro h
        cases h with
        | front h => exact ⟨rfl, h⟩
    | finish => exact ⟨nofun, nofun⟩
    | any =>
      simp only [Bool.or_eq_true, hrow.headD, hb]
      constructor
      · rintro (h | h)
        · exact .anyEnd h
        · exact .anyMore h
      · intro h
        cases h with
        | anyEnd h => exact .inl h
        | anyMore h => exact .inr h
    | one => exact hlater.headD.trans ⟨.one, fun h => by cases h with | one h => exact h⟩
    | char d =>
      simp only [Bool.and_eq_true, beq_iff_eq, hlater.headD]
      exact ⟨fun h => .char h.1 h.2, fun h => by cases h with | char h1 h2 => exact ⟨h1, h2⟩⟩

/-- What is known of a rest of a text is its row, and of each rest of it whether the items match there. -/
theorem foldr_rowInFront (items : List Item) (cs : List Char) :
    let known := cs.foldr (rowInFront items) (lastRow false items, [(lastRow false items).headD false])
    RowFor false cs items known.1 ∧ ∀ i, known.2[i]? = some true ↔ i ≤ cs.length ∧ Begins items false (cs.drop i) := by
  induction cs with
  | nil =>
    refine ⟨rowFor_lastRow false items, fun i => ?_⟩
    cases i with
    | zero => simpa using (rowFor_lastRow false items).headD
    | succ i => simp
  | cons c cs ih =>
    obtain ⟨hrow, hknown⟩ := ih
    have hmore : RowFor false (c :: cs) items (rowBefore false c items _) := rowFor_rowBefore hrow
    refine ⟨hmore, fun i => ?_⟩
    cases i with
    | zero => simpa [rowInFront] using hmore.headD
    | succ i => simpa [rowInFront] using hknown i

/-- The table says of each rest of a text whether the items match at its front. -/
theorem begins_eq_true_iff :
    (begins items cs)[i]? = some true ↔ i ≤ cs.length ∧ Begins items (i == 0) (cs.drop i) := by
  cases cs with
  | nil =>
    cases i with
    | zero => simpa [begins] using (rowFor_lastRow true items).headD
    | succ i => simp [begins]
  | cons c cs =>
    obtain ⟨hrow, hknown⟩ := foldr_rowInFront items cs
    cases i with
    | zero =>
      have hfirst : RowFor true (c :: cs) items (rowBefore true c items _) := rowFor_rowBefore hrow
      simpa [begins] using hfirst.headD
    | succ i => simpa [begins] using hknown i

end Spreadsheet.Regex
