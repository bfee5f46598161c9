import Mathlib.Data.List.Range
import Spreadsheet.Reference.CellRange

/-!
# Walks through ranges

A cursor moves through a range row by row. Where it stands tells what is still to come, namely the rest of its row and
the rows below, and a step takes the first of these positions off.

* `block` : the positions of a rectangle, row by row; `mem_block`, `pairwise_block`, `length_block`;
* `CellCursor.ahead` : the positions still to come; `CellCursor.length_ahead` : as many as the cursor reports;
* `CellRange.Holds` : the cursors that a walk through a range comes to; `CellRange.Holds.step` : what one step does;
* `CellRange.Holds.take` : what any number of steps do;
* `CellRange.cells_exact` : a walk goes through all positions of the range, and no number in it grows too large.
-/

namespace Spreadsheet

/-! ## Rectangles -/

/-- So many positions of a row from a column on. -/
def rowPositions (row left columns : ℕ) : List (ℕ × ℕ) := (List.range' left columns).map fun column => (row, column)

/-- The positions of so many rows and columns from a corner on. -/
def block (top rows left columns : ℕ) : List (ℕ × ℕ) :=
  (List.range' top rows).flatMap fun row => rowPositions row left columns

section Block

variable {top rows left columns row column : ℕ}

theorem rowPositions_succ : rowPositions row left (columns + 1) = (row, left) :: rowPositions row (left + 1) columns :=
  rfl

theorem block_succ :
    block top (rows + 1) left columns = rowPositions top left columns ++ block (top + 1) rows left columns := by
  rw [block, List.range'_succ, List.flatMap_cons, block]

theorem length_rowPositions : (rowPositions row left columns).length = columns := by
  rw [rowPositions, List.length_map, List.length_range']

theorem length_block : (block top rows left columns).length = rows * columns := by
  induction rows generalizing top with
  | zero => exact (Nat.zero_mul _).symm
  | succ rows ih =>
    rw [block_succ, List.length_append, length_rowPositions, ih, Nat.succ_mul, Nat.add_comm]

theorem mem_block : (row, column) ∈ block top rows left columns ↔
    (top ≤ row ∧ row < top + rows) ∧ left ≤ column ∧ column < left + columns := by
  simp [block, rowPositions, List.mem_range'_1]

theorem pairwise_block : (block top rows left columns).Pairwise (Prod.Lex (· < ·) (· < ·)) := by
  rw [block, List.pairwise_flatMap]
  constructor
  · intro row _
    rw [rowPositions, List.pairwise_map]
    exact (List.pairwise_lt_range' 1).imp fun h => Prod.Lex.right _ h
  · refine (List.pairwise_lt_range' 1).imp fun h p hp q hq => ?_
    obtain ⟨column, -, rfl⟩ := List.mem_map.1 hp
    obtain ⟨column', -, rfl⟩ := List.mem_map.1 hq
    exact Prod.Lex.left _ _ h

end Block

/-! ## Positions still to come -/

namespace CellCursor

/-- The rest of the row the cursor is in, then the rows below. -/
def ahead (c : CellCursor) : List (ℕ × ℕ) :=
  if c.bottom < c.row then []
  else rowPositions c.row c.column (c.right - c.column + 1) ++
    block (c.row + 1) (c.bottom - c.row) c.left (c.right - c.left + 1)

/-- The numbers of a cursor, and those of a step, fit into words of 32 bits, its report into one of 64 bits. -/
structure Fits (c : CellCursor) : Prop where
  row : c.row < 2 ^ 32
  column : c.column + 1 < 2 ^ 32
  width : c.right - c.left + 1 < 2 ^ 32
  remaining : c.remaining < 2 ^ 64

variable {c : CellCursor}

theorem length_ahead : c.ahead.length = c.remaining := by
  unfold ahead remaining
  split_ifs
  · rfl
  · rw [List.length_append, length_rowPositions, length_block]
    exact Nat.add_comm _ _

theorem next?_eq_none_iff : c.next? = none ↔ c.ahead = [] := by
  unfold next? ahead
  split_ifs with h
  · simp
  · simp [rowPositions_succ]

end CellCursor

/-! ## Walks -/

namespace CellRange

/-- A cursor that keeps the sides of the range and stands between them, or past the last row. -/
structure Holds (r : CellRange) (c : CellCursor) : Prop where
  bottom : c.bottom = r.bottom
  left : c.left = r.left
  right : c.right = r.right
  left_le : r.left ≤ c.column
  le_right : c.column ≤ r.right
  row_le : c.row ≤ r.bottom + 1

variable {r : CellRange} {c d : CellCursor} {p : ℕ × ℕ}

theorem holds_cells (r : CellRange) : r.Holds r.cells where
  bottom := rfl
  left := rfl
  right := rfl
  left_le := le_rfl
  le_right := r.left_le_right
  row_le := r.top_le_bottom.trans (Nat.le_succ _)

theorem ahead_cells (r : CellRange) : r.cells.ahead = block r.top r.rowCount r.left r.columnCount := by
  have hstarted : ¬r.cells.bottom < r.cells.row := r.top_le_bottom.not_gt
  rw [CellCursor.ahead, if_neg hstarted, rowCount, block_succ]
  rfl

/-- A step takes off the first position still to come. -/
theorem Holds.step (h : r.Holds c) (hnext : c.next? = some (p, d)) : c.ahead = p :: d.ahead ∧ r.Holds d := by
  obtain ⟨bottom, left, right, row, column⟩ := c
  obtain ⟨rfl, rfl, rfl, hleft, hright, hrow⟩ := h
  dsimp only at hleft hright hrow
  unfold CellCursor.next? at hnext
  dsimp only at hnext
  split_ifs at hnext with hended hcolumn
  · -- within the row
    obtain ⟨rfl, rfl⟩ := Prod.mk.inj (Option.some.inj hnext)
    have hrest : r.right - column + 1 = r.right - (column + 1) + 1 + 1 := by omega
    refine ⟨?_, ⟨rfl, rfl, rfl, by dsimp only; omega, hcolumn, hrow⟩⟩
    simp only [CellCursor.ahead, if_neg hended]
    rw [hrest, rowPositions_succ, List.cons_append]
  · -- at the end of the row
    obtain ⟨rfl, rfl⟩ := Prod.mk.inj (Option.some.inj hnext)
    have hlast : column = r.right := by omega
    refine ⟨?_, ⟨rfl, rfl, rfl, Nat.le_refl _, hleft.trans hright, by dsimp only; omega⟩⟩
    simp only [CellCursor.ahead, if_neg hended]
    rw [hlast, Nat.sub_self, rowPositions_succ, List.cons_append]
    congr 1
    split_ifs with hdone
    · have hnone : r.bottom - row = 0 := by omega
      rw [hnone]
      rfl
    · have hbelow : r.bottom - row = r.bottom - (row + 1) + 1 := by omega
      rw [hbelow, block_succ]
      rfl

/-- Steps take off as many positions, or all there are. -/
theorem Holds.take (h : r.Holds c) (n : ℕ) :
    (c.take n).1 = c.ahead.take n ∧ (c.take n).2.ahead = c.ahead.drop n ∧ r.Holds (c.take n).2 := by
  induction n generalizing c with
  | zero => exact ⟨rfl, rfl, h⟩
  | succ n ih =>
    cases hnext : c.next? with
    | none =>
      have hahead := CellCursor.next?_eq_none_iff.1 hnext
      rw [CellCursor.take, hnext, hahead]
      exact ⟨List.take_nil.symm, List.drop_nil.symm, h⟩
    | some step =>
      obtain ⟨p, d⟩ := step
      obtain ⟨hahead, hd⟩ := h.step hnext
      obtain ⟨hpassed, hrest, hholds⟩ := ih hd
      rw [CellCursor.take, hnext, hahead]
      exact ⟨congrArg (p :: ·) hpassed, hrest, hholds⟩

theorem Holds.toList (h : r.Holds c) : c.toList = c.ahead := by
  rw [CellCursor.toList, (h.take _).1, ← CellCursor.length_ahead, List.take_length]

/-- Coordinates below the largest word of 32 bits. -/
def IsBelowLastWord (a : Address) : Prop := a.row < 2 ^ 32 - 1 ∧ a.column < 2 ^ 32 - 1

section Words

variable (hstart : IsBelowLastWord r.start) (hfinish : IsBelowLastWord r.finish)
include hstart hfinish

theorem sides_lt : r.bottom < 2 ^ 32 - 1 ∧ r.right < 2 ^ 32 - 1 :=
  ⟨max_lt hstart.1 hfinish.1, max_lt hstart.2 hfinish.2⟩

theorem cellCount_lt : r.cellCount < 2 ^ 64 := by
  obtain ⟨hbottom, hright⟩ := sides_lt hstart hfinish
  have hrows : r.rowCount ≤ 2 ^ 32 - 1 := by unfold rowCount; omega
  have hcolumns : r.columnCount ≤ 2 ^ 32 - 1 := by unfold columnCount; omega
  exact (Nat.mul_le_mul hrows hcolumns).trans_lt (by decide)

theorem Holds.fits (h : r.Holds c) (hremaining : c.remaining ≤ r.cellCount) : c.Fits := by
  obtain ⟨hbottom, hright⟩ := sides_lt hstart hfinish
  refine ⟨?_, ?_, ?_, hremaining.trans_lt (cellCount_lt hstart hfinish)⟩
  · exact h.row_le.trans_lt (by omega)
  · have hcolumn := h.le_right
    omega
  · rw [h.left, h.right]
    omega

end Words

/-- What a cursor gives step by step, and what it reports on the way. -/
structure IsWalk (c : CellCursor) (positions : List (ℕ × ℕ)) : Prop where
  passed : ∀ n, (c.take n).1 = positions.take n
  rest : ∀ n, (c.take n).2.toList = positions.drop n
  remaining : ∀ n, (c.take n).2.remaining = (positions.drop n).length
  ended_iff : ∀ n, (c.take n).2.next? = none ↔ positions.length ≤ n
  fits : ∀ n, (c.take n).2.Fits

/-- A walk through a range comes to the positions that the range contains, each once and row by row, and after any
number of steps the cursor reports how many are still to come. -/
theorem cells_exact (hstart : IsBelowLastWord r.start) (hfinish : IsBelowLastWord r.finish) :
    ∃ positions : List (ℕ × ℕ), positions.Pairwise (Prod.Lex (· < ·) (· < ·)) ∧
      (∀ row column, (row, column) ∈ positions ↔ r.contains row column) ∧
      positions.length = r.cellCount ∧ r.cellCount < 2 ^ 64 ∧ IsWalk r.cells positions := by
  have htake := (holds_cells r).take
  rw [ahead_cells r] at htake
  have hlength : (block r.top r.rowCount r.left r.columnCount).length = r.cellCount := length_block
  refine ⟨_, pairwise_block, ?_, hlength, cellCount_lt hstart hfinish, ?_⟩
  · intro row column
    rw [mem_block, contains, rowCount, columnCount]
    simp only [Bool.and_eq_true, decide_eq_true_eq]
    unfold top bottom left right
    omega
  · constructor
    case passed => exact fun n => (htake n).1
    case rest => exact fun n => (htake n).2.2.toList.trans (htake n).2.1
    case remaining =>
      intro n
      rw [← CellCursor.length_ahead, (htake n).2.1]
    case ended_iff =>
      intro n
      rw [CellCursor.next?_eq_none_iff, (htake n).2.1, List.drop_eq_nil_iff]
    case fits =>
      intro n
      refine (htake n).2.2.fits hstart hfinish ?_
      rw [← CellCursor.length_ahead, (htake n).2.1, List.length_drop, hlength]
      exact Nat.sub_le _ _

/-- From the lower right corner to the upper left one: in the middle of the second row half of the positions are
passed. -/
theorem cells_exact_backwards :
    IsBelowLastWord (ofIndices 3 2 2 0).start ∧ IsBelowLastWord (ofIndices 3 2 2 0).finish ∧
    ((ofIndices 3 2 2 0).cells.take 4).1 = [(2, 0), (2, 1), (2, 2), (3, 0)] ∧
    ((ofIndices 3 2 2 0).cells.take 4).2.remaining = 2 ∧ ((ofIndices 3 2 2 0).cells.take 9).2.next? = none := by
  have hstart : IsBelowLastWord (ofIndices 3 2 2 0).start := by unfold IsBelowLastWord; decide
  have hfinish : IsBelowLastWord (ofIndices 3 2 2 0).finish := by unfold IsBelowLastWord; decide
  obtain ⟨positions, -, -, hlength, -, hwalk⟩ := cells_exact hstart hfinish
  obtain rfl : [(2, 0), (2, 1), (2, 2), (3, 0), (3, 1), (3, 2)] = positions := hwalk.rest 0
  exact ⟨hstart, hfinish, hwalk.passed 4, hwalk.remaining 4, (hwalk.ended_iff 9).2 (by decide)⟩

end CellRange

end Spreadsheet
