import Spreadsheet.Proofs.Known

/-!
# The result for a sheet

A result is made when all formulas of a sheet are done. From then on none of what it is made of changes, so it
is the result for the sheet at all later times (`resultOf_congr`), and its cells are what is known of them
(`known?_of_resultOf`).
-/

namespace Spreadsheet

open Calculation (calculatedCell entriesOf finish resultOf valueOf)
open Progress (known?)

/-- A cell is listed with the error of a cycle. -/
def CalculatedSheet.ReportsCircular (r : CalculatedSheet) (row column : Nat) : Prop :=
  ∃ e ∈ r.errors, e.row = row ∧ e.column = column ∧ e.kind = .circular

variable {w : Setting} {s s' : Progress} {i n : Nat}

/-! ## Entries -/

theorem mem_entriesOf {α : Type} {i : Nat} {log : List (Nat × α)} {a : α} :
    a ∈ entriesOf i log ↔ (i, a) ∈ log := by
  simp only [entriesOf, List.mem_reverse, List.mem_map, List.mem_filter, beq_iff_eq, Prod.exists]
  exact ⟨fun ⟨j, b, ⟨h, hj⟩, hb⟩ => hj ▸ hb ▸ h, fun h => ⟨i, a, ⟨h, rfl⟩, rfl⟩⟩

/-- Entries for other sheets do not matter. -/
theorem entriesOf_cons_of_ne {α : Type} {i j : Nat} {a : α} {log : List (Nat × α)} (h : j ≠ i) :
    entriesOf i ((j, a) :: log) = entriesOf i log := by
  simp [entriesOf, h]

/-- An entry for the sheet itself is the last one. -/
theorem entriesOf_cons_self {α : Type} {i : Nat} {a : α} {log : List (Nat × α)} :
    entriesOf i ((i, a) :: log) = entriesOf i log ++ [a] := by
  simp [entriesOf]

namespace Progress

variable {p : Position} {formula : String}

theorem entriesOf_errors_closeCycle {fault : FormulaError} (h : p.sheet ≠ i) :
    entriesOf i (s.closeCycle p formula fault).errors = entriesOf i s.errors := by
  unfold closeCycle
  split
  · rfl
  · exact entriesOf_cons_of_ne h

theorem entriesOf_errors_finish {outcome : Except FormulaError Value} {reads : List CellRead}
    (h : p.sheet ≠ i) : entriesOf i (finish w p formula outcome reads s).errors = entriesOf i s.errors := by
  rw [finish_eq]
  cases outcome with
  | ok _ => rfl
  | error _ => exact entriesOf_cons_of_ne h

end Progress

/-! ## Cells -/

/-- The formulas of a sheet all have their values. -/
def Progress.Complete (w : Setting) (s : Progress) (i : Nat) : Prop :=
  ∀ p : Position, p.sheet = i → (w.formula? p).isSome → p ∈ s.values

theorem Setting.formula?_of_cell? {p : Position} {c : Cell} (hc : w.cell? p = some c) :
    w.formula? p = c.formula? := by
  rw [Setting.formula?, hc]
  rfl

theorem Setting.literal_of_cell? {p : Position} {c : Cell} (hc : w.cell? p = some c) :
    w.literal p = c.content.value := by
  rw [Setting.literal, hc]
  rfl

/-- A result is made of the values on its sheet, the entries for it and the count of its formulas. -/
theorem resultOf_congr (hv : ∀ p : Position, p.sheet = i → (w.formula? p).isSome → s'.values[p]? = s.values[p]?)
    (hr : entriesOf i s'.records = entriesOf i s.records) (he : entriesOf i s'.errors = entriesOf i s.errors)
    (hn : s'.evaluatedOn i = s.evaluatedOn i) : resultOf w i n s' = resultOf w i n s := by
  simp only [resultOf, hr, he, hn, CalculatedSheet.mk.injEq, true_and, and_true]
  rw [Array.mapIdx_eq_mapIdx_iff]
  intro row hrow
  rw [Array.mapIdx_eq_mapIdx_iff]
  intro column hcolumn
  congr 1
  rw [valueOf, valueOf]
  split
  · rename_i hc
    rw [hv ⟨i, row, column⟩ rfl]
    rw [Setting.formula?_of_cell? (c := (w.sheet i).rows[row][column])]
    · exact hc
    · simp [Setting.cell?, Sheet.cell?, hrow, hcolumn]
  · rfl

/-- The cells of a result are those of the sheet with their values. -/
theorem cell?_resultOf (w : Setting) (i n : Nat) (s : Progress) (row column : Nat) :
    (resultOf w i n s).cell? row column
      = (w.cell? ⟨i, row, column⟩).map fun c => calculatedCell c (valueOf s ⟨i, row, column⟩ c) := by
  simp only [resultOf, CalculatedSheet.cell?, Setting.cell?, Sheet.cell?, Array.getElem?_mapIdx]
  cases (w.sheet i).rows[row]? with
  | none => rfl
  | some cells => simp

/-- Once its formulas are done, the result for a sheet tells what its cells are known to hold. -/
theorem known?_of_resultOf {p : Position} (hd : s.Complete w p.sheet) :
    known? w s p = some ((((resultOf w p.sheet n s).cell? p.row p.column).map (·.value)).getD .empty) := by
  rw [cell?_resultOf]
  cases hc : w.cell? p with
  | none =>
    have hf : w.formula? p = none := by rw [Setting.formula?, hc]; rfl
    rw [Progress.known?_literal hf, Setting.literal, hc]
    rfl
  | some c =>
    have hf := Setting.formula?_of_cell? hc
    cases hcf : c.formula? with
    | none =>
      rw [Progress.known?_literal (hf.trans hcf), Setting.literal_of_cell? hc]
      simp [calculatedCell, valueOf, Cell.isFormula, Content.isFormula, show c.content.formula? = none from hcf]
    | some formula =>
      have hp : p ∈ s.values := hd p rfl (by rw [hf, hcf]; rfl)
      obtain ⟨v, hv⟩ := exists_getElem?_of_mem hp
      rw [Progress.known?_done (hf.trans hcf) hv]
      simp [calculatedCell, valueOf, Cell.isFormula, Content.isFormula, hv,
        show c.content.formula? = some formula from hcf]

end Spreadsheet
