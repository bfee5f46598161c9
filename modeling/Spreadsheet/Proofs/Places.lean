import Mathlib.Data.List.Nodup
import Spreadsheet.Calculation.Progress

/-!
# Where the formulas are

* `mem_formulaPlaces`, `mem_formulas` : the places that are listed for a sheet, and for all sheets, are those
  of the formulas;
* `length_formulas` : their number, which the limit of attempts is made from;
* `holds_extent` : cells lie within the extent of their sheet;
* `mem_unstartedIn` : what is waited for when a range is read.
-/

namespace Spreadsheet

namespace Sheet

variable {s : Sheet} {row column : Nat} {c : Cell}

theorem cell?_eq_some :
    s.cell? row column = some c ↔ ∃ cells, s.rows[row]? = some cells ∧ cells[column]? = some c := by
  simp [cell?, Option.bind_eq_some_iff]

theorem mem_formulaPlaces :
    (row, column) ∈ s.formulaPlaces ↔ ∃ c, s.cell? row column = some c ∧ c.isFormula := by
  simp only [formulaPlaces, List.mem_flatMap, List.mem_range, List.mem_filterMap, cell?_eq_some]
  constructor
  · rintro ⟨r, hr, k, hk, h⟩
    split at h
    · rename_i hf
      cases h
      rw [rowCount] at hr
      rw [Array.getElem?_eq_getElem hr, Option.getD_some] at hk hf
      rw [Array.getElem?_eq_getElem hk, Option.getD_some] at hf
      exact ⟨_, ⟨_, Array.getElem?_eq_getElem hr, Array.getElem?_eq_getElem hk⟩, hf⟩
    · cases h
  · rintro ⟨c, ⟨cells, hrow, hc⟩, hf⟩
    refine ⟨row, (Array.getElem?_eq_some_iff.1 hrow).1, column, ?_, ?_⟩
    · rw [hrow]
      exact (Array.getElem?_eq_some_iff.1 hc).1
    · simp [hrow, hc, hf]

/-- No place is listed twice. -/
theorem nodup_formulaPlaces (s : Sheet) : s.formulaPlaces.Nodup := by
  have hplace : ∀ {row : Nat} {cells : Array Cell} {column : Nat} {place : Nat × Nat},
      (if (cells[column]?.getD {}).isFormula then some (row, column) else none) = some place →
      place = (row, column) := by
    intro row cells column place h
    split at h <;> cases h
    rfl
  refine List.nodup_flatMap.2 ⟨fun row _ => ?_, ?_⟩
  · refine List.nodup_range.filterMap fun column column' place h h' => ?_
    have hc := hplace h
    have hc' := hplace h'
    rw [hc] at hc'
    exact (Prod.mk.inj hc').2
  · refine List.nodup_range.imp fun hne place h h' => hne ?_
    obtain ⟨_, -, h⟩ := List.mem_filterMap.1 h
    obtain ⟨_, -, h'⟩ := List.mem_filterMap.1 h'
    have hc := hplace h
    have hc' := hplace h'
    rw [hc] at hc'
    exact (Prod.mk.inj hc').1

theorem le_columnCount {cells : Array Cell} (h : cells ∈ s.rows) : cells.size ≤ s.columnCount := by
  rw [columnCount, ← Array.foldl_toList]
  have hmem : cells ∈ s.rows.toList := Array.mem_def.1 h
  suffices hs : ∀ (rows : List (Array Cell)) (n : Nat), (n ≤ rows.foldl (fun n row => max n row.size) n) ∧
      (cells ∈ rows → cells.size ≤ rows.foldl (fun n row => max n row.size) n) from
    (hs _ 0).2 hmem
  intro rows
  induction rows with
  | nil => intro n; simp
  | cons row rows ih =>
    intro n
    obtain ⟨hle, hin⟩ := ih (max n row.size)
    rw [List.foldl_cons]
    refine ⟨by omega, fun h => ?_⟩
    rcases List.mem_cons.1 h with rfl | h
    · omega
    · exact hin h

theorem holds_extent (h : s.cell? row column = some c) : s.extent.holds row column := by
  obtain ⟨cells, hrow, hc⟩ := cell?_eq_some.1 h
  obtain ⟨hr, rfl⟩ := Array.getElem?_eq_some_iff.1 hrow
  obtain ⟨hk, -⟩ := Array.getElem?_eq_some_iff.1 hc
  have := le_columnCount (Array.getElem_mem hr)
  rw [Extent.holds, Bool.and_eq_true, decide_eq_true_iff, decide_eq_true_iff]
  exact ⟨hr, by simp only [extent]; omega⟩

end Sheet

namespace Setting

variable {w : Setting} {p : Position}

theorem isSome_formula? : (w.formula? p).isSome ↔ ∃ c, w.cell? p = some c ∧ c.isFormula := by
  rw [formula?, Option.isSome_bind, Option.any_eq_true]
  rfl

/-- Every formula of every sheet. -/
def formulas (w : Setting) : List Position :=
  (List.range w.sheets.size).flatMap fun i =>
    (w.sheet i).formulaPlaces.map fun place => ⟨i, place.1, place.2⟩

theorem mem_formulas (h : (w.formula? p).isSome) : p ∈ w.formulas := by
  obtain ⟨c, hc, hf⟩ := isSome_formula?.1 h
  have hi : p.sheet < w.sheets.size := by
    rcases Nat.lt_or_ge p.sheet w.sheets.size with hi | hi
    · exact hi
    · rw [cell?, sheet, Array.getElem?_eq_none hi] at hc
      simp [Sheet.cell?] at hc
  refine List.mem_flatMap.2 ⟨p.sheet, List.mem_range.2 hi, List.mem_map.2 ⟨(p.row, p.column), ?_, rfl⟩⟩
  exact Sheet.mem_formulaPlaces.2 ⟨c, hc, hf⟩

theorem length_formulas (environment : Environment) (sheets : List Sheet) :
    2 * (ofSheets environment sheets).formulas.length = (ofSheets environment sheets).attemptLimit := by
  have hsheet : ∀ i < sheets.length, (ofSheets environment sheets).sheet i = sheets[i]?.getD { name := "" } := by
    intro i _
    simp [sheet, ofSheets]
  have hsize : (ofSheets environment sheets).sheets.size = sheets.length := by simp [ofSheets]
  have hlimit : (ofSheets environment sheets).attemptLimit = 2 * (sheets.flatMap Sheet.formulaPlaces).length := rfl
  have hlengths : (List.range sheets.length).map (fun i => ((ofSheets environment sheets).sheet i).formulaPlaces.length)
      = sheets.map fun s => s.formulaPlaces.length := by
    refine List.ext_getElem (by simp) fun i hi _ => ?_
    simp only [List.length_map, List.length_range] at hi
    simp [hsheet i hi, hi]
  rw [hlimit, formulas, hsize, List.length_flatMap, List.length_flatMap, ← hlengths]
  simp only [List.length_map]

end Setting

namespace Progress

variable {w : Setting} {s : Progress} {own : Nat} {r : CellRange} {p : Position}

theorem mem_unstartedIn (h : p ∈ s.unstartedIn w own r) :
    p.sheet = own ∧ (w.formula? p).isSome ∧ p ∉ s.values ∧ p ∉ s.started ∧ r.contains p.row p.column := by
  simp only [unstartedIn, List.mem_flatMap, List.mem_filterMap, List.mem_range'_1] at h
  obtain ⟨row, hrow, column, hcolumn, h⟩ := h
  split at h
  · rename_i hf
    cases h
    simp only [Bool.and_eq_true, Bool.not_eq_true', ← Bool.not_eq_true, Std.TreeMap.contains_iff_mem,
      Std.TreeSet.contains_iff_mem] at hf
    obtain ⟨⟨hf, hv⟩, hs⟩ := hf
    have hr : row < (w.sheet own).rows.size := by unfold Sheet.rowCount at hrow; omega
    rw [Array.getElem?_eq_getElem hr, Option.getD_some] at hcolumn hf
    have hk : column < (w.sheet own).rows[row].size := by omega
    rw [Array.getElem?_eq_getElem hk, Option.getD_some] at hf
    refine ⟨rfl, Setting.isSome_formula?.2 ⟨_, ?_, hf⟩, hv, hs, ?_⟩
    · exact Sheet.cell?_eq_some.2 ⟨_, Array.getElem?_eq_getElem hr, Array.getElem?_eq_getElem hk⟩
    · simp only [CellRange.contains, Bool.and_eq_true, decide_eq_true_eq]
      omega
  · cases h

end Progress

end Spreadsheet
