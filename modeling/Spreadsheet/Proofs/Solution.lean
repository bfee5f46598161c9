import Spreadsheet.Proofs.Call

/-!
# Calculated sheets solve their formulas

Evaluated once more over the calculated sheets, every formula comes to the value that it has there, unless it is
reported to be on a cycle and has the fallback of one. The values were found with evaluations that were given up
and begun again, in the middle of other evaluations, and none of this shows.

* `calculatedCells` : the calculated sheets as formulas read them;
* `Solves` : a result is right for its sheet;
* `Call.solves` : all results of a call are, if no read was refused because too many were nested.
-/

namespace Spreadsheet

open Calculation (foreignSheet resultOf valueOf)
open Progress (answer? known?)

/-! ## Dates -/

namespace Cell

theorem formula?_withDate (order : Calendar.DateOrder) (c : Cell) : (c.withDate order).formula? = c.formula? := by
  obtain ⟨content, format⟩ := c
  cases content with
  | text s =>
    simp only [withDate]
    split
    · rename_i h
      cases Calendar.parseDate? s order with
      | none => rfl
      | some d =>
        simp only [Bool.and_eq_true, Bool.not_eq_true'] at h
        simp [formula?, Content.formula?, h.1]
    · rfl
  | _ => rfl

end Cell

theorem Sheet.cell?_withDates (order : Calendar.DateOrder) (s : Sheet) (row column : Nat) :
    (s.withDates order).cell? row column = (s.cell? row column).map (Cell.withDate order) := by
  simp only [cell?, withDates, Array.getElem?_map]
  cases s.rows[row]? <;> simp

/-! ## Calculated sheets as a source -/

/-- The sheet that a reference on sheet `own` is about, or why there is none. -/
def Setting.lookup (w : Setting) (own : Nat) : Option String → Except FormulaError Nat
  | none => .ok own
  | some name => if sameSheet name (w.sheet own).name then .ok own else foreignSheet w name

/-- The calculated sheets as formulas on sheet `own` read them. Sheets without a result have no cells. -/
def calculatedCells (w : Setting) (results : Nat → Option CalculatedSheet) (own : Nat) : CellSource Option :=
  .plain (fun a => match w.lookup own a.sheet with
    | .error fault => some (.error fault)
    | .ok i => (results i).map fun r => .ok (valueIn r a.row a.column)) (w.extent? own)

/-- The result for a sheet as it is given is right, in view of the results for all sheets. -/
structure Solves (w : Setting) (results : Nat → Option CalculatedSheet) (i : Nat) (sheet : Sheet)
    (r : CalculatedSheet) : Prop where
  shape : r.rows.map Array.size = sheet.rows.map Array.size
  literal : ∀ row column c, sheet.cell? row column = some c → c.formula? = none →
    valueIn r row column = (c.withDate w.options.dateOrder).content.value
  formula : ∀ row column c formula, sheet.cell? row column = some c → c.formula? = some formula →
    (r.ReportsCircular row column ∧ valueIn r row column = w.fallback (.circular (cellLabel row column))) ∨
    ∃ outcome, (evaluateFormula w.environment formula).run.run (calculatedCells w results i) = some outcome ∧
      valueIn r row column = w.outcomeValue outcome

/-- No read behind a value was refused because too many reads of other sheets were nested. -/
def Progress.Unrefused (s : Progress) : Prop :=
  ∀ (p : Position) (reads : List CellRead), s.reads[p]? = some reads →
    ∀ r ∈ reads, ∀ n, r.answer ≠ .error (.sheetsNestTooDeep n)

/-- Whether an answer refuses a read because too many are nested. -/
def Answer.isRefusal : Answer → Bool
  | .error (.sheetsNestTooDeep _) => true
  | _ => false

theorem Answer.isRefusal_eq_false {answer : Answer} :
    answer.isRefusal = false ↔ ∀ n, answer ≠ .error (.sheetsNestTooDeep n) := by
  constructor
  · rintro h n rfl
    cases h
  · intro h
    unfold isRefusal
    split
    · exact absurd rfl (h _)
    · rfl

instance (s : Progress) : Decidable s.Unrefused :=
  decidable_of_iff (∀ entry ∈ s.reads.toList, ∀ r ∈ entry.2, Answer.isRefusal r.answer = false) <| by
    simp only [Prod.forall, Std.TreeMap.mem_toList_iff_getElem?_eq_some, Answer.isRefusal_eq_false]
    rfl

section Solution

variable {w : Setting} {s : Progress} {levels own i : Nat}

theorem Setting.lookup_of_access {sheet : Option String} (h : w.access levels own sheet = .ok i) :
    w.lookup own sheet = .ok i := by
  cases sheet with
  | none => exact h
  | some name =>
    rw [access] at h
    rw [lookup]
    split at h
    · rw [if_pos ‹_›, h]
    · rw [if_neg ‹_›]
      split at h
      · cases h
      · split at h
        · cases h
        · rw [‹foreignSheet w name = _›, h]

theorem Setting.lookup_of_refused {sheet : Option String} {fault : FormulaError}
    (h : w.access levels own sheet = .error fault) (hn : ∀ n, fault ≠ .sheetsNestTooDeep n) :
    w.lookup own sheet = .error fault := by
  cases sheet with
  | none => cases h
  | some name =>
    rw [access] at h
    rw [lookup]
    split at h
    · cases h
    · rw [if_neg ‹_›]
      split at h
      · rw [‹foreignSheet w name = _›, h]
      · split at h
        · cases h
          exact absurd rfl (hn _)
        · cases h

/-- What is known at the end is what the calculated sheets hold. -/
theorem answer_calculatedCells (hv : Machine.Valid w ⟨s, []⟩) {a : Address} {answer : Answer}
    (h : answer? w levels s own a = some answer) (hn : ∀ n, answer ≠ .error (.sheetsNestTooDeep n)) :
    (calculatedCells w (fun i => s.finished[i]?) own).cell a = some answer := by
  rcases Progress.answer?_eq_some.1 h with ⟨fault, hfault, rfl⟩ | ⟨i, v, hi, hvis, hv', rfl⟩
  · have hlookup := Setting.lookup_of_refused hfault fun n hfn => hn n (by rw [hfn])
    simp only [calculatedCells, CellSource.plain, hlookup]
  · have hactive : s.active = [] := hv.active
    have hi' : i ∈ s.finished := hvis.resolve_left (by simp [hactive])
    obtain ⟨r, hr⟩ := exists_getElem?_of_mem hi'
    obtain ⟨n, rfl⟩ := hv.results i r hr
    rw [known?_of_resultOf (n := n) (p := ⟨i, a.row, a.column⟩) (hv.complete i hi')] at hv'
    cases hv'
    simp only [calculatedCells, CellSource.plain, Setting.lookup_of_access hi, hr]
    rfl

/-- A value is what its formula comes to over the calculated sheets. -/
theorem Explained.evaluates {p : Position} {v : Value} {formula : String} (he : Explained w s p v)
    (hv : Machine.Valid w ⟨s, []⟩) (hu : s.Unrefused) (hf : w.formula? p = some formula)
    (hc : p ∉ s.circular) :
    ∃ outcome, (evaluateFormula w.environment formula).run.run
        (calculatedCells w (fun i => s.finished[i]?) p.sheet) = some outcome ∧ v = w.outcomeValue outcome := by
  obtain ⟨formula', levels, outcome, reads, hf', hreads, hr, rfl⟩ := he
  cases hf.symm.trans hf'
  refine ⟨outcome, ?_, if_neg hc⟩
  have hreplay := Inquiry.replay_congr hr fun r hmem => answer_calculatedCells hv
    (Inquiry.answer_of_replay hr hmem) (hu p reads hreads r hmem)
  have hrun := Inquiry.run_of_replay hreplay
  rw [Setting.inquiry] at hrun
  rw [← hrun, ← Inquiry.run_plain]
  rfl

/-- The result for a sheet at the end of a run is right for it. -/
theorem solves_of_finished (hv : Machine.Valid w ⟨s, []⟩) (hu : s.Unrefused) {sheet : Sheet} {r : CalculatedSheet}
    (he : ∀ p v, s.values[p]? = some v → Explained w s p v) (hrep : ∀ p ∈ s.circular, Reported s p)
    (hsheet : w.sheet i = sheet.withDates w.options.dateOrder) (hr : s.finished[i]? = some r) :
    Solves w (fun i => s.finished[i]?) i sheet r := by
  obtain ⟨n, rfl⟩ := hv.results i r hr
  have hcomplete := hv.complete i (mem_of_getElem?_some hr)
  have hcell : ∀ {row column c}, sheet.cell? row column = some c →
      w.cell? ⟨i, row, column⟩ = some (c.withDate w.options.dateOrder) := by
    intro row column c hc
    rw [Setting.cell?, hsheet, Sheet.cell?_withDates, hc]
    rfl
  have hknown : ∀ row column, known? w s ⟨i, row, column⟩ = some (valueIn (resultOf w i n s) row column) :=
    fun row column => known?_of_resultOf (p := ⟨i, row, column⟩) hcomplete
  refine ⟨?_, ?_, ?_⟩
  · simp only [resultOf, hsheet, Sheet.withDates]
    refine Array.ext (by simp) fun row hrow _ => ?_
    simp
  · intro row column c hc hcf
    have hf : w.formula? ⟨i, row, column⟩ = none := by
      rw [Setting.formula?_of_cell? (hcell hc), Cell.formula?_withDate, hcf]
    have h := hknown row column
    rw [Progress.known?_literal hf, Setting.literal_of_cell? (hcell hc)] at h
    exact (Option.some.inj h).symm
  · intro row column c formula hc hcf
    have hf : w.formula? ⟨i, row, column⟩ = some formula := by
      rw [Setting.formula?_of_cell? (hcell hc), Cell.formula?_withDate, hcf]
    have hval := hcomplete ⟨i, row, column⟩ rfl (by rw [hf]; rfl)
    obtain ⟨v, hval⟩ := exists_getElem?_of_mem hval
    have h := hknown row column
    rw [Progress.known?_done hf hval] at h
    rw [← Option.some.inj h]
    by_cases hc : (⟨i, row, column⟩ : Position) ∈ s.circular
    · left
      obtain ⟨e, hmem, hrow, hcolumn, hkind⟩ := hrep _ hc
      refine ⟨⟨e, mem_entriesOf.2 hmem, hrow, hcolumn, hkind⟩, ?_⟩
      obtain ⟨_, _, _, _, -, -, -, hvalue⟩ := he _ v hval
      rw [hvalue, if_pos hc, Setting.fallback_circular]
    · exact Or.inr ((he _ v hval).evaluates hv hu hf hc)

end Solution

/-- The results of a call are right for their sheets, those it was asked for among them. -/
theorem Call.solves (env : Environment) (c : Call) (h : (c.progress env).Unrefused) :
    List.Forall₂ (fun i r => (c.progress env).finished[i]? = some r) c.targets (c.answers env) ∧
    ∀ i r, (c.progress env).finished[i]? = some r → ∃ sheet, c.sheets[i]? = some sheet ∧
      Solves (c.setting env) (fun i => (c.progress env).finished[i]?) i sheet r := by
  refine ⟨c.answers_finished env, fun i r hr => ?_⟩
  have hv := Machine.Valid.initial (c.setting env)
  have hi := (c.runs env).visited_lt hv (by simp [Progress.Visited]) i
    (Or.inr (mem_of_getElem?_some hr))
  rw [c.size_sheets env] at hi
  have hsheet := List.getElem?_eq_getElem hi
  refine ⟨_, hsheet, solves_of_finished (c.valid env) h ?_ ?_ (c.sheet_setting env hsheet) hr⟩
  · exact (c.runs env).explained hv (by simp)
  · exact (c.runs env).reported hv (by simp)

/-- A sheet that reads a formula of another one. -/
def twoSheets : Call :=
  .sheet ⟨"First", #[#[{ content := .text "=Second!A1+1" }]]⟩ [⟨"Second", #[#[{ content := .text "=2" }]]⟩]

theorem solves_twoSheets :
    (twoSheets.progress .plain).Unrefused ∧
    List.Forall₂ (fun i r => (twoSheets.progress .plain).finished[i]? = some r) twoSheets.targets
      (twoSheets.answers .plain) ∧
    ∀ i r, (twoSheets.progress .plain).finished[i]? = some r → ∃ sheet, twoSheets.sheets[i]? = some sheet ∧
      Solves (twoSheets.setting .plain) (fun i => (twoSheets.progress .plain).finished[i]?) i sheet r :=
  ⟨by decide +kernel, Call.solves .plain twoSheets (by decide +kernel)⟩

end Spreadsheet
