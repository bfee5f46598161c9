import Spreadsheet.Proofs.Settle

/-!
# Sheets as moves

To resolve a cell, to calculate a sheet and to read from another sheet are runs of the machine that leave the
frames as they were.

* `resolved`, `resolvedAll` : afterwards the value of the cell is known;
* `calculated` : the result for a sheet that was not done;
* `sound_foreignValue` : the reader of every level answers as is known afterwards, by induction on the levels.
-/

namespace Spreadsheet

open Calculation
open Progress (Bound answer? known?)

variable {w : Setting} {foreign : ForeignReader} {s : Progress} {frames : List Frame} {levels : Nat}
  {p : Position} {formula : String}

/-! ## Cells -/

theorem resolve_literal (hf : w.formula? p = none) (s : Progress) :
    (resolve w foreign p).run s = (w.literal p, s) := by
  unfold resolve Setting.literal
  unfold Setting.formula? at hf
  cases hc : w.cell? p with
  | none => rfl
  | some c =>
    rw [hc, Option.bind_some] at hf
    simp only [hf]
    rfl

theorem resolve_formula (hf : w.formula? p = some formula) (s : Progress) :
    (resolve w foreign p).run s
      = if p ∉ s.values ∧ p ∈ s.started then (w.cycleValue, s.closeCycle p formula (cycleFault w p))
        else (((settle w foreign w.attemptLimit [p]).run s).2.values[p]?.getD .empty,
          ((settle w foreign w.attemptLimit [p]).run s).2) := by
  obtain ⟨c, hc, hcf⟩ := Option.bind_eq_some_iff.1 hf
  have hrun : (resolve w foreign p).run s
      = (if !s.values.contains p && s.started.contains p then readStarted w p formula
          else do
            settle w foreign w.attemptLimit [p]
            return (← get).values[p]?.getD .empty : Step Value).run s := by
    simp only [resolve, hc, hcf]
    rfl
  rw [hrun]
  have hc : (!s.values.contains p && s.started.contains p) = true ↔ p ∉ s.values ∧ p ∈ s.started := by
    simp [← Std.TreeMap.contains_iff_mem]
  by_cases h : p ∉ s.values ∧ p ∈ s.started
  · rw [if_pos h, if_pos (hc.2 h)]
    rfl
  · rw [if_neg h, if_neg (fun h' => h (hc.1 h'))]
    rfl

/-- No formula is started on the innermost sheet itself. -/
theorem Machine.Valid.unstarted {i : Nat} (hv : Machine.Valid w ⟨s, .sheet i :: frames⟩) (hp : p.sheet = i) :
    p ∉ s.started := by
  intro hs
  obtain ⟨f, hf, hfp⟩ := List.mem_filterMap.1 ((hv.started p).1 hs)
  have honce := hv.activeOnce
  rw [hv.active] at honce
  refine (List.nodup_cons.1 honce).1 ?_
  cases f with
  | formula q l =>
    cases hfp
    rw [← hp]
    have hnested : Nested frames := hv.nested
    exact hnested.sheet_mem ((List.mem_cons.1 hf).resolve_left nofun)
  | sheet j => cases hfp

/-- A started formula that the innermost frame leads to is going to be read by a formula. -/
theorem Leads.bound (hl : Leads w s frames p) (hv : Machine.Valid w ⟨s, frames⟩) (hs : p ∈ s.started) :
    ∃ k l rest, frames = .formula k l :: rest ∧ Bound w l s k p := by
  cases frames with
  | nil => exact hl.elim
  | cons f frames =>
    cases f with
    | formula k l => exact ⟨k, l, frames, rfl, hl⟩
    | sheet i => exact absurd hs (hv.unstarted hl)

/-- A cell that the innermost frame leads to is known afterwards. -/
theorem resolved (hample : w.Ample) (hforeign : Sound w levels foreign) (hv : Machine.Valid w ⟨s, frames⟩)
    (ha : p.sheet ∈ s.active) (hl : Leads w s frames p) :
    Runs w ⟨s, frames⟩ ⟨((resolve w foreign p).run s).2, frames⟩ ∧
      known? w ((resolve w foreign p).run s).2 p = some ((resolve w foreign p).run s).1 := by
  cases hf : w.formula? p with
  | none =>
    rw [resolve_literal hf]
    exact ⟨.refl, Progress.known?_literal hf⟩
  | some formula =>
    rw [resolve_formula hf]
    split
    · rename_i h
      obtain ⟨hval, hs⟩ := h
      obtain ⟨k, l, rest, rfl, hb⟩ := hl.bound hv hs
      refine ⟨.single (.close hf hs hb), Progress.known?_circular hf ?_ ?_⟩
      · rw [Progress.values_closeCycle]
        exact Std.TreeMap.getElem?_eq_none hval
      · exact Progress.mem_circular_closeCycle.2 (Or.inl rfl)
    · rename_i h
      obtain ⟨hrun, hval⟩ := settled hample hforeign hv
        ⟨by rw [hf]; rfl, fun hs => h ⟨hv.undone p hs, hs⟩, ha, hl⟩
      obtain ⟨v, hv'⟩ := exists_getElem?_of_mem hval
      refine ⟨hrun, ?_⟩
      rw [hv']
      exact Progress.known?_done hf hv'

/-! ## Sheets -/

/-- Formulas of the innermost sheet that are resolved are done. -/
theorem resolved_on_sheet {i : Nat} (hample : w.Ample) (hforeign : Sound w levels foreign)
    (hv : Machine.Valid w ⟨s, .sheet i :: frames⟩) (hp : p.sheet = i) :
    Runs w ⟨s, .sheet i :: frames⟩ ⟨((resolve w foreign p).run s).2, .sheet i :: frames⟩ ∧
      ((w.formula? p).isSome → p ∈ ((resolve w foreign p).run s).2.values) := by
  have ha : p.sheet ∈ s.active := by
    rw [hv.active, hp]
    exact List.mem_cons_self ..
  obtain ⟨hrun, hknown⟩ := resolved hample hforeign hv ha hp
  refine ⟨hrun, fun hf => ?_⟩
  have hv' := hv.run hrun
  generalize (resolve w foreign p).run s = outcome at hknown hv' ⊢
  obtain ⟨formula, hf⟩ := Option.isSome_iff_exists.1 hf
  unfold known? at hknown
  simp only [hf] at hknown
  split at hknown
  · rename_i v hval
    exact mem_of_getElem?_some hval
  · split at hknown
    · rename_i hc
      exact (hv'.circular p hc).resolve_left (hv'.unstarted hp)
    · cases hknown

theorem resolvedAll {i : Nat} (hample : w.Ample) (hforeign : Sound w levels foreign)
    (places : List (Nat × Nat)) : ∀ {s : Progress}, Machine.Valid w ⟨s, .sheet i :: frames⟩ →
      Runs w ⟨s, .sheet i :: frames⟩ ⟨((resolveAll w foreign i places).run s).2, .sheet i :: frames⟩ ∧
      ∀ place ∈ places, (w.formula? ⟨i, place.1, place.2⟩).isSome →
        ⟨i, place.1, place.2⟩ ∈ ((resolveAll w foreign i places).run s).2.values := by
  induction places with
  | nil => exact fun _ => ⟨.refl, by simp⟩
  | cons place places ih =>
    intro s hv
    obtain ⟨row, column⟩ := place
    have hstep : (resolveAll w foreign i ((row, column) :: places)).run s
        = (resolveAll w foreign i places).run ((resolve w foreign ⟨i, row, column⟩).run s).2 := rfl
    obtain ⟨hrun, hdone⟩ := resolved_on_sheet (p := ⟨i, row, column⟩) hample hforeign hv rfl
    obtain ⟨hrun', hdone'⟩ := ih (hv.run hrun)
    rw [hstep]
    refine ⟨hrun.trans hrun', fun q hq hf => ?_⟩
    rcases List.mem_cons.1 hq with rfl | hq
    · exact (hrun'.grows (hv.run hrun)).mem_values (hdone hf)
    · exact hdone' q hq hf

theorem sheetResult_done {i : Nat} {r : CalculatedSheet} (hr : s.finished[i]? = some r) :
    (sheetResult w foreign i).run s = (r, s) := by
  simp only [sheetResult, StateT.run_bind, StateT.run_get, pure_bind, hr]
  rfl

/-- A sheet that is not done has all its formulas resolved. -/
theorem sheetResult_new {i : Nat} (hi : i ∉ s.finished) {s' : Progress}
    (hs' : ((resolveAll w foreign i (w.sheet i).formulaPlaces).run { s with active := i :: s.active }).2 = s') :
    (sheetResult w foreign i).run s
      = (resultOf w i (s'.otherSheets - s.otherSheets) s',
        { s' with
          active := s'.active.erase i
          finished := s'.finished.insert i (resultOf w i (s'.otherSheets - s.otherSheets) s') }) := by
  have hnone : s.finished[i]? = none := Std.TreeMap.getElem?_eq_none hi
  rw [← hs']
  simp only [sheetResult, StateT.run_bind, StateT.run_get, pure_bind, hnone]
  rfl

/-- Then its result is known. -/
theorem calculated {i : Nat} (hample : w.Ample) (hforeign : Sound w levels foreign) (hi : i ∉ s.finished)
    (hv : Machine.Valid w ⟨{ s with active := i :: s.active }, .sheet i :: frames⟩) :
    Runs w ⟨{ s with active := i :: s.active }, .sheet i :: frames⟩
        ⟨((sheetResult w foreign i).run s).2, frames⟩ ∧
      ((sheetResult w foreign i).run s).2.finished[i]? = some ((sheetResult w foreign i).run s).1 := by
  obtain ⟨hrun, hdone⟩ := resolvedAll hample hforeign (w.sheet i).formulaPlaces hv
  generalize hs' : ((resolveAll w foreign i (w.sheet i).formulaPlaces).run
    { s with active := i :: s.active }).2 = s' at hrun hdone
  rw [sheetResult_new hi hs']
  have hcomplete : s'.Complete w i := by
    rintro p rfl hf
    obtain ⟨c, hc, hcf⟩ := Setting.isSome_formula?.1 hf
    exact hdone (p.row, p.column) (Sheet.mem_formulaPlaces.2 ⟨c, hc, hcf⟩) hf
  refine ⟨hrun.tail (.leave _ hcomplete), ?_⟩
  simp

/-! ## Reads of other sheets -/

section Reads

variable {reader : Position} {i row column : Nat}

/-- The value that a result has at a place. -/
def valueIn (r : CalculatedSheet) (row column : Nat) : Value := ((r.cell? row column).map (·.value)).getD .empty

theorem sheetValue_active (h : i ∈ s.active) :
    (sheetValue w foreign reader i row column).run s = (resolve w foreign ⟨i, row, column⟩).run s := by
  simp only [sheetValue, StateT.run_bind, StateT.run_get, pure_bind, List.contains_iff_mem, if_pos h]

theorem sheetValue_finished {r : CalculatedSheet} (h : i ∉ s.active) (hr : s.finished[i]? = some r) :
    (sheetValue w foreign reader i row column).run s = (valueIn r row column, s) := by
  have hc : s.finished.contains i = true := by
    rw [Std.TreeMap.contains_eq_isSome_getElem?, hr]
    rfl
  simp only [sheetValue, StateT.run_bind, StateT.run_get, pure_bind, List.contains_iff_mem, if_neg h, hc,
    Bool.not_true, Bool.false_eq_true, if_false]
  rw [sheetResult_done hr]
  rfl

theorem sheetValue_new (h : i ∉ s.active) (hi : i ∉ s.finished) :
    (sheetValue w foreign reader i row column).run s
      = (valueIn ((sheetResult w foreign i).run { s with opened := (reader, i) :: s.opened }).1 row column,
        ((sheetResult w foreign i).run { s with opened := (reader, i) :: s.opened }).2) := by
  have hc : s.finished.contains i = false := by
    rw [← Bool.not_eq_true, Std.TreeMap.contains_iff_mem]
    exact hi
  simp only [sheetValue, StateT.run_bind, StateT.run_get, pure_bind, List.contains_iff_mem, if_neg h, hc]
  rfl

/-- A cell of another sheet that the innermost formula is going to read is known afterwards. -/
theorem read_sheet {k : Nat} (hample : w.Ample) (hforeign : Sound w levels foreign)
    (hv : Machine.Valid w ⟨s, .formula reader k :: frames⟩) (hb : Bound w k s reader ⟨i, row, column⟩) :
    Runs w ⟨s, .formula reader k :: frames⟩
        ⟨((sheetValue w foreign reader i row column).run s).2, .formula reader k :: frames⟩ ∧
      ((sheetValue w foreign reader i row column).run s).2.Visited i ∧
      known? w ((sheetValue w foreign reader i row column).run s).2 ⟨i, row, column⟩
        = some ((sheetValue w foreign reader i row column).run s).1 := by
  -- once the sheet is done, its result holds what is known
  have hresult : ∀ {s' : Progress} {r : CalculatedSheet},
      Machine.Valid w ⟨s', .formula reader k :: frames⟩ → s'.finished[i]? = some r →
      s'.Visited i ∧ known? w s' ⟨i, row, column⟩ = some (valueIn r row column) := by
    intro s' r hv' hr
    have hmem : i ∈ s'.finished := mem_of_getElem?_some hr
    obtain ⟨n, rfl⟩ := hv'.results i r hr
    exact ⟨Or.inr hmem, known?_of_resultOf (p := ⟨i, row, column⟩) (hv'.complete i hmem)⟩
  by_cases ha : i ∈ s.active
  · rw [sheetValue_active ha]
    obtain ⟨hrun, hknown⟩ := resolved hample hforeign hv ha hb
    exact ⟨hrun, (hrun.grows hv).visited i (Or.inl ha), hknown⟩
  · cases hr : s.finished[i]? with
    | some r =>
      rw [sheetValue_finished ha hr]
      exact ⟨.refl, hresult hv hr⟩
    | none =>
      have hi : i ∉ s.finished := notMem_of_getElem?_none hr
      rw [sheetValue_new ha hi]
      have hvisit : Move w ⟨s, .formula reader k :: frames⟩
          ⟨{ s with opened := (reader, i) :: s.opened, active := i :: s.active },
            .sheet i :: .formula reader k :: frames⟩ := .visit (q := ⟨i, row, column⟩) ha hi hb
      obtain ⟨hrun, hr'⟩ := calculated (s := { s with opened := (reader, i) :: s.opened }) hample hforeign hi
        (hv.move hvisit)
      have hrun' := hrun.head hvisit
      exact ⟨hrun', hresult (hv.run hrun') hr'⟩

end Reads

theorem foreignValue_refused {name : String} {row column : Nat} {fault : FormulaError}
    (h : foreignSheet w name = .error fault) :
    (foreignValue w levels p name row column).run s = (.error fault, s) := by
  cases levels <;> simp only [foreignValue, h] <;> rfl

theorem foreignValue_zero {name : String} {row column i : Nat} (h : foreignSheet w name = .ok i) :
    (foreignValue w 0 p name row column).run s = (.error (.sheetsNestTooDeep maxSheetNesting), s) := by
  simp only [foreignValue, h]
  rfl

theorem foreignValue_succ {name : String} {row column i : Nat} (h : foreignSheet w name = .ok i) :
    (foreignValue w (levels + 1) p name row column).run s
      = (.ok ((sheetValue w (foreignValue w levels) p i row column).run s).1,
        ((sheetValue w (foreignValue w levels) p i row column).run s).2) := by
  simp only [foreignValue, h]
  rfl

/-- With any number of levels left, a read from another sheet is answered as is known afterwards. -/
theorem sound_foreignValue (hample : w.Ample) (levels : Nat) : Sound w levels (foreignValue w levels) := by
  induction levels with
  | zero =>
    intro s frames p name a _ hn hs _
    have haccess := hn ▸ @Setting.access_foreign w 0 _ _ hs
    cases hi : foreignSheet w name with
    | error fault =>
      rw [hi] at haccess
      rw [foreignValue_refused hi]
      exact ⟨.refl, Progress.answer?_eq_some.2 (Or.inl ⟨fault, haccess, rfl⟩)⟩
    | ok i =>
      rw [hi] at haccess
      rw [foreignValue_zero hi]
      exact ⟨.refl, Progress.answer?_eq_some.2 (Or.inl ⟨_, haccess, rfl⟩)⟩
  | succ levels ih =>
    intro s frames p name a hv hn hs hb
    have haccess := hn ▸ @Setting.access_foreign w (levels + 1) _ _ hs
    cases hi : foreignSheet w name with
    | error fault =>
      rw [hi] at haccess
      rw [foreignValue_refused hi]
      exact ⟨.refl, Progress.answer?_eq_some.2 (Or.inl ⟨fault, haccess, rfl⟩)⟩
    | ok i =>
      rw [hi] at haccess
      rw [foreignValue_succ hi]
      obtain ⟨hruns, hvisited, hknown⟩ := read_sheet hample ih hv (hb i haccess)
      exact ⟨hruns, Progress.answer?_eq_some.2 (Or.inr ⟨i, _, haccess, hvisited, hknown, rfl⟩)⟩

end Spreadsheet
