import Spreadsheet.Proofs.Machine

/-!
# What values come from

* `Explained` : the value of a formula is what its questions come to under what is known, or the fallback of a
  cycle; `Runs.explained` says that all values are explained at all times;
* `Reported` : formulas on a cycle are listed with their error (`Runs.reported`);
* `Runs.visited_lt` : only sheets that there are get calculated.
-/

namespace Spreadsheet

open Calculation (finish)
open Progress (Bound answer?)

variable {w : Setting} {m m' : Machine} {s s' : Progress} {p : Position} {v : Value}

/-- A formula has its value from the reads that are noted for it. -/
def Explained (w : Setting) (s : Progress) (p : Position) (v : Value) : Prop :=
  ∃ formula levels outcome reads, w.formula? p = some formula ∧ s.reads[p]? = some reads ∧
    (w.inquiry p formula).replay (answer? w levels s p.sheet) [] = some (outcome, reads) ∧
    v = if p ∈ s.circular then w.cycleValue else w.outcomeValue outcome

/-- Formulas that are done are not put on a cycle any more. -/
theorem Move.circular_iff (h : Move w m m') (hv : m.Valid w) (hp : p ∈ m.progress.values) :
    p ∈ m'.progress.circular ↔ p ∈ m.progress.circular := by
  refine ⟨fun hc => ?_, (h.grows hv).circular p⟩
  rcases h.close_cases hc with hc | ⟨s, frames, k, levels, formula, rfl, -, -, hs, -⟩
  · exact hc
  · exact absurd hp (hv.undone p hs)

/-- Explanations last while more gets known. -/
theorem Explained.move (he : Explained w m.progress p v) (h : Move w m m') (hv : m.Valid w)
    (hp : p ∈ m.progress.values) : Explained w m'.progress p v := by
  obtain ⟨formula, levels, outcome, reads, hf, hreads, hr, rfl⟩ := he
  have hlearns := (h.grows hv).learns (hv.move h)
  refine ⟨formula, levels, outcome, reads, hf, (h.grows hv).reads p reads hreads,
    Inquiry.replay_mono (fun _ _ => hlearns.answer) hr, ?_⟩
  simp only [h.circular_iff hv hp]

theorem Runs.explained (hv : m.Valid w) (hr : Runs w m m')
    (h : ∀ p v, m.progress.values[p]? = some v → Explained w m.progress p v) :
    ∀ p v, m'.progress.values[p]? = some v → Explained w m'.progress p v := by
  induction hr with
  | refl => exact h
  | @tail m₁ m₂ hr hm ih =>
    intro p v hp
    have hv₁ := hv.run hr
    rcases hm.finish_cases p with ⟨hval, -⟩ | ⟨s, frames, levels, formula, outcome, reads, rfl, rfl, hf, hreplay⟩
    · rw [hval] at hp
      exact (ih p v hp).move hm hv₁ (mem_of_getElem?_some hp)
    · rw [Progress.getElem?_values_finish, if_pos rfl] at hp
      cases hp
      have hlearns := (hm.grows hv₁).learns (hv₁.move hm)
      refine ⟨formula, levels, outcome, reads, hf, ?_, Inquiry.replay_mono (fun _ _ => hlearns.answer) hreplay, ?_⟩
      · rw [Progress.getElem?_reads_finish, if_pos rfl]
      · simp only [Progress.finalValue, Progress.circular_finish]

/-! ## Reports -/

/-- A cell is listed with the error of a cycle. -/
def Reported (s : Progress) (p : Position) : Prop :=
  ∃ e, (p.sheet, e) ∈ s.errors ∧ e.row = p.row ∧ e.column = p.column ∧ e.kind = .circular

theorem Reported.grows (h : Reported s p) (hg : s.Grows s') : Reported s' p := by
  obtain ⟨e, he, hrest⟩ := h
  exact ⟨e, hg.errors _ he, hrest⟩

theorem Runs.reported (hv : m.Valid w) (hr : Runs w m m')
    (h : ∀ p ∈ m.progress.circular, Reported m.progress p) :
    ∀ p ∈ m'.progress.circular, Reported m'.progress p := by
  induction hr with
  | refl => exact h
  | @tail m₁ m₂ hr hm ih =>
    intro p hp
    have hgrows := hm.grows (hv.run hr)
    rcases hm.close_cases hp with hp | ⟨s, frames, k, levels, formula, rfl, rfl, hf, hs, hb⟩
    · exact (ih p hp).grows hgrows
    · by_cases hc : p ∈ s.circular
      · exact (ih p hc).grows hgrows
      · rw [Progress.closeCycle_of_notMem hc]
        exact ⟨_, List.mem_cons_self .., rfl, rfl, rfl⟩

/-! ## Sheets -/

/-- Formulas are done only while their sheets are calculated. -/
theorem Runs.visited_of_values (hv : m.Valid w) (hr : Runs w m m')
    (h : ∀ p ∈ m.progress.values, m.progress.Visited p.sheet) :
    ∀ p ∈ m'.progress.values, m'.progress.Visited p.sheet := by
  induction hr with
  | refl => exact h
  | tail hr hm ih =>
    intro p hp
    have hv₁ := hv.run hr
    refine (hm.grows hv₁).visited p.sheet ?_
    rcases hm.finish_cases p with ⟨hval, -⟩ | ⟨s, frames, levels, formula, outcome, reads, rfl, -, -, -⟩
    · refine ih p ?_
      rwa [Std.TreeMap.mem_iff_isSome_getElem?, ← hval, ← Std.TreeMap.mem_iff_isSome_getElem?]
    · exact Or.inl (hv₁.mem_active hv₁.mem_started)

/-- At the end, a cell that is listed is listed in the result for its sheet. -/
theorem reportsCircular_of_finished (hv : Machine.Valid w ⟨s, []⟩) {r : CalculatedSheet}
    (hr : s.finished[p.sheet]? = some r) : r.ReportsCircular p.row p.column ↔ Reported s p := by
  obtain ⟨n, rfl⟩ := hv.results p.sheet r hr
  constructor
  · rintro ⟨e, he, hrest⟩
    exact ⟨e, mem_entriesOf.1 he, hrest⟩
  · rintro ⟨e, he, hrest⟩
    exact ⟨e, mem_entriesOf.2 he, hrest⟩

theorem Setting.sheet_lt_of_formula? (h : (w.formula? p).isSome) : p.sheet < w.sheets.size := by
  rcases Nat.lt_or_ge p.sheet w.sheets.size with hi | hi
  · exact hi
  · rw [Setting.formula?, Setting.cell?, Setting.sheet, Array.getElem?_eq_none hi] at h
    simp [Sheet.cell?] at h

theorem Setting.access_lt {levels own i : Nat} {sheet : Option String} (hown : own < w.sheets.size)
    (h : w.access levels own sheet = .ok i) : i < w.sheets.size := by
  have hi := Setting.sheetFor?_of_access h
  unfold Setting.sheetFor? at hi
  split at hi
  · cases hi
    exact hown
  · split at hi
    · obtain ⟨name, -, hname⟩ := Option.bind_eq_some_iff.1 hi
      exact (Array.findIdx?_eq_some_iff_getElem.1 hname).1
    · cases hi

/-- Only sheets that there are get calculated. -/
theorem Runs.visited_lt (hv : m.Valid w) (hr : Runs w m m') (h : ∀ i, m.progress.Visited i → i < w.sheets.size) :
    ∀ i, m'.progress.Visited i → i < w.sheets.size := by
  induction hr with
  | refl => exact h
  | tail hr hm ih =>
    intro i hi
    cases hm with
    | start _ _ _ _ _ => exact ih i hi
    | retry => exact ih i hi
    | close _ _ _ => exact ih i (by simpa [Progress.Visited] using hi)
    | finish _ _ => exact ih i (by simpa [Progress.Visited] using hi)
    | enter hw _ =>
      rcases hi with hi | hi
      · rcases List.mem_cons.1 hi with rfl | hi
        · exact hw
        · exact ih i (Or.inl hi)
      · exact ih i (Or.inr hi)
    | visit _ _ hb =>
      obtain ⟨formula, a, j, hf, -, hj, rfl⟩ := hb
      rcases hi with hi | hi
      · rcases List.mem_cons.1 hi with rfl | hi
        · exact Setting.access_lt (Setting.sheet_lt_of_formula? (by rw [hf]; rfl)) hj
        · exact ih i (Or.inl hi)
      · exact ih i (Or.inr hi)
    | @leave s frames j n hd =>
      rcases hi with hi | hi
      · exact ih i (Or.inl (List.mem_of_mem_erase hi))
      · rw [Std.TreeMap.mem_insert, Std.compare_eq_iff_eq] at hi
        rcases hi with rfl | hi
        · refine ih j (Or.inl ?_)
          rw [(hv.run hr).active]
          exact List.mem_cons_self ..
        · exact ih i (Or.inr hi)

end Spreadsheet
