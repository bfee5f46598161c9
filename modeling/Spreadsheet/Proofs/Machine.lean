import Mathlib.Logic.Relation
import Mathlib.Data.List.Nodup
import Spreadsheet.Proofs.Result

/-!
# A calculation as a machine

The work that a calculation is in the middle of is a stack of frames: sheets, and formulas that are started
and not done, each begun on behalf of the frame beneath it. A formula stays on the stack while it waits for
others and while its evaluation reads other sheets, so the started formulas form a chain from the first one
to the one that is being evaluated.

* `Frame`, `Machine` : the stack, with what has been noted so far;
* `Move` : what can happen next, each time with the reason why it may;
* `Machine.Valid` : the frames are the started formulas and the sheets in the middle of their calculation;
  `Machine.Valid.run` says that it holds throughout;
* `Runs.learns` : what is known at some time is known at all later ones.
-/

namespace Spreadsheet

open Calculation (finish resultOf)
open Progress (Bound Learns answer? known?)

/-- Something that is being worked on. -/
inductive Frame where
  /-- A formula, with the levels of reads from other sheets that it has left. -/
  | formula (p : Position) (levels : Nat)
  | sheet (i : Nat)

namespace Frame

def formula? : Frame → Option Position
  | formula p _ => some p
  | sheet _ => none

def sheet? : Frame → Option Nat
  | formula _ _ => none
  | sheet i => some i

end Frame

/-- A calculation with the work it is in the middle of, the innermost first. -/
structure Machine where
  progress : Progress
  frames : List Frame

/-- The innermost frame leads to a formula: it is on the sheet, or the evaluation is going to read it. -/
def Leads (w : Setting) (s : Progress) : List Frame → Position → Prop
  | .formula k levels :: _, p => Bound w levels s k p
  | .sheet i :: _, p => p.sheet = i
  | [], _ => False

/-- What the read of a started formula is reported as. -/
def cycleFault (w : Setting) (p : Position) : FormulaError :=
  .circular ((w.sheet p.sheet).name ++ "!" ++ p.label)

/-- What can happen in a calculation. -/
inductive Move (w : Setting) : Machine → Machine → Prop where
  /-- A formula is evaluated for the first time. -/
  | start {s : Progress} {frames : List Frame} {p : Position} {formula : String} {levels : Nat}
      (hf : w.formula? p = some formula) (hv : p ∉ s.values) (hs : p ∉ s.started)
      (ha : p.sheet ∈ s.active) (hl : Leads w s frames p) :
      Move w ⟨s, frames⟩ ⟨s.begin p, .formula p levels :: frames⟩
  /-- The innermost formula is evaluated again. -/
  | retry {s : Progress} {frames : List Frame} {p : Position} {levels : Nat} :
      Move w ⟨s, .formula p levels :: frames⟩ ⟨s.begin p, .formula p levels :: frames⟩
  /-- The innermost formula reads one that is started. -/
  | close {s : Progress} {frames : List Frame} {k q : Position} {formula : String} {levels : Nat}
      (hf : w.formula? q = some formula) (hq : q ∈ s.started) (hb : Bound w levels s k q) :
      Move w ⟨s, .formula k levels :: frames⟩
        ⟨s.closeCycle q formula (cycleFault w q), .formula k levels :: frames⟩
  /-- The innermost formula is done: all that it has read is known. -/
  | finish {s : Progress} {frames : List Frame} {p : Position} {formula : String} {levels : Nat}
      {outcome : Except FormulaError Value} {reads : List CellRead}
      (hf : w.formula? p = some formula)
      (hr : (w.inquiry p formula).replay (answer? w levels s p.sheet) [] = some (outcome, reads)) :
      Move w ⟨s, .formula p levels :: frames⟩ ⟨finish w p formula outcome reads s, frames⟩
  /-- A sheet is calculated at the outermost level. -/
  | enter {s : Progress} {i : Nat} (hw : i < w.sheets.size) (hi : i ∉ s.finished) :
      Move w ⟨s, []⟩ ⟨{ s with active := i :: s.active }, [.sheet i]⟩
  /-- A sheet is calculated because the innermost formula reads one of its cells. -/
  | visit {s : Progress} {frames : List Frame} {k q : Position} {levels : Nat}
      (ha : q.sheet ∉ s.active) (hi : q.sheet ∉ s.finished) (hb : Bound w levels s k q) :
      Move w ⟨s, .formula k levels :: frames⟩
        ⟨{ s with opened := (k, q.sheet) :: s.opened, active := q.sheet :: s.active },
          .sheet q.sheet :: .formula k levels :: frames⟩
  /-- The innermost sheet is done, with a count of the sheets that were calculated for it. -/
  | leave {s : Progress} {frames : List Frame} {i : Nat} (otherSheets : Nat)
      (hd : s.Complete w i) :
      Move w ⟨s, .sheet i :: frames⟩
        ⟨{ s with
            active := s.active.erase i
            finished := s.finished.insert i (resultOf w i otherSheets s) }, frames⟩

/-- What can happen in the course of time. -/
abbrev Runs (w : Setting) : Machine → Machine → Prop := Relation.ReflTransGen (Move w)

/-! ## Inversion -/

/-- The value of a formula and its reads change only when it is done. -/
theorem Move.finish_cases {w : Setting} {m m' : Machine} (h : Move w m m') (p : Position) :
    (m'.progress.values[p]? = m.progress.values[p]? ∧ m'.progress.reads[p]? = m.progress.reads[p]?) ∨
    ∃ s frames levels formula outcome reads, m = ⟨s, .formula p levels :: frames⟩ ∧
      m' = ⟨Calculation.finish w p formula outcome reads s, frames⟩ ∧ w.formula? p = some formula ∧
      (w.inquiry p formula).replay (answer? w levels s p.sheet) [] = some (outcome, reads) := by
  cases h with
  | start _ _ _ _ _ => exact Or.inl ⟨rfl, rfl⟩
  | retry => exact Or.inl ⟨rfl, rfl⟩
  | close _ _ _ => exact Or.inl (by simp)
  | @finish s frames q formula levels outcome reads hf hr =>
    by_cases hq : q = p
    · subst hq
      exact Or.inr ⟨s, frames, levels, formula, outcome, reads, rfl, rfl, hf, hr⟩
    · left
      rw [Progress.getElem?_values_finish, Progress.getElem?_reads_finish, if_neg hq, if_neg hq]
      exact ⟨rfl, rfl⟩
  | enter _ _ => exact Or.inl ⟨rfl, rfl⟩
  | visit _ _ _ => exact Or.inl ⟨rfl, rfl⟩
  | leave _ _ => exact Or.inl ⟨rfl, rfl⟩

/-- A formula is put on a cycle only when it is read while it is started. -/
theorem Move.close_cases {w : Setting} {m m' : Machine} (h : Move w m m') {p : Position}
    (hp : p ∈ m'.progress.circular) :
    p ∈ m.progress.circular ∨
    ∃ s frames k levels formula, m = ⟨s, .formula k levels :: frames⟩ ∧
      m' = ⟨s.closeCycle p formula (cycleFault w p), .formula k levels :: frames⟩ ∧
      w.formula? p = some formula ∧ p ∈ s.started ∧ Bound w levels s k p := by
  cases h with
  | start _ _ _ _ _ => exact Or.inl hp
  | retry => exact Or.inl hp
  | @close s frames k q formula levels hf hq hb =>
    rcases Progress.mem_circular_closeCycle.1 hp with rfl | hp
    · exact Or.inr ⟨s, frames, k, levels, formula, rfl, rfl, hf, hq, hb⟩
    · exact Or.inl hp
  | finish _ _ => exact Or.inl (by simpa using hp)
  | enter _ _ => exact Or.inl hp
  | visit _ _ _ => exact Or.inl hp
  | leave _ _ => exact Or.inl hp

/-- An error is listed when a started formula is read, or when an evaluation ends in a failure. -/
theorem Move.errors_cases {w : Setting} {m m' : Machine} (h : Move w m m') {i : Nat} {e : CalculationError}
    (he : (i, e) ∈ m'.progress.errors) :
    (i, e) ∈ m.progress.errors ∨
    (∃ p formula, p ∈ m'.progress.circular ∧ (i, e) = (p.sheet, ⟨p.row, p.column, formula, cycleFault w p⟩)) ∨
    ∃ s frames p levels formula fault reads, m = ⟨s, .formula p levels :: frames⟩ ∧
      (w.inquiry p formula).replay (answer? w levels s p.sheet) [] = some (.error fault, reads) ∧
      (i, e) = (p.sheet, ⟨p.row, p.column, formula, fault⟩) := by
  cases h with
  | start _ _ _ _ _ => exact Or.inl he
  | retry => exact Or.inl he
  | @close s frames k q formula levels hf hq hb =>
    by_cases hc : q ∈ s.circular
    · rw [Progress.closeCycle_of_mem hc] at he
      exact Or.inl he
    · rw [Progress.closeCycle_of_notMem hc] at he
      rcases List.mem_cons.1 he with he | he
      · exact Or.inr (Or.inl ⟨q, formula, Progress.mem_circular_closeCycle.2 (Or.inl rfl), he⟩)
      · exact Or.inl he
  | @finish s frames q formula levels outcome reads hf hr =>
    rw [Progress.finish_eq] at he
    cases outcome with
    | ok v => exact Or.inl he
    | error fault =>
      rcases List.mem_cons.1 he with he | he
      · exact Or.inr (Or.inr ⟨s, frames, q, levels, formula, fault, reads, rfl, hr, he⟩)
      · exact Or.inl he
  | enter _ _ => exact Or.inl he
  | visit _ _ _ => exact Or.inl he
  | leave _ _ => exact Or.inl he

/-! ## Validity -/

/-- Every formula stands above its sheet. -/
def Nested : List Frame → Prop
  | [] => True
  | .formula p _ :: frames => p.sheet ∈ frames.filterMap Frame.sheet? ∧ Nested frames
  | .sheet _ :: frames => Nested frames

theorem Nested.sheet_mem {frames : List Frame} (h : Nested frames) {p : Position} {levels : Nat}
    (hp : .formula p levels ∈ frames) : p.sheet ∈ frames.filterMap Frame.sheet? := by
  induction frames with
  | nil => cases hp
  | cons f frames ih =>
    cases f with
    | formula q l =>
      rcases List.mem_cons.1 hp with hp | hp
      · cases hp
        exact h.1
      · exact ih h.2 hp
    | sheet i =>
      rcases List.mem_cons.1 hp with hp | hp
      · cases hp
      · exact List.mem_cons_of_mem i (ih h hp)

/-- The notes and the frames of a machine belong together. -/
structure Machine.Valid (w : Setting) (m : Machine) : Prop where
  started : ∀ p, p ∈ m.progress.started ↔ p ∈ m.frames.filterMap Frame.formula?
  once : (m.frames.filterMap Frame.formula?).Nodup
  undone : ∀ p ∈ m.progress.started, p ∉ m.progress.values
  isFormula : ∀ p, p ∈ m.progress.started ∨ p ∈ m.progress.values → (w.formula? p).isSome
  active : m.progress.active = m.frames.filterMap Frame.sheet?
  activeOnce : m.progress.active.Nodup
  unfinished : ∀ i ∈ m.progress.active, i ∉ m.progress.finished
  nested : Nested m.frames
  circular : ∀ p ∈ m.progress.circular, p ∈ m.progress.started ∨ p ∈ m.progress.values
  circularValue : ∀ p v, p ∈ m.progress.circular → m.progress.values[p]? = some v → v = w.cycleValue
  reads : ∀ p, p ∈ m.progress.reads ↔ p ∈ m.progress.values
  complete : ∀ i ∈ m.progress.finished, m.progress.Complete w i
  results : ∀ i r, m.progress.finished[i]? = some r → ∃ n, r = resultOf w i n m.progress

namespace Machine.Valid

variable {w : Setting} {m m' : Machine} {s : Progress} {frames : List Frame} {p : Position} {levels : Nat}

theorem initial (w : Setting) : Valid w ⟨{}, []⟩ where
  started p := by simp
  once := List.nodup_nil
  undone p h := by simp at h
  isFormula p h := by simp at h
  active := rfl
  activeOnce := List.nodup_nil
  unfinished i h := by simp at h
  nested := trivial
  circular p h := by simp at h
  circularValue p v h := by simp at h
  reads p := by simp
  complete i h := by simp at h
  results i r h := by simp at h

theorem mem_started (h : Valid w ⟨s, .formula p levels :: frames⟩) : p ∈ s.started :=
  (h.started p).2 (List.mem_cons_self ..)

theorem notMem_values (h : Valid w ⟨s, .formula p levels :: frames⟩) : p ∉ s.values :=
  h.undone p h.mem_started

theorem mem_active (h : Valid w ⟨s, frames⟩) (hp : p ∈ s.started) : p.sheet ∈ s.active := by
  rw [h.active]
  obtain ⟨f, hf, hfp⟩ := List.mem_filterMap.1 ((h.started p).1 hp)
  cases f with
  | formula q l =>
    cases hfp
    exact h.nested.sheet_mem hf
  | sheet i => cases hfp

/-- No formula of a sheet that is done is started. -/
theorem sheet_ne {i : Nat} {r : CalculatedSheet} (h : Valid w ⟨s, frames⟩) (hp : p ∈ s.started)
    (hr : s.finished[i]? = some r) : p.sheet ≠ i := by
  intro hi
  have hfin : i ∈ s.finished := mem_of_getElem?_some hr
  exact h.undone p hp (h.complete i hfin p hi (h.isFormula p (Or.inl hp)))

/-- To begin the innermost formula again changes nothing but the number of attempts. -/
theorem retry (h : Valid w ⟨s, .formula p levels :: frames⟩) :
    Valid w ⟨s.begin p, .formula p levels :: frames⟩ where
  started q := by
    rw [Progress.mem_started_begin]
    refine ⟨fun hq => ?_, fun hq => Or.inr ((h.started q).2 hq)⟩
    rcases hq with rfl | hq
    · exact List.mem_cons_self ..
    · exact (h.started q).1 hq
  once := h.once
  undone q hq := by
    rcases Progress.mem_started_begin.1 hq with rfl | hq
    · exact h.notMem_values
    · exact h.undone q hq
  isFormula q hq := by
    refine h.isFormula q (hq.imp (fun hq => ?_) id)
    rcases Progress.mem_started_begin.1 hq with rfl | hq
    · exact h.mem_started
    · exact hq
  active := h.active
  activeOnce := h.activeOnce
  unfinished := h.unfinished
  nested := h.nested
  circular q hq := (h.circular q hq).imp (fun hq => Progress.mem_started_begin.2 (Or.inr hq)) id
  circularValue := h.circularValue
  reads := h.reads
  complete := h.complete
  results := h.results

theorem start {formula : String} (h : Valid w ⟨s, frames⟩) (hf : w.formula? p = some formula)
    (hv : p ∉ s.values) (hs : p ∉ s.started) (ha : p.sheet ∈ s.active) :
    Valid w ⟨s.begin p, .formula p levels :: frames⟩ where
  started q := by
    rw [Progress.mem_started_begin]
    exact (or_congr eq_comm (h.started q)).trans List.mem_cons.symm
  once := List.nodup_cons.2 ⟨fun hp => hs ((h.started p).2 hp), h.once⟩
  undone q hq := by
    rcases Progress.mem_started_begin.1 hq with rfl | hq
    · exact hv
    · exact h.undone q hq
  isFormula q hq := by
    rcases hq with hq | hq
    · rcases Progress.mem_started_begin.1 hq with rfl | hq
      · exact Option.isSome_iff_exists.2 ⟨_, hf⟩
      · exact h.isFormula q (Or.inl hq)
    · exact h.isFormula q (Or.inr hq)
  active := h.active
  activeOnce := h.activeOnce
  unfinished := h.unfinished
  nested := ⟨h.active ▸ ha, h.nested⟩
  circular q hq := (h.circular q hq).imp (fun hq => Progress.mem_started_begin.2 (Or.inr hq)) id
  circularValue := h.circularValue
  reads := h.reads
  complete := h.complete
  results := h.results

theorem close {q : Position} {formula : String} {fault : FormulaError} (h : Valid w ⟨s, frames⟩)
    (hq : q ∈ s.started) : Valid w ⟨s.closeCycle q formula fault, frames⟩ where
  started r := by simpa using h.started r
  once := h.once
  undone r hr := by
    simp only [Progress.started_closeCycle, Progress.values_closeCycle] at hr ⊢
    exact h.undone r hr
  isFormula r hr := by
    simp only [Progress.started_closeCycle, Progress.values_closeCycle] at hr
    exact h.isFormula r hr
  active := by simpa using h.active
  activeOnce := by simpa using h.activeOnce
  unfinished i hi := by
    simp only [Progress.active_closeCycle, Progress.finished_closeCycle] at hi ⊢
    exact h.unfinished i hi
  nested := h.nested
  circular r hr := by
    simp only [Progress.started_closeCycle, Progress.values_closeCycle]
    rcases Progress.mem_circular_closeCycle.1 hr with rfl | hr
    · exact Or.inl hq
    · exact h.circular r hr
  circularValue r v hr hv := by
    rw [Progress.values_closeCycle] at hv
    rcases Progress.mem_circular_closeCycle.1 hr with rfl | hr
    · exact absurd (mem_of_getElem?_some hv) (h.undone q hq)
    · exact h.circularValue r v hr hv
  reads r := by simpa using h.reads r
  complete i hi := by
    rw [Progress.finished_closeCycle] at hi
    intro r hr hf
    rw [Progress.values_closeCycle]
    exact h.complete i hi r hr hf
  results i r hr := by
    rw [Progress.finished_closeCycle] at hr
    obtain ⟨n, rfl⟩ := h.results i r hr
    refine ⟨n, (resultOf_congr (fun p _ _ => ?_) ?_ ?_ ?_).symm⟩
    · rw [Progress.values_closeCycle]
    · rw [Progress.records_closeCycle]
    · exact Progress.entriesOf_errors_closeCycle (h.sheet_ne hq hr)
    · exact Progress.evaluatedOn_closeCycle i

theorem finish {formula : String} {outcome : Except FormulaError Value} {reads : List CellRead}
    (h : Valid w ⟨s, .formula p levels :: frames⟩) :
    Valid w ⟨Calculation.finish w p formula outcome reads s, frames⟩ where
  started q := by
    have honce : p ∉ frames.filterMap Frame.formula? := (List.nodup_cons.1 h.once).1
    rw [Progress.mem_started_finish, h.started q]
    constructor
    · rintro ⟨hne, hq⟩
      exact (List.mem_cons.1 hq).resolve_left (Ne.symm hne)
    · intro hq
      exact ⟨fun e => honce (e ▸ hq), List.mem_cons_of_mem _ hq⟩
  once := (List.nodup_cons.1 h.once).2
  undone q hq := by
    rw [Progress.mem_started_finish] at hq
    rw [Progress.mem_values_finish, not_or]
    exact ⟨hq.1, h.undone q hq.2⟩
  isFormula q hq := by
    rw [Progress.mem_started_finish, Progress.mem_values_finish] at hq
    rcases hq with ⟨-, hq⟩ | rfl | hq
    · exact h.isFormula q (Or.inl hq)
    · exact h.isFormula p (Or.inl h.mem_started)
    · exact h.isFormula q (Or.inr hq)
  active := by simpa [List.filterMap_cons, Frame.sheet?] using h.active
  activeOnce := by simpa using h.activeOnce
  unfinished i hi := by
    simp only [Progress.active_finish, Progress.finished_finish] at hi ⊢
    exact h.unfinished i hi
  nested := h.nested.2
  circular q hq := by
    rw [Progress.circular_finish] at hq
    rw [Progress.mem_started_finish, Progress.mem_values_finish]
    by_cases hpq : p = q
    · exact Or.inr (Or.inl hpq)
    · exact (h.circular q hq).imp (fun hq => ⟨hpq, hq⟩) Or.inr
  circularValue q v hq hv := by
    rw [Progress.circular_finish] at hq
    rw [Progress.getElem?_values_finish] at hv
    split at hv
    · rename_i hpq
      subst hpq
      cases hv
      exact if_pos hq
    · exact h.circularValue q v hq hv
  reads q := by
    rw [Progress.mem_reads_finish, Progress.mem_values_finish]
    exact or_congr Iff.rfl (h.reads q)
  complete i hi := by
    rw [Progress.finished_finish] at hi
    intro r hr hf
    exact Progress.mem_values_finish.2 (Or.inr (h.complete i hi r hr hf))
  results i r hr := by
    rw [Progress.finished_finish] at hr
    have hne := h.sheet_ne h.mem_started hr
    obtain ⟨n, rfl⟩ := h.results i r hr
    refine ⟨n, (resultOf_congr (fun q hq _ => ?_) ?_ ?_ ?_).symm⟩
    · rw [Progress.getElem?_values_finish, if_neg]
      rintro rfl
      exact hne hq
    · rw [Progress.records_finish, entriesOf_cons_of_ne hne]
    · exact Progress.entriesOf_errors_finish hne
    · rw [Progress.evaluatedOn_finish, if_neg hne]

/-- A sheet is put on the stack, where the notes on opened sheets may change. -/
theorem push {i : Nat} (h : Valid w ⟨s, frames⟩) (ha : i ∉ s.active) (hi : i ∉ s.finished)
    (opened : List (Position × Nat)) :
    Valid w ⟨{ s with opened, active := i :: s.active }, .sheet i :: frames⟩ where
  started := h.started
  once := h.once
  undone := h.undone
  isFormula := h.isFormula
  active := congrArg (i :: ·) h.active
  activeOnce := List.nodup_cons.2 ⟨ha, h.activeOnce⟩
  unfinished j hj := by
    rcases List.mem_cons.1 hj with rfl | hj
    · exact hi
    · exact h.unfinished j hj
  nested := h.nested
  circular := h.circular
  circularValue := h.circularValue
  reads := h.reads
  complete := h.complete
  results := h.results

theorem leave {i : Nat} (h : Valid w ⟨s, .sheet i :: frames⟩) (hd : s.Complete w i) (n : Nat) :
    Valid w ⟨{ s with
      active := s.active.erase i
      finished := s.finished.insert i (resultOf w i n s) }, frames⟩ := by
  have hactive : s.active = i :: frames.filterMap Frame.sheet? := h.active
  have herase : s.active.erase i = frames.filterMap Frame.sheet? := by
    rw [hactive, List.erase_cons_head]
  have hi : i ∉ frames.filterMap Frame.sheet? := by
    have := h.activeOnce
    simp only [hactive, List.nodup_cons] at this
    exact this.1
  exact {
    started := h.started
    once := h.once
    undone := h.undone
    isFormula := h.isFormula
    active := herase
    activeOnce := h.activeOnce.erase i
    unfinished := fun j hj hm => by
      simp only [Std.TreeMap.mem_insert, Std.compare_eq_iff_eq] at hm
      rcases hm with rfl | hm
      · exact hi (herase ▸ hj)
      · exact h.unfinished j (List.mem_of_mem_erase hj) hm
    nested := h.nested
    circular := h.circular
    circularValue := h.circularValue
    reads := h.reads
    complete := fun j hj => by
      simp only [Std.TreeMap.mem_insert, Std.compare_eq_iff_eq] at hj
      rcases hj with rfl | hj
      · exact hd
      · exact h.complete j hj
    results := fun j r hr => by
      simp only [Std.TreeMap.getElem?_insert, Std.compare_eq_iff_eq] at hr
      split at hr
      · rename_i hij
        cases hij
        cases hr
        exact ⟨n, rfl⟩
      · exact h.results j r hr }

theorem move (h : Valid w m) (hm : Move w m m') : Valid w m' := by
  cases hm with
  | start hf hv hs ha _ => exact h.start hf hv hs ha
  | retry => exact h.retry
  | close _ hq _ => exact h.close hq
  | finish _ _ => exact h.finish
  | enter _ hi =>
    refine h.push ?_ hi _
    rw [h.active]
    exact List.not_mem_nil
  | visit ha hi _ => exact h.push ha hi _
  | leave n hd => exact h.leave hd n

theorem run (h : Valid w m) (hr : Runs w m m') : Valid w m' := by
  induction hr with
  | refl => exact h
  | tail _ hm ih => exact ih.move hm

end Machine.Valid

/-! ## Growth -/

/-- Values, marks and notes stay, and what was started is started or done. -/
structure Progress.Grows (s s' : Progress) : Prop where
  values : ∀ (p : Position) (v : Value), s.values[p]? = some v → s'.values[p]? = some v
  reads : ∀ (p : Position) (reads : List CellRead), s.reads[p]? = some reads → s'.reads[p]? = some reads
  circular : ∀ p ∈ s.circular, p ∈ s'.circular
  started : ∀ p ∈ s.started, p ∈ s'.started ∨ p ∈ s'.values
  errors : ∀ e ∈ s.errors, e ∈ s'.errors
  opened : ∀ o ∈ s.opened, o ∈ s'.opened
  finished : ∀ (i : Nat) (r : CalculatedSheet), s.finished[i]? = some r → s'.finished[i]? = some r
  visited : ∀ i, s.Visited i → s'.Visited i

namespace Progress.Grows

variable {w : Setting} {s s' s'' : Progress} {p : Position}

theorem refl (s : Progress) : Grows s s :=
  ⟨fun _ _ h => h, fun _ _ h => h, fun _ h => h, fun _ h => Or.inl h, fun _ h => h, fun _ h => h,
    fun _ _ h => h, fun _ h => h⟩

theorem mem_values (h : Grows s s') (hp : p ∈ s.values) : p ∈ s'.values := by
  obtain ⟨v, hv⟩ := exists_getElem?_of_mem hp
  exact mem_of_getElem?_some (h.values p v hv)

theorem mem_finished {i : Nat} (h : Grows s s') (hi : i ∈ s.finished) : i ∈ s'.finished := by
  obtain ⟨r, hr⟩ := exists_getElem?_of_mem hi
  exact mem_of_getElem?_some (h.finished i r hr)

theorem trans (h : Grows s s') (h' : Grows s' s'') : Grows s s'' where
  values p v hp := h'.values p v (h.values p v hp)
  reads p reads hp := h'.reads p reads (h.reads p reads hp)
  circular p hp := h'.circular p (h.circular p hp)
  started p hp := (h.started p hp).elim (h'.started p) fun hp => Or.inr (h'.mem_values hp)
  errors e he := h'.errors e (h.errors e he)
  opened o ho := h'.opened o (h.opened o ho)
  finished i r hi := h'.finished i r (h.finished i r hi)
  visited i hi := h'.visited i (h.visited i hi)

theorem begin (s : Progress) (p : Position) : Grows s (s.begin p) :=
  { refl s with started := fun _ hq => Or.inl (mem_started_begin.2 (Or.inr hq)) }

theorem closeCycle (s : Progress) (p : Position) (formula : String) (fault : FormulaError) :
    Grows s (s.closeCycle p formula fault) where
  values q v h := by rwa [values_closeCycle]
  reads q reads h := by rwa [reads_closeCycle]
  circular q h := mem_circular_closeCycle.2 (Or.inr h)
  started q h := Or.inl (by rwa [started_closeCycle])
  errors e h := mem_errors_closeCycle h
  opened o h := by rwa [opened_closeCycle]
  finished i r h := by rwa [finished_closeCycle]
  visited i h := by rwa [Visited, active_closeCycle, finished_closeCycle]

theorem finish {formula : String} {outcome : Except FormulaError Value} {reads : List CellRead}
    (hv : p ∉ s.values) (hr : p ∉ s.reads) : Grows s (Calculation.finish w p formula outcome reads s) where
  values q v h := by
    rw [getElem?_values_finish, if_neg, h]
    rintro rfl
    exact hv (mem_of_getElem?_some h)
  reads q reads h := by
    rw [getElem?_reads_finish, if_neg, h]
    rintro rfl
    exact hr (mem_of_getElem?_some h)
  circular q h := by rwa [circular_finish]
  started q h := by
    rw [mem_started_finish, mem_values_finish]
    by_cases hpq : p = q
    · exact Or.inr (Or.inl hpq)
    · exact Or.inl ⟨hpq, h⟩
  errors e h := mem_errors_finish h
  opened o h := by rwa [opened_finish]
  finished i r h := by rwa [finished_finish]
  visited i h := by rwa [Visited, active_finish, finished_finish]

theorem finishSheet {i : Nat} (hi : i ∉ s.finished) (r : CalculatedSheet) :
    Grows s { s with active := s.active.erase i, finished := s.finished.insert i r } :=
  { refl s with
    finished := fun j r' h => by
      rw [Std.TreeMap.getElem?_insert, if_neg, h]
      rw [Std.compare_eq_iff_eq]
      rintro rfl
      exact hi (mem_of_getElem?_some h)
    visited := fun j hj => by
      by_cases hij : i = j
      · exact Or.inr (Std.TreeMap.mem_insert.2 (Or.inl (Std.compare_eq_iff_eq.2 hij)))
      · rcases hj with hj | hj
        · exact Or.inl ((List.mem_erase_of_ne (Ne.symm hij)).2 hj)
        · exact Or.inr (Std.TreeMap.mem_insert.2 (Or.inr hj)) }

/-- No value that is known changes, since formulas on a cycle end as they are read. -/
theorem learns {frames : List Frame} (h : Grows s s') (hv : Machine.Valid w ⟨s', frames⟩) :
    Learns w s s' := by
  refine ⟨fun q v hq => ?_, h.visited⟩
  cases hf : w.formula? q with
  | none => rwa [known?_literal hf] at hq ⊢
  | some formula =>
    cases hval : s.values[q]? with
    | some v' =>
      rw [known?_done hf hval] at hq
      cases hq
      exact known?_done hf (h.values q v hval)
    | none =>
      by_cases hc : q ∈ s.circular
      · rw [known?_circular hf hval hc] at hq
        cases hq
        cases hval' : s'.values[q]? with
        | some v' => rw [known?_done hf hval', hv.circularValue q v' (h.circular q hc) hval']
        | none => exact known?_circular hf hval' (h.circular q hc)
      · simp [known?, hf, hval, hc] at hq

end Progress.Grows

theorem Move.grows {w : Setting} {m m' : Machine} (hv : m.Valid w) (h : Move w m m') :
    m.progress.Grows m'.progress := by
  cases h with
  | start _ _ _ _ _ => exact .begin _ _
  | retry => exact .begin _ _
  | close _ _ _ => exact .closeCycle _ _ _ _
  | finish _ _ => exact .finish hv.notMem_values fun h => hv.notMem_values ((hv.reads _).1 h)
  | enter _ _ =>
    exact { Progress.Grows.refl _ with visited := fun _ h => h.imp (List.mem_cons_of_mem _) id }
  | visit _ _ _ =>
    exact { Progress.Grows.refl _ with
      opened := fun _ h => List.mem_cons_of_mem _ h
      visited := fun _ h => h.imp (List.mem_cons_of_mem _) id }
  | @leave s frames i n _ =>
    have hi : i ∈ s.active := by
      rw [hv.active]
      exact List.mem_cons_self ..
    exact .finishSheet (hv.unfinished i hi) _

theorem Runs.grows {w : Setting} {m m' : Machine} (hv : m.Valid w) (h : Runs w m m') :
    m.progress.Grows m'.progress := by
  induction h with
  | refl => exact .refl _
  | tail hr hm ih => exact ih.trans (hm.grows (hv.run hr))

theorem Runs.learns {w : Setting} {m m' : Machine} (hv : m.Valid w) (h : Runs w m m') :
    Learns w m.progress m'.progress :=
  (h.grows hv).learns (hv.run h)

end Spreadsheet
