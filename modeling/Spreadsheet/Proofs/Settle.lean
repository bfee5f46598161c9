import Mathlib.Data.Finset.Card
import Spreadsheet.Proofs.Evaluation

/-!
# The work stack

A formula is begun once as a new one, and every time it is tried again a new one was begun since. So the number of
formulas that are not done and of those never started, taken together, bounds the attempts that are still to come
(`workload`), and twice the number of all formulas is enough for every stack.

* `Clears` : the top of a stack is worked off within the attempts that there are;
* `clears` : a formula that is new is worked off, and one that waited;
* `settled` : a formula has its value in the end.
-/

namespace Spreadsheet

open Calculation

/-! ## The work that is left -/

namespace Progress

variable {w : Setting} {s s' : Progress} {p : Position}

/-- Formulas that have no value. -/
def undone (w : Setting) (s : Progress) : Finset Position :=
  {p ∈ w.formulas.toFinset | p ∉ s.values}

/-- Formulas that were never started. -/
def untouched (w : Setting) (s : Progress) : Finset Position :=
  {p ∈ w.formulas.toFinset | p ∉ s.values ∧ p ∉ s.started}

/-- Attempts that are needed at most. -/
def workload (w : Setting) (s : Progress) : Nat := (s.undone w).card + (s.untouched w).card

/-- What is done stays done, and what is started is started or done. -/
structure Keeps (s s' : Progress) : Prop where
  values : ∀ p ∈ s.values, p ∈ s'.values
  started : ∀ p ∈ s.started, p ∈ s'.started ∨ p ∈ s'.values

theorem Grows.keeps (h : s.Grows s') : s.Keeps s' := ⟨fun _ => h.mem_values, h.started⟩

theorem mem_undone : p ∈ s.undone w ↔ p ∈ w.formulas ∧ p ∉ s.values := by
  simp [undone]

theorem mem_untouched : p ∈ s.untouched w ↔ p ∈ w.formulas ∧ p ∉ s.values ∧ p ∉ s.started := by
  simp [untouched]

theorem Keeps.undone_subset (h : s.Keeps s') : s'.undone w ⊆ s.undone w := by
  intro p hp
  rw [mem_undone] at hp ⊢
  exact ⟨hp.1, fun hs => hp.2 (h.values p hs)⟩

theorem Keeps.untouched_subset (h : s.Keeps s') : s'.untouched w ⊆ s.untouched w := by
  intro p hp
  rw [mem_untouched] at hp ⊢
  exact ⟨hp.1, fun hs => hp.2.1 (h.values p hs), fun hs => (h.started p hs).elim hp.2.2 hp.2.1⟩

theorem Keeps.undone_lt (h : s.Keeps s') (hp : p ∈ s.undone w) (hp' : p ∈ s'.values) :
    (s'.undone w).card < (s.undone w).card :=
  Finset.card_lt_card ⟨h.undone_subset, fun hs => (mem_undone.1 (hs hp)).2 hp'⟩

theorem Keeps.untouched_lt (h : s.Keeps s') (hp : p ∈ s.untouched w) (hp' : p ∈ s'.values ∨ p ∈ s'.started) :
    (s'.untouched w).card < (s.untouched w).card := by
  refine Finset.card_lt_card ⟨h.untouched_subset, fun hs => ?_⟩
  obtain ⟨-, hv, hst⟩ := mem_untouched.1 (hs hp)
  exact hp'.elim hv hst

theorem Keeps.workload_le (h : s.Keeps s') : s'.workload w ≤ s.workload w :=
  Nat.add_le_add (Finset.card_le_card h.undone_subset) (Finset.card_le_card h.untouched_subset)

theorem workload_le (w : Setting) (s : Progress) : s.workload w ≤ 2 * w.formulas.length := by
  have hundone : (s.undone w).card ≤ w.formulas.length :=
    (Finset.card_filter_le _ _).trans w.formulas.toFinset_card_le
  have huntouched : (s.untouched w).card ≤ w.formulas.length :=
    (Finset.card_filter_le _ _).trans w.formulas.toFinset_card_le
  unfold workload
  omega

/-- To begin a formula that is new leaves less work. -/
theorem workload_begin_lt (hf : p ∈ w.formulas) (hv : p ∉ s.values) (hs : p ∉ s.started) :
    (s.begin p).workload w < s.workload w := by
  have hle := Finset.card_le_card ((Grows.begin s p).keeps.undone_subset (w := w))
  have hlt := (Grows.begin s p).keeps.untouched_lt (mem_untouched.2 ⟨hf, hv, hs⟩)
    (Or.inr (mem_started_begin.2 (Or.inl rfl)))
  unfold workload
  omega

end Progress

/-! ## Ready formulas -/

/-- Formulas stay ready while nothing happens to the frames. -/
theorem Ready.run {w : Setting} {s s' : Progress} {frames : List Frame} {p : Position} (h : Ready w s frames p)
    (hv : Machine.Valid w ⟨s, frames⟩) (hrun : Runs w ⟨s, frames⟩ ⟨s', frames⟩) : Ready w s' frames p where
  isFormula := h.isFormula
  unstarted hp := h.unstarted ((hv.started p).2 (((hv.run hrun).started p).1 hp))
  active := by
    rw [(hv.run hrun).active, ← hv.active]
    exact h.active
  leads := by
    have hl := hrun.learns hv
    have hleads := h.leads
    cases frames with
    | nil => exact hleads
    | cons f frames =>
      cases f with
      | formula k levels => exact Progress.Bound.mono hleads hl
      | sheet i => exact hleads

/-! ## Working off a stack -/

section Settle

variable {w : Setting} {foreign : ForeignReader} {s s' : Progress} {p : Position} {formula : String}

theorem settle_done (attempts : Nat) (rest : List Position) (hp : p ∈ s.values) :
    (settle w foreign attempts (p :: rest)).run s = (settle w foreign attempts rest).run s := by
  cases attempts with
  | zero => rfl
  | succ attempts =>
    have hnext : s.nextPending? w (p :: rest) = s.nextPending? w rest := by
      simp [Progress.nextPending?, Progress.pending?, hp]
    simp only [settle, StateT.run_bind, StateT.run_get, pure_bind, hnext]

theorem settle_attempt (attempts : Nat) (rest : List Position) (hf : w.formula? p = some formula)
    (hp : p ∉ s.values) :
    (settle w foreign (attempts + 1) (p :: rest)).run s = match (attempt w foreign p formula).run s with
      | ([], s') => (settle w foreign attempts rest).run s'
      | (missing, s') => (settle w foreign attempts (missing.reverse ++ p :: rest)).run s' := by
  have hnext : s.nextPending? w (p :: rest) = some (p, formula, rest) := by
    simp [Progress.nextPending?, Progress.pending?, hp, hf]
  simp only [settle, StateT.run_bind, StateT.run_get, pure_bind, hnext]
  rcases (attempt w foreign p formula).run s with ⟨_ | _, s'⟩ <;> rfl

/-- The top of a stack is worked off, and the attempts that are left then are enough for the rest. -/
def Clears (w : Setting) (foreign : ForeignReader) (frames frames' : List Frame) (attempts : Nat)
    (s : Progress) (top : List Position) : Prop :=
  ∃ attempts' s', (∀ rest, (settle w foreign attempts (top ++ rest)).run s
      = (settle w foreign attempts' rest).run s') ∧
    Runs w ⟨s, frames⟩ ⟨s', frames'⟩ ∧ s'.workload w ≤ attempts' ∧ ∀ q ∈ top, q ∈ s'.values

variable {frames frames' frames'' : List Frame} {levels attempts : Nat} {top : List Position}

/-- The rest of the top of a stack after the first formula of it. -/
theorem Clears.cons (hv : Machine.Valid w ⟨s, frames⟩)
    (hp : Clears w foreign frames frames attempts s [p])
    (htop : ∀ attempts' s', Runs w ⟨s, frames⟩ ⟨s', frames⟩ → s'.workload w ≤ attempts' →
      Clears w foreign frames frames attempts' s' top) :
    Clears w foreign frames frames attempts s (p :: top) := by
  obtain ⟨attempts', s', hsettle, hrun, hwork, hdone⟩ := hp
  obtain ⟨attempts'', s'', hsettle', hrun', hwork', hdone'⟩ := htop attempts' s' hrun hwork
  refine ⟨attempts'', s'', fun rest => ?_, hrun.trans hrun', hwork', ?_⟩
  · rw [List.cons_append, ← hsettle', ← hsettle]
    rfl
  · intro q hq
    rcases List.mem_cons.1 hq with rfl | hq
    · exact (hrun'.grows (hv.run hrun)).mem_values (hdone q (List.mem_singleton_self q))
    · exact hdone' q hq

/-- Formulas that are done are passed over, others are new. -/
theorem clears_ready (bound : Nat)
    (hnew : ∀ {s : Progress} {p : Position} {attempts : Nat}, (s.untouched w).card ≤ bound →
      Machine.Valid w ⟨s, frames⟩ → Ready w s frames p → p ∉ s.values → s.workload w ≤ attempts + 1 →
      Clears w foreign frames frames attempts s [p]) :
    ∀ {s : Progress} {attempts : Nat}, (s.untouched w).card ≤ bound → Machine.Valid w ⟨s, frames⟩ →
      (∀ q ∈ top, Ready w s frames q) → s.workload w ≤ attempts →
      Clears w foreign frames frames attempts s top := by
  induction top with
  | nil =>
    intro s attempts _ _ _ hwork
    exact ⟨attempts, s, fun _ => rfl, .refl, hwork, by simp⟩
  | cons p top ih =>
    intro s attempts hbound hv hready hwork
    obtain ⟨hp, htop⟩ := List.forall_mem_cons.1 hready
    refine Clears.cons hv ?_ fun attempts' s' hrun hwork' => ?_
    · by_cases hval : p ∈ s.values
      · refine ⟨attempts, s, fun rest => settle_done attempts rest hval, .refl, hwork, ?_⟩
        simpa using hval
      · exact hnew hbound hv hp hval (by omega)
    · have hle := Finset.card_le_card (hrun.grows hv).keeps.untouched_subset (s := s'.untouched w)
      exact ih (hle.trans hbound) (hv.run hrun) (fun q hq => (htop q hq).run hv hrun) hwork'

/-- Formulas that an attempt waits for are worked off even with one attempt less, since the first one is new. -/
theorem clears_missing {missing : List Position}
    (hnew : ∀ {s' : Progress} {p : Position} {attempts : Nat}, (s'.untouched w).card ≤ (s.untouched w).card →
      Machine.Valid w ⟨s', frames⟩ → Ready w s' frames p → p ∉ s'.values → s'.workload w ≤ attempts + 1 →
      Clears w foreign frames frames attempts s' [p])
    (hv : Machine.Valid w ⟨s, frames⟩) (hne : missing ≠ [])
    (hm : ∀ q ∈ missing, q ∉ s.values ∧ Ready w s frames q) (hwork : s.workload w ≤ attempts + 1) :
    Clears w foreign frames frames attempts s missing := by
  obtain ⟨first, others, rfl⟩ := List.exists_cons_of_ne_nil hne
  obtain ⟨hfirst, hothers⟩ := List.forall_mem_cons.1 hm
  refine Clears.cons hv (hnew le_rfl hv hfirst.2 hfirst.1 hwork) fun attempts' s' hrun hwork' => ?_
  have hle := Finset.card_le_card (hrun.grows hv).keeps.untouched_subset (s := s'.untouched w)
  exact clears_ready _ hnew hle (hv.run hrun) (fun q hq => (hothers q hq).2.run hv hrun) hwork'

/-- One attempt at a formula, what it has to wait for, and the formula again. -/
theorem clears_attempt (hforeign : Sound w levels foreign) (hf : w.formula? p = some formula)
    (hval : p ∉ s.values) (hv : Machine.Valid w ⟨s, frames⟩)
    (hbegin : Move w ⟨s, frames⟩ ⟨s.begin p, .formula p levels :: frames'⟩)
    (hwork : (s.begin p).workload w ≤ attempts + 1)
    (hnew : ∀ {s' : Progress} {q : Position} {attempts : Nat},
      (s'.untouched w).card ≤ ((s.begin p).untouched w).card →
      Machine.Valid w ⟨s', .formula p levels :: frames'⟩ → Ready w s' (.formula p levels :: frames') q →
      q ∉ s'.values → s'.workload w ≤ attempts + 1 →
      Clears w foreign (.formula p levels :: frames') (.formula p levels :: frames') attempts s' [q])
    (hstarted : ∀ {s' : Progress} {attempts : Nat},
      (s'.untouched w).card < ((s.begin p).untouched w).card →
      Machine.Valid w ⟨s', .formula p levels :: frames'⟩ → s'.workload w ≤ attempts →
      Clears w foreign (.formula p levels :: frames') frames' attempts s' [p]) :
    Clears w foreign frames frames' (attempts + 1) s [p] := by
  have hv' := hv.move hbegin
  have hattempted := attempted hforeign hf hv'
  have hsettle := fun rest => @settle_attempt w foreign s p formula attempts rest hf hval
  have hp : p ∈ w.formulas := Setting.mem_formulas (by rw [hf]; rfl)
  generalize (attempt w foreign p formula).run s = outcome at hattempted hsettle
  cases hattempted with
  | @done s' hrun hdone =>
    refine ⟨attempts, s', hsettle, .head hbegin hrun, ?_, by simpa using hdone⟩
    have hgrows : (s.begin p).Grows s' := hrun.grows hv'
    have hundone := hgrows.keeps.undone_lt (Progress.mem_undone.2 ⟨hp, hval⟩) hdone
    have huntouched := Finset.card_le_card (hgrows.keeps.untouched_subset (w := w))
    unfold Progress.workload at hwork ⊢
    omega
  | @waits missing s' hrun hne hm =>
    have hgrows := hrun.grows hv'
    have hle := Finset.card_le_card (hgrows.keeps.untouched_subset (w := w))
    have hmissing : Clears w foreign (.formula p levels :: frames') (.formula p levels :: frames') attempts s'
        missing.reverse :=
      clears_missing (fun h => hnew (h.trans hle)) (hv'.run hrun) (by simpa using hne)
        (fun q hq => hm q (List.mem_reverse.1 hq)) (hgrows.keeps.workload_le.trans hwork)
    obtain ⟨attempts', s'', hsettle', hrun', hwork', hdone'⟩ := hmissing
    -- one of the missing formulas was new and is done now
    obtain ⟨q, hq⟩ := List.exists_mem_of_ne_nil missing hne
    have hq' : q ∈ s'.untouched w :=
      Progress.mem_untouched.2 ⟨Setting.mem_formulas (hm q hq).2.isFormula, (hm q hq).1, (hm q hq).2.unstarted⟩
    have hlt := (hrun'.grows (hv'.run hrun)).keeps.untouched_lt hq' (Or.inl (hdone' q (List.mem_reverse.2 hq)))
    obtain ⟨attempts'', last, hsettle'', hrun'', hwork'', hdone''⟩ :=
      hstarted (lt_of_lt_of_le hlt hle) ((hv'.run hrun).run hrun') hwork'
    refine ⟨attempts'', last, fun rest => ?_, .head hbegin ((hrun.trans hrun').trans hrun''), hwork'', hdone''⟩
    rw [← hsettle'' rest, List.singleton_append, hsettle rest]
    cases missing with
    | nil => exact absurd rfl hne
    | cons m ms => exact hsettle' (p :: rest)

/-- Every ready formula is worked off, and every started one that is tried again. The induction is on the number
of formulas that were never started: an attempt that has to wait has one of them begun next. -/
theorem clears (hforeign : Sound w levels foreign) (bound : Nat) :
    (∀ {s : Progress} {frames : List Frame} {p : Position} {attempts : Nat}, (s.untouched w).card ≤ bound →
      Machine.Valid w ⟨s, frames⟩ → Ready w s frames p → p ∉ s.values → s.workload w ≤ attempts + 1 →
      Clears w foreign frames frames attempts s [p]) ∧
    (∀ {s : Progress} {frames : List Frame} {p : Position} {attempts : Nat}, (s.untouched w).card ≤ bound →
      Machine.Valid w ⟨s, .formula p levels :: frames⟩ → s.workload w ≤ attempts →
      Clears w foreign (.formula p levels :: frames) frames attempts s [p]) := by
  induction bound using Nat.strong_induction_on with
  | _ bound ih =>
    have hnew : ∀ {s : Progress} {frames : List Frame} {p : Position} {attempts : Nat},
        (s.untouched w).card ≤ bound → Machine.Valid w ⟨s, frames⟩ → Ready w s frames p → p ∉ s.values →
        s.workload w ≤ attempts + 1 → Clears w foreign frames frames attempts s [p] := by
      intro s frames p attempts hbound hv hready hval hwork
      have hp := Setting.mem_formulas hready.isFormula
      have hlt := (Progress.Grows.begin s p).keeps.untouched_lt
        (Progress.mem_untouched.2 ⟨hp, hval, hready.unstarted⟩) (Or.inr (Progress.mem_started_begin.2 (Or.inl rfl)))
      obtain ⟨formula, hf⟩ := Option.isSome_iff_exists.1 hready.isFormula
      have hless := Progress.workload_begin_lt hp hval hready.unstarted
      have hpos := Finset.card_pos.2 ⟨p, Progress.mem_undone.2 ⟨hp, hval⟩⟩
      obtain ⟨attempts, rfl⟩ : ∃ n, attempts = n + 1 := by
        refine Nat.exists_eq_succ_of_ne_zero ?_
        rintro rfl
        unfold Progress.workload at hwork
        omega
      refine clears_attempt hforeign hf hval hv
        (.start hf hval hready.unstarted hready.active hready.leads) (by omega) ?_ ?_
      · exact fun h => (ih _ (lt_of_lt_of_le hlt hbound)).1 h
      · exact fun h => (ih _ (lt_of_lt_of_le hlt hbound)).2 h.le
    refine ⟨hnew, ?_⟩
    intro s frames p attempts hbound hv hwork
    have hval := hv.notMem_values
    obtain ⟨formula, hf⟩ := Option.isSome_iff_exists.1 (hv.isFormula p (Or.inl hv.mem_started))
    have hpos := Finset.card_pos.2 ⟨p, Progress.mem_undone.2 ⟨Setting.mem_formulas (by rw [hf]; rfl), hval⟩⟩
    have hle := Finset.card_le_card ((Progress.Grows.begin s p).keeps.untouched_subset (w := w))
    obtain ⟨attempts, rfl⟩ : ∃ n, attempts = n + 1 := by
      refine Nat.exists_eq_succ_of_ne_zero ?_
      rintro rfl
      unfold Progress.workload at hwork
      omega
    refine clears_attempt hforeign hf hval hv .retry ((Progress.Grows.begin s p).keeps.workload_le.trans hwork) ?_ ?_
    · exact fun h => hnew ((h.trans hle).trans hbound)
    · exact fun h => (ih _ (lt_of_lt_of_le (lt_of_lt_of_le h hle) hbound)).2 le_rfl

/-- Enough attempts for every stack. -/
def Setting.Ample (w : Setting) : Prop := 2 * w.formulas.length ≤ w.attemptLimit

/-- A formula that is ready has its value when the stack is empty. -/
theorem settled (hample : w.Ample) (hforeign : Sound w levels foreign) (hv : Machine.Valid w ⟨s, frames⟩)
    (hready : Ready w s frames p) :
    Runs w ⟨s, frames⟩ ⟨((settle w foreign w.attemptLimit [p]).run s).2, frames⟩ ∧
      p ∈ ((settle w foreign w.attemptLimit [p]).run s).2.values := by
  have hnil : ∀ attempts (s' : Progress), (settle w foreign attempts []).run s' = ((), s') := by
    intro attempts s'
    cases attempts <;> rfl
  by_cases hval : p ∈ s.values
  · rw [settle_done _ _ hval, hnil]
    exact ⟨.refl, hval⟩
  · have hwork := s.workload_le w
    have hclears := (clears hforeign _).1 le_rfl hv hready hval
      (show s.workload w ≤ w.attemptLimit + 1 by unfold Setting.Ample at hample; omega)
    obtain ⟨attempts', s', hsettle, hrun, -, hdone⟩ := hclears
    have h := hsettle []
    rw [List.append_nil, hnil] at h
    rw [h]
    exact ⟨hrun, hdone p (List.mem_singleton_self p)⟩

end Settle

end Spreadsheet
