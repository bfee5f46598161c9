import Mathlib.Data.List.Cycle
import Mathlib.Logic.Function.Basic
import Spreadsheet.Proofs.Call

/-!
# The order in which formulas are done

What a formula has read was done before it, and so were the sheets that were calculated on its behalf, except for
formulas that were read while they were started. So whatever goes round in a circle goes through one of those, and
they are all reported.

* `Uses` : a formula has read a cell, or the cell is on a sheet that was calculated on its behalf;
* `OpenedAbove` : where the sheets calculated on behalf of a formula are;
* `Ordered` : numbers that fall along `Uses`, with `Runs.ordered`;
* `exists_circular_of_cycle`, `Call.cycle_reported` : every cycle goes through a reported formula.
-/

namespace Spreadsheet

open Calculation (finish)
open Progress (Bound Opens Reads answer? known?)

variable {w : Setting} {m m' : Machine} {s s' : Progress} {p q : Position}

/-- What a formula depends on: the cells it has read, and the sheets calculated on its behalf. -/
def Progress.Uses (w : Setting) (s : Progress) (p q : Position) : Prop := Reads w s p q ∨ Opens w s p q

/-! ## Sheets calculated on behalf of a formula -/

/-- Sheets that were calculated on behalf of a formula are done, or right above it on the stack. -/
def OpenedAbove (m : Machine) : Prop :=
  ∀ p i, (p, i) ∈ m.progress.opened →
    i ∈ m.progress.finished ∨ ∃ levels, [.sheet i, .formula p levels] <:+: m.frames

theorem OpenedAbove.move (ho : OpenedAbove m) (hv : m.Valid w) (h : Move w m m') : OpenedAbove m' := by
  have hgrows := h.grows hv
  cases h with
  | start _ _ _ _ _ =>
    exact fun p i hp => (ho p i hp).imp id fun ⟨l, hl⟩ => ⟨l, List.infix_cons hl⟩
  | retry => exact ho
  | close _ _ _ =>
    intro p i hp
    rw [Progress.opened_closeCycle] at hp
    exact (ho p i hp).imp hgrows.mem_finished id
  | finish _ _ =>
    intro p i hp
    rw [Progress.opened_finish] at hp
    refine (ho p i hp).imp hgrows.mem_finished fun ⟨l, hl⟩ => ⟨l, ?_⟩
    refine (List.infix_cons_iff.1 hl).resolve_left fun hpre => ?_
    cases (List.cons_prefix_cons.1 hpre).1
  | enter _ _ =>
    refine fun p i hp => (ho p i hp).imp id fun ⟨l, hl⟩ => ?_
    simp at hl
  | @visit s frames k q levels _ _ _ =>
    intro p i hp
    rcases List.mem_cons.1 hp with hp | hp
    · cases hp
      exact Or.inr ⟨levels, List.IsPrefix.isInfix ⟨frames, rfl⟩⟩
    · exact (ho p i hp).imp id fun ⟨l, hl⟩ => ⟨l, List.infix_cons hl⟩
  | @leave s frames j n hd =>
    intro p i hp
    rcases ho p i hp with hi | ⟨l, hl⟩
    · exact Or.inl (hgrows.mem_finished hi)
    · rcases List.infix_cons_iff.1 hl with hpre | hl
      · cases (List.cons_prefix_cons.1 hpre).1
        exact Or.inl (Std.TreeMap.mem_insert_self)
      · exact Or.inr ⟨l, hl⟩

theorem Runs.openedAbove (hv : m.Valid w) (hr : Runs w m m') (ho : OpenedAbove m) : OpenedAbove m' := by
  induction hr with
  | refl => exact ho
  | tail hr hm ih => exact ih.move (hv.run hr) hm

/-- When a formula is about to be done, so are the sheets calculated on its behalf. -/
theorem OpenedAbove.finished {levels i : Nat} {frames : List Frame} (ho : OpenedAbove ⟨s, .formula p levels :: frames⟩)
    (hv : Machine.Valid w ⟨s, .formula p levels :: frames⟩) (hi : (p, i) ∈ s.opened) : i ∈ s.finished := by
  refine (ho p i hi).resolve_right ?_
  rintro ⟨l, hl⟩
  refine (List.nodup_cons.1 hv.once).1 ?_
  rcases List.infix_cons_iff.1 hl with hpre | hl
  · cases (List.cons_prefix_cons.1 hpre).1
  · exact List.mem_filterMap.2 ⟨.formula p l, hl.subset (by simp), rfl⟩

/-! ## Order -/

/-- Numbers below `n` that fall from a formula that is done to those it uses, unless they are on a cycle. -/
structure Ordered (w : Setting) (s : Progress) (n : Nat) (rank : Position → Nat) : Prop where
  below : ∀ p ∈ s.values, rank p < n
  falls : ∀ p q, p ∈ s.values → s.Uses w p q → (w.formula? q).isSome → q ∉ s.circular →
    q ∈ s.values ∧ rank q < rank p

theorem Progress.mem_of_known? {v : Value} (h : known? w s q = some v) (hf : (w.formula? q).isSome) :
    q ∈ s.values ∨ q ∈ s.circular := by
  obtain ⟨formula, hf⟩ := Option.isSome_iff_exists.1 hf
  simp only [known?, hf] at h
  split at h
  · rename_i v hval
    exact Or.inl (mem_of_getElem?_some hval)
  · split at h
    · exact Or.inr ‹_›
    · cases h

theorem known?_of_replay {levels own : Nat} {t : Inquiry (Except FormulaError Value)}
    {outcome : Except FormulaError Value} {reads : List CellRead} {r : CellRead} {v : Value}
    (h : t.replay (answer? w levels s own) [] = some (outcome, reads)) (hr : r ∈ reads)
    (hv : r.answer = .ok v) (ht : w.target? own r.address = some q) :
    s.Visited q.sheet ∧ known? w s q = some v := by
  rcases Progress.answer?_eq_some.1 (Inquiry.answer_of_replay h hr) with ⟨fault, -, hfault⟩ | ⟨i, v', hi, hvis, hk, hv'⟩
  · rw [hv] at hfault
    cases hfault
  · rw [hv] at hv'
    cases hv'
    rw [Setting.target?, Setting.sheetFor?_of_access hi] at ht
    cases ht
    exact ⟨hvis, hk⟩

theorem Ordered.mono {n : Nat} {rank : Position → Nat} (h : Ordered w s n rank)
    (hvalues : s'.values = s.values) (hcircular : ∀ q ∈ s.circular, q ∈ s'.circular)
    (huses : ∀ p q, p ∈ s.values → s'.Uses w p q → s.Uses w p q) : Ordered w s' n rank where
  below p hp := h.below p (hvalues ▸ hp)
  falls p q hp hu hf hc := by
    rw [hvalues] at hp ⊢
    exact h.falls p q hp (huses p q hp hu) hf fun hq => hc (hcircular q hq)

/-- The formula that is done last gets the highest number. -/
theorem Ordered.finish {n levels : Nat} {rank : Position → Nat} {frames : List Frame} {formula : String}
    {outcome : Except FormulaError Value} {reads : List CellRead} (h : Ordered w s n rank)
    (hv : Machine.Valid w ⟨s, .formula p levels :: frames⟩) (ho : OpenedAbove ⟨s, .formula p levels :: frames⟩)
    (hr : (w.inquiry p formula).replay (answer? w levels s p.sheet) [] = some (outcome, reads)) :
    Ordered w (Calculation.finish w p formula outcome reads s) (n + 1) (Function.update rank p n) := by
  have hnew : ∀ q ∈ s.values, Function.update rank p n q = rank q := fun q hq =>
    Function.update_of_ne (fun e : q = p => hv.notMem_values (e ▸ hq)) _ _
  constructor
  · intro q hq
    rcases Progress.mem_values_finish.1 hq with rfl | hq
    · rw [Function.update_self]
      exact Nat.lt_succ_self n
    · rw [hnew q hq]
      exact Nat.lt_succ_of_lt (h.below q hq)
  · intro q q' hq hu hf hc
    rw [Progress.circular_finish] at hc
    rw [Progress.mem_values_finish] at hq ⊢
    by_cases hpq : p = q
    · -- everything that was used is done
      subst hpq
      suffices hq' : q' ∈ s.values by
        rw [hnew q' hq', Function.update_self]
        exact ⟨Or.inr hq', h.below q' hq'⟩
      rcases hu with ⟨reads', hreads, r, hmem, ⟨v, hrv⟩, ht⟩ | ⟨hopened, -⟩
      · rw [Progress.getElem?_reads_finish, if_pos rfl] at hreads
        cases hreads
        obtain ⟨-, hknown⟩ := known?_of_replay hr hmem hrv ht
        exact (Progress.mem_of_known? hknown hf).resolve_right hc
      · rw [Progress.opened_finish] at hopened
        exact hv.complete _ (ho.finished hv hopened) q' rfl hf
    · have hq := hq.resolve_left hpq
      have hu' : s.Uses w q q' := by
        simpa [Progress.Uses, Reads, Opens, Progress.getElem?_reads_finish, hpq] using hu
      obtain ⟨hq', hlt⟩ := h.falls q q' hq hu' hf hc
      rw [hnew q hq, hnew q' hq']
      exact ⟨Or.inr hq', hlt⟩

theorem Move.ordered (hv : m.Valid w) (ho : OpenedAbove m) (h : Move w m m')
    (hr : ∃ n rank, Ordered w m.progress n rank) : ∃ n rank, Ordered w m'.progress n rank := by
  obtain ⟨n, rank, hr⟩ := hr
  cases h with
  | start _ _ _ _ _ => exact ⟨n, rank, hr.mono rfl (fun _ h => h) fun _ _ _ h => h⟩
  | retry => exact ⟨n, rank, hr.mono rfl (fun _ h => h) fun _ _ _ h => h⟩
  | close _ _ _ =>
    refine ⟨n, rank, hr.mono (by simp) (fun _ h => by simp [h]) fun p q _ h => ?_⟩
    simpa [Progress.Uses, Reads, Opens] using h
  | finish _ hreplay => exact ⟨_, _, hr.finish hv ho hreplay⟩
  | enter _ _ => exact ⟨n, rank, hr.mono rfl (fun _ h => h) fun _ _ _ h => h⟩
  | @visit s frames k q levels _ _ _ =>
    refine ⟨n, rank, hr.mono rfl (fun _ h => h) fun p q hp h => h.imp id fun ⟨hq, hf⟩ => ⟨?_, hf⟩⟩
    refine (List.mem_cons.1 hq).resolve_left ?_
    intro he
    rw [Prod.mk.injEq] at he
    exact hv.notMem_values (he.1 ▸ hp)
  | leave _ _ => exact ⟨n, rank, hr.mono rfl (fun _ h => h) fun _ _ _ h => h⟩

theorem Runs.ordered (hv : m.Valid w) (hr : Runs w m m') (ho : OpenedAbove m)
    (h : ∃ n rank, Ordered w m.progress n rank) : ∃ n rank, Ordered w m'.progress n rank := by
  induction hr with
  | refl => exact h
  | tail hr hm ih => exact hm.ordered (hv.run hr) (Runs.openedAbove hv hr ho) ih

/-! ## Cycles -/

/-- Formulas have been used only by formulas that were started. -/
theorem Runs.opened_started (hr : Runs w m m') (hv : m.Valid w)
    (h : ∀ p i, (p, i) ∈ m.progress.opened → p ∈ m.progress.started ∨ p ∈ m.progress.values) :
    ∀ p i, (p, i) ∈ m'.progress.opened → p ∈ m'.progress.started ∨ p ∈ m'.progress.values := by
  induction hr with
  | refl => exact h
  | @tail m₁ m₂ hr hm ih =>
    have hv₁ := hv.run hr
    have hkeep : ∀ p, p ∈ m₁.progress.started ∨ p ∈ m₁.progress.values →
        p ∈ m₂.progress.started ∨ p ∈ m₂.progress.values := fun p hp =>
      hp.elim ((hm.grows hv₁).started p) fun hp => Or.inr ((hm.grows hv₁).mem_values hp)
    intro p i hp
    refine hkeep p ?_
    cases hm with
    | start _ _ _ _ _ => exact ih p i hp
    | retry => exact ih p i hp
    | close _ _ _ => exact ih p i (by simpa using hp)
    | finish _ _ => exact ih p i (by simpa using hp)
    | enter _ _ => exact ih p i hp
    | @visit s frames k q levels _ _ _ =>
      rcases List.mem_cons.1 hp with hp | hp
      · rw [Prod.mk.injEq] at hp
        rw [hp.1]
        exact Or.inl hv₁.mem_started
      · exact ih p i hp
    | leave _ _ => exact ih p i hp

/-- Whatever goes round in a circle goes through a formula that was read while it was started. -/
theorem exists_circular_of_cycle {n : Nat} {rank : Position → Nat} (h : Ordered w s n rank) {c : Cycle Position}
    (hc : c ≠ Cycle.nil) (hdone : ∀ p ∈ c, p ∈ s.values) (hf : ∀ p ∈ c, (w.formula? p).isSome)
    (huses : c.Chain (s.Uses w)) : ∃ p ∈ c, p ∈ s.circular := by
  by_contra hnone
  have hnone : ∀ p ∈ c, p ∉ s.circular := fun p hp hcirc => hnone ⟨p, hp, hcirc⟩
  have hfalls : c.Chain fun p q => rank q < rank p := by
    induction c with
    | nil => trivial
    | cons a l =>
      rw [Cycle.chain_coe_cons] at huses ⊢
      have hmem : ∀ p ∈ a :: (l ++ [a]), p ∈ (↑(a :: l) : Cycle Position) := by
        intro p hp
        rw [Cycle.mem_coe_iff]
        simpa [or_comm, or_assoc] using hp
      exact huses.imp_of_mem_imp fun p q hp hq hu =>
        (h.falls p q (hdone p (hmem p hp)) hu (hf q (hmem q hq)) (hnone q (hmem q hq))).2
  have htrans : IsTrans Position fun p q => rank q < rank p := ⟨fun _ _ _ h h' => lt_trans h' h⟩
  have hirrefl : Std.Irrefl fun p q : Position => rank q < rank p := ⟨fun _ => lt_irrefl _⟩
  exact hc hfalls.eq_nil_of_irrefl

namespace Call

variable (env : Environment) (c : Call) {p q : Position}

theorem ordered : ∃ n rank, Ordered (c.setting env) (c.progress env) n rank := by
  refine Runs.ordered (.initial _) (c.runs env) (fun p i hp => by simp at hp) ⟨0, fun _ => 0, ?_, ?_⟩
  · exact fun p hp => by simp at hp
  · exact fun p q hp => by simp at hp

theorem mem_values_of_uses (h : (c.progress env).Uses (c.setting env) p q) : p ∈ (c.progress env).values := by
  rcases h with ⟨reads, hreads, -⟩ | ⟨hopened, -⟩
  · exact ((c.valid env).reads p).1 (mem_of_getElem?_some hreads)
  · have h := (c.runs env).opened_started (.initial _) (by simp) p q.sheet hopened
    exact h.resolve_left (c.notMem_started env p)

/-- Whatever cells use each other in a circle, one of them was put on a cycle. -/
theorem exists_circular {cycle : Cycle Position} (hne : cycle ≠ Cycle.nil)
    (h : cycle.Chain ((c.progress env).Uses (c.setting env))) : ∃ p ∈ cycle, p ∈ (c.progress env).circular := by
  obtain ⟨n, rank, hordered⟩ := c.ordered env
  have hdone : ∀ p ∈ cycle, p ∈ (c.progress env).values := by
    intro p hp
    have haround := Cycle.chain_iff_pairwise.1 (h.imp fun _ _ => Relation.TransGen.single) p hp p hp
    obtain ⟨q, hq, -⟩ := Relation.TransGen.head'_iff.1 haround
    exact c.mem_values_of_uses env hq
  exact exists_circular_of_cycle hordered hne hdone
    (fun p hp => (c.valid env).isFormula p (Or.inr (hdone p hp))) h

/-- Cells that have read each other in a circle: one of them is listed in the result for its sheet. -/
theorem cycle_reported {cycle : Cycle Position} (hne : cycle ≠ Cycle.nil)
    (h : cycle.Chain ((c.progress env).Reads (c.setting env))) :
    ∃ p ∈ cycle, ∃ r, (c.progress env).finished[p.sheet]? = some r ∧ r.ReportsCircular p.row p.column := by
  obtain ⟨p, hp, hcirc⟩ := c.exists_circular env hne (h.imp fun _ _ => Or.inl)
  exact ⟨p, hp, c.reportsCircular env hcirc⟩

end Call

/-- Two sheets with a formula each that reads the other one. -/
def mutualSheets : Call :=
  let first : Sheet := ⟨"First", #[#[{ content := .text "=Second!A1+1" }]]⟩
  let second : Sheet := ⟨"Second", #[#[{ content := .text "=First!A1+1" }]]⟩
  .workbook [first, second]

def mutualCycle : Cycle Position := ([⟨0, 0, 0⟩, ⟨1, 0, 0⟩] : List Position)

theorem mutualSheets_reported :
    mutualCycle ≠ Cycle.nil ∧ mutualCycle.Chain ((mutualSheets.progress .plain).Reads (mutualSheets.setting .plain)) ∧
    ∃ p ∈ mutualCycle, ∃ r, (mutualSheets.progress .plain).finished[p.sheet]? = some r ∧
      r.ReportsCircular p.row p.column := by
  have hne : mutualCycle ≠ Cycle.nil := by decide
  have hcycle : mutualCycle.Chain ((mutualSheets.progress .plain).Reads (mutualSheets.setting .plain)) := by
    rw [mutualCycle, Cycle.chain_coe_cons]
    decide +kernel
  exact ⟨hne, hcycle, Call.cycle_reported .plain mutualSheets hne hcycle⟩

end Spreadsheet
