import Spreadsheet.Proofs.Reported

/-!
# What is recorded

A formula is recorded when it is done, and that happens once, after all that it has read. Its error is listed when it
is done with one, and once more, as the error of a cycle, when it was read while it was started.

* `Progress.outcome?` : what the evaluation of a formula came to that gave it its value;
* `Recorded`, `Runs.recorded` : the formulas that are done are recorded in the order in which that happened;
* `Listed`, `Runs.listed` : the errors that are listed are those of cycles and those of failures.
-/

namespace Spreadsheet

open Calculation (entriesOf)
open Progress (Reads answer? known?)

variable {w : Setting} {m m' : Machine} {s s' : Progress} {p : Position} {formula : String}

/-! ## Completed evaluations -/

/-- The answer that was noted for a reference. -/
def notedAnswer (reads : List CellRead) (a : Address) : Option Answer :=
  (reads.find? fun r => r.address = a).map CellRead.answer

/-- What a formula comes to when it is evaluated again with the answers that were noted when it was done. -/
def Progress.outcome? (w : Setting) (s : Progress) (p : Position) : Option (Except FormulaError Value) :=
  match w.formula? p, s.reads[p]? with
  | some formula, some reads =>
    (evaluateFormula w.environment formula).run.run (.plain (notedAnswer reads) (w.extent? p.sheet))
  | _, _ => none

/-- The answers that were noted are all that an evaluation needs. -/
theorem Progress.outcome?_of_replay {levels : Nat} {outcome : Except FormulaError Value} {reads : List CellRead}
    (hf : w.formula? p = some formula) (hreads : s'.reads[p]? = some reads)
    (h : (w.inquiry p formula).replay (answer? w levels s p.sheet) [] = some (outcome, reads)) :
    s'.outcome? w p = some outcome := by
  have hnoted : ∀ r ∈ reads, notedAnswer reads r.address = some r.answer := by
    intro r hr
    unfold notedAnswer
    cases hfind : reads.find? fun r' => r'.address = r.address with
    | none => simpa using List.find?_eq_none.1 hfind r hr
    | some r' =>
      have haddress : r'.address = r.address := by simpa using List.find?_some hfind
      -- one address has one answer
      have hanswer := Inquiry.answer_of_replay h (List.mem_of_find?_eq_some hfind)
      rw [haddress, Inquiry.answer_of_replay h hr] at hanswer
      rw [Option.map_some, Option.some.inj hanswer]
  have hrun := Inquiry.run_of_replay (Inquiry.replay_congr h hnoted)
  rw [Setting.inquiry, ← Inquiry.run_plain] at hrun
  simp only [outcome?, hf, hreads]
  exact hrun

/-- What is noted for other formulas does not matter. -/
theorem Progress.outcome?_congr (h : s'.reads[p]? = s.reads[p]?) : s'.outcome? w p = s.outcome? w p := by
  rw [outcome?, outcome?, h]

/-! ## Inversion -/

/-- Values, marks, records, counts and errors change when a started formula is read and when a formula is done. -/
theorem Move.log_cases (h : Move w m m') :
    (m'.progress.values = m.progress.values ∧ m'.progress.reads = m.progress.reads ∧
      m'.progress.circular = m.progress.circular ∧ m'.progress.records = m.progress.records ∧
      m'.progress.evaluated = m.progress.evaluated ∧ m'.progress.errors = m.progress.errors) ∨
    (∃ p formula, m'.progress = m.progress.closeCycle p formula (cycleFault w p) ∧ w.formula? p = some formula) ∨
    ∃ s frames p levels formula outcome reads, m = ⟨s, .formula p levels :: frames⟩ ∧
      m'.progress = Calculation.finish w p formula outcome reads s ∧ w.formula? p = some formula ∧
      (w.inquiry p formula).replay (answer? w levels s p.sheet) [] = some (outcome, reads) := by
  cases h with
  | start _ _ _ _ _ => exact Or.inl ⟨rfl, rfl, rfl, rfl, rfl, rfl⟩
  | retry => exact Or.inl ⟨rfl, rfl, rfl, rfl, rfl, rfl⟩
  | close hf _ _ => exact Or.inr (Or.inl ⟨_, _, rfl, hf⟩)
  | finish hf hr => exact Or.inr (Or.inr ⟨_, _, _, _, _, _, _, rfl, rfl, hf, hr⟩)
  | enter _ _ => exact Or.inl ⟨rfl, rfl, rfl, rfl, rfl, rfl⟩
  | visit _ _ _ => exact Or.inl ⟨rfl, rfl, rfl, rfl, rfl, rfl⟩
  | leave _ _ => exact Or.inl ⟨rfl, rfl, rfl, rfl, rfl, rfl⟩

/-! ## Records -/

/-- The formula that is recorded. -/
def recordPlace (e : Nat × FormulaRecord) : Position := ⟨e.1, e.2.row, e.2.column⟩

/-- The formulas that are done are recorded and counted once each, behind those that they have read. -/
structure Recorded (w : Setting) (s : Progress) : Prop where
  once : (s.records.map recordPlace).Nodup
  record : ∀ e ∈ s.records, w.formula? (recordPlace e) = some e.2.formula ∧
    s.values[recordPlace e]? = some e.2.result
  recorded : ∀ p formula v, w.formula? p = some formula → s.values[p]? = some v →
    (p.sheet, ⟨p.row, p.column, formula, v⟩) ∈ s.records
  order : s.records.Pairwise fun later earlier =>
    Reads w s (recordPlace earlier) (recordPlace later) → recordPlace later ∈ s.circular
  counted : ∀ i, s.evaluatedOn i = (entriesOf i s.records).length

namespace Recorded

theorem initial (w : Setting) : Recorded w {} where
  once := List.nodup_nil
  record e he := absurd he List.not_mem_nil
  recorded p formula v _ hv := by simp at hv
  order := .nil
  counted i := by simp [Progress.evaluatedOn, entriesOf]

theorem mem_values (h : Recorded w s) {e : Nat × FormulaRecord} (he : e ∈ s.records) : recordPlace e ∈ s.values :=
  mem_of_getElem?_some (h.record e he).2

theorem mono (h : Recorded w s) (hvalues : s'.values = s.values) (hreads : s'.reads = s.reads)
    (hcircular : ∀ p ∈ s.circular, p ∈ s'.circular) (hrecords : s'.records = s.records)
    (hcounts : ∀ i, s'.evaluatedOn i = s.evaluatedOn i) : Recorded w s' where
  once := hrecords ▸ h.once
  record e he := by
    rw [hvalues]
    exact h.record e (hrecords ▸ he)
  recorded p formula v hf hv := hrecords ▸ h.recorded p formula v hf (hvalues ▸ hv)
  order := by
    rw [hrecords]
    refine h.order.imp fun hab hr => hcircular _ (hab ?_)
    simpa only [Reads, hreads] using hr
  counted i := by rw [hcounts, hrecords, h.counted]

/-- A formula that was not done is recorded. What had read it before had found it started. -/
theorem finish (h : Recorded w s) (he : ∀ q v, s.values[q]? = some v → Explained w s q v)
    (hf : w.formula? p = some formula) (hp : p ∉ s.values) (outcome : Except FormulaError Value)
    (reads : List CellRead) : Recorded w (Calculation.finish w p formula outcome reads s) where
  once := by
    rw [Progress.records_finish, List.map_cons, List.nodup_cons]
    refine ⟨fun hmem => ?_, h.once⟩
    obtain ⟨e, hmem, hplace⟩ := List.mem_map.1 hmem
    have hval := h.mem_values hmem
    rw [hplace] at hval
    exact hp hval
  record e hmem := by
    rw [Progress.records_finish] at hmem
    rw [Progress.getElem?_values_finish]
    rcases List.mem_cons.1 hmem with rfl | hmem
    · exact ⟨hf, if_pos rfl⟩
    · rw [if_neg fun hpe : p = recordPlace e => hp (hpe ▸ h.mem_values hmem)]
      exact h.record e hmem
  recorded q formula' v hf' hv := by
    rw [Progress.records_finish]
    rw [Progress.getElem?_values_finish] at hv
    split at hv
    · rename_i hpq
      subst hpq
      cases hv
      cases hf.symm.trans hf'
      exact List.mem_cons_self ..
    · exact List.mem_cons_of_mem _ (h.recorded q formula' v hf' hv)
  order := by
    have hread : ∀ {e q}, e ∈ s.records → Reads w (Calculation.finish w p formula outcome reads s) (recordPlace e) q →
        Reads w s (recordPlace e) q := by
      intro e q hmem hr
      have hpe : p ≠ recordPlace e := fun hpe => hp (hpe ▸ h.mem_values hmem)
      simpa only [Reads, Progress.getElem?_reads_finish, if_neg hpe] using hr
    rw [Progress.records_finish, List.pairwise_cons, Progress.circular_finish]
    refine ⟨fun e hmem hr => ?_, h.order.imp_of_mem fun _ hmem hab hr => hab (hread hmem hr)⟩
    obtain ⟨v, hv⟩ := exists_getElem?_of_mem (h.mem_values hmem)
    obtain ⟨_, levels, _, reads', -, hreads, hreplay, -⟩ := he _ v hv
    obtain ⟨reads'', hreads', r, hr, ⟨u, hu⟩, ht⟩ := hread hmem hr
    cases hreads.symm.trans hreads'
    obtain ⟨-, hknown⟩ := known?_of_replay hreplay hr hu ht
    exact (Progress.mem_of_known? hknown (by rw [recordPlace, hf]; rfl)).resolve_left hp
  counted i := by
    rw [Progress.evaluatedOn_finish, Progress.records_finish]
    split
    · rename_i hi
      rw [hi, entriesOf_cons_self, List.length_append, List.length_singleton, h.counted]
    · rename_i hi
      rw [entriesOf_cons_of_ne hi, h.counted]

theorem move (h : Recorded w m.progress) (hv : m.Valid w)
    (he : ∀ q v, m.progress.values[q]? = some v → Explained w m.progress q v) (hm : Move w m m') :
    Recorded w m'.progress := by
  rcases hm.log_cases with ⟨hvalues, hreads, hcircular, hrecords, hcounts, -⟩ | ⟨p, formula, heq, -⟩ |
    ⟨s, frames, p, levels, formula, outcome, reads, rfl, heq, hf, -⟩
  · exact h.mono hvalues hreads (fun p hp => hcircular ▸ hp) hrecords fun i => by
      rw [Progress.evaluatedOn, hcounts]; rfl
  · rw [heq]
    exact h.mono (by simp) (by simp) (fun p hp => by simp [hp]) (by simp) (by simp)
  · rw [heq]
    exact h.finish he hf hv.notMem_values outcome reads

end Recorded

theorem Runs.recorded (hr : Runs w m m') (hv : m.Valid w) (hrec : Recorded w m.progress)
    (he : ∀ q v, m.progress.values[q]? = some v → Explained w m.progress q v) : Recorded w m'.progress := by
  induction hr with
  | refl => exact hrec
  | tail hr hm ih => exact ih.move (hv.run hr) (Runs.explained hv hr he) hm

/-! ## Errors -/

/-- No evaluation ends in the failure of a formula on a cycle. -/
def Setting.CalmOutcomes (w : Setting) : Prop :=
  ∀ (s : Progress) (levels : Nat) (p : Position) (formula : String) (outcome : Except FormulaError Value)
    (reads : List CellRead), w.formula? p = some formula →
    (w.inquiry p formula).replay (answer? w levels s p.sheet) [] = some (outcome, reads) → Calm outcome

theorem Setting.calmOutcomes (hreg : w.environment.registry.Confined) : w.CalmOutcomes :=
  fun _ _ _ _ _ _ _ hr => replay_calm hreg hr

/-- The formula that has the error. -/
def errorPlace (e : Nat × CalculationError) : Position := ⟨e.1, e.2.row, e.2.column⟩

/-- Formulas on a cycle are listed once each as such, and those that failed once each with their failure. -/
structure Listed (w : Setting) (s : Progress) : Prop where
  cyclesOnce : ((s.errors.filter fun e => e.2.kind = .circular).map errorPlace).Nodup
  cycle : ∀ e ∈ s.errors, e.2.kind = .circular →
    errorPlace e ∈ s.circular ∧ w.formula? (errorPlace e) = some e.2.formula
  failuresOnce : ((s.errors.filter fun e => ¬e.2.kind = .circular).map errorPlace).Nodup
  failure : ∀ e ∈ s.errors, e.2.kind ≠ .circular → errorPlace e ∈ s.values ∧
    w.formula? (errorPlace e) = some e.2.formula ∧ s.outcome? w (errorPlace e) = some (.error e.2.fault)
  failed : ∀ p formula fault, p ∈ s.values → w.formula? p = some formula →
    s.outcome? w p = some (.error fault) → (p.sheet, ⟨p.row, p.column, formula, fault⟩) ∈ s.errors

namespace Listed

theorem initial (w : Setting) : Listed w {} where
  cyclesOnce := List.nodup_nil
  cycle e he := absurd he List.not_mem_nil
  failuresOnce := List.nodup_nil
  failure e he := absurd he List.not_mem_nil
  failed p formula fault hp := by simp at hp

theorem congr (h : Listed w s) (hvalues : s'.values = s.values) (hreads : s'.reads = s.reads)
    (hcircular : s'.circular = s.circular) (herrors : s'.errors = s.errors) : Listed w s' where
  cyclesOnce := herrors ▸ h.cyclesOnce
  cycle e he hk := hcircular ▸ h.cycle e (herrors ▸ he) hk
  failuresOnce := herrors ▸ h.failuresOnce
  failure e he hk := by
    rw [hvalues, Progress.outcome?_congr (s := s) (by rw [hreads])]
    exact h.failure e (herrors ▸ he) hk
  failed p formula fault hp hf ho := by
    rw [Progress.outcome?_congr (s := s) (by rw [hreads])] at ho
    exact herrors ▸ h.failed p formula fault (hvalues ▸ hp) hf ho

/-- A formula that was not on a cycle so far is listed as on one. -/
theorem close (h : Listed w s) (hf : w.formula? p = some formula) :
    Listed w (s.closeCycle p formula (cycleFault w p)) := by
  by_cases hc : p ∈ s.circular
  · rwa [Progress.closeCycle_of_mem hc]
  have houtcome : ∀ q, (s.closeCycle p formula (cycleFault w p)).outcome? w q = s.outcome? w q := fun q =>
    Progress.outcome?_congr (by rw [Progress.reads_closeCycle])
  have hkind : (⟨p.row, p.column, formula, cycleFault w p⟩ : CalculationError).kind = .circular := rfl
  have herrors : (s.closeCycle p formula (cycleFault w p)).errors
      = (p.sheet, ⟨p.row, p.column, formula, cycleFault w p⟩) :: s.errors := by
    rw [Progress.closeCycle_of_notMem hc]
    rfl
  refine ⟨?_, fun e he hk => ?_, ?_, fun e he hk => ?_, fun q formula' fault hq hf' ho => ?_⟩
  · rw [herrors, List.filter_cons_of_pos (by simp [hkind]), List.map_cons, List.nodup_cons]
    refine ⟨fun hmem => ?_, h.cyclesOnce⟩
    obtain ⟨e, hmem, hplace⟩ := List.mem_map.1 hmem
    obtain ⟨hmem, hk⟩ := List.mem_filter.1 hmem
    have hcirc := (h.cycle e hmem (by simpa using hk)).1
    rw [hplace] at hcirc
    exact hc hcirc
  · rw [Progress.mem_circular_closeCycle]
    rw [herrors] at he
    rcases List.mem_cons.1 he with rfl | he
    · exact ⟨Or.inl rfl, hf⟩
    · exact ⟨Or.inr (h.cycle e he hk).1, (h.cycle e he hk).2⟩
  · rw [herrors, List.filter_cons_of_neg (by simp [hkind])]
    exact h.failuresOnce
  · rw [herrors] at he
    rw [Progress.values_closeCycle, houtcome]
    rcases List.mem_cons.1 he with rfl | he
    · exact absurd hkind hk
    · exact h.failure e he hk
  · rw [Progress.values_closeCycle] at hq
    rw [houtcome] at ho
    exact Progress.mem_errors_closeCycle (h.failed q formula' fault hq hf' ho)

/-- A formula that was not done is listed if it failed, and not as on a cycle. -/
theorem finish {outcome : Except FormulaError Value} {reads : List CellRead} (h : Listed w s)
    (hf : w.formula? p = some formula) (hp : p ∉ s.values) (hcalm : Calm outcome)
    (ho : (Calculation.finish w p formula outcome reads s).outcome? w p = some outcome) :
    Listed w (Calculation.finish w p formula outcome reads s) := by
  have houtcome : ∀ {q}, q ∈ s.values →
      (Calculation.finish w p formula outcome reads s).outcome? w q = s.outcome? w q := by
    intro q hq
    refine Progress.outcome?_congr ?_
    rw [Progress.getElem?_reads_finish, if_neg fun hpq : p = q => hp (hpq ▸ hq)]
  have hold : ∀ e ∈ s.errors, e.2.kind ≠ .circular →
      errorPlace e ∈ (Calculation.finish w p formula outcome reads s).values ∧
      w.formula? (errorPlace e) = some e.2.formula ∧
      (Calculation.finish w p formula outcome reads s).outcome? w (errorPlace e) = some (.error e.2.fault) := by
    intro e he hk
    obtain ⟨hval, hform, hfault⟩ := h.failure e he hk
    exact ⟨Progress.mem_values_finish.2 (Or.inr hval), hform, (houtcome hval).trans hfault⟩
  have hfailed : ∀ q formula' fault, q ∈ s.values → w.formula? q = some formula' →
      (Calculation.finish w p formula outcome reads s).outcome? w q = some (.error fault) →
      (q.sheet, ⟨q.row, q.column, formula', fault⟩) ∈ s.errors := fun q formula' fault hq hf' ho' =>
    h.failed q formula' fault hq hf' ((houtcome hq).symm.trans ho')
  cases outcome with
  | ok v =>
    have herrors : (Calculation.finish w p formula (.ok v) reads s).errors = s.errors := by
      rw [Progress.finish_eq]
      rfl
    refine ⟨herrors ▸ h.cyclesOnce, fun e he hk => ?_, herrors ▸ h.failuresOnce, herrors ▸ hold, ?_⟩
    · rw [Progress.circular_finish]
      exact h.cycle e (herrors ▸ he) hk
    · intro q formula' fault hq hf' ho'
      rw [herrors]
      rcases Progress.mem_values_finish.1 hq with rfl | hq
      · cases ho.symm.trans ho'
      · exact hfailed q formula' fault hq hf' ho'
  | error fault =>
    have herrors : (Calculation.finish w p formula (.error fault) reads s).errors
        = (p.sheet, ⟨p.row, p.column, formula, fault⟩) :: s.errors := by
      rw [Progress.finish_eq]
      rfl
    have hkind : (⟨p.row, p.column, formula, fault⟩ : CalculationError).kind ≠ .circular := by
      intro hk
      obtain ⟨cell, rfl⟩ := ErrorKind.ofFault_eq_circular hk
      exact hcalm cell rfl
    refine ⟨?_, fun e he hk => ?_, ?_, fun e he hk => ?_, ?_⟩
    · rw [herrors, List.filter_cons_of_neg (by simp [hkind])]
      exact h.cyclesOnce
    · rw [Progress.circular_finish]
      rw [herrors] at he
      rcases List.mem_cons.1 he with rfl | he
      · exact absurd hk hkind
      · exact h.cycle e he hk
    · rw [herrors, List.filter_cons_of_pos (by simp [hkind]), List.map_cons, List.nodup_cons]
      refine ⟨fun hmem => ?_, h.failuresOnce⟩
      obtain ⟨e, hmem, hplace⟩ := List.mem_map.1 hmem
      obtain ⟨hmem, hk⟩ := List.mem_filter.1 hmem
      have hval := (h.failure e hmem (by simpa using hk)).1
      rw [hplace] at hval
      exact hp hval
    · rw [herrors] at he
      rcases List.mem_cons.1 he with rfl | he
      · exact ⟨Progress.mem_values_finish.2 (Or.inl rfl), hf, ho⟩
      · exact hold e he hk
    · intro q formula' fault' hq hf' ho'
      rw [herrors]
      rcases Progress.mem_values_finish.1 hq with rfl | hq
      · cases ho.symm.trans ho'
        cases hf.symm.trans hf'
        exact List.mem_cons_self ..
      · exact List.mem_cons_of_mem _ (hfailed q formula' fault' hq hf' ho')

theorem move (h : Listed w m.progress) (hcalm : w.CalmOutcomes) (hv : m.Valid w) (hm : Move w m m') :
    Listed w m'.progress := by
  rcases hm.log_cases with ⟨hvalues, hreads, hcircular, -, -, herrors⟩ | ⟨p, formula, heq, hf⟩ |
    ⟨s, frames, p, levels, formula, outcome, reads, rfl, heq, hf, hr⟩
  · exact h.congr hvalues hreads hcircular herrors
  · rw [heq]
    exact h.close hf
  · rw [heq]
    refine h.finish hf hv.notMem_values (hcalm s levels p formula outcome reads hf hr) ?_
    refine Progress.outcome?_of_replay hf ?_ hr
    rw [Progress.getElem?_reads_finish, if_pos rfl]

end Listed

theorem Runs.listed (hr : Runs w m m') (hcalm : w.CalmOutcomes) (hv : m.Valid w) (h : Listed w m.progress) :
    Listed w m'.progress := by
  induction hr with
  | refl => exact h
  | tail hr hm ih => exact ih.move hcalm (hv.run hr) hm

end Spreadsheet
