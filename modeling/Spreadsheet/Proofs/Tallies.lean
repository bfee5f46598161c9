import Spreadsheet.Proofs.Attempts
import Spreadsheet.Proofs.Records
import Spreadsheet.Proofs.Solution

/-!
# Counts and lists of a result

A call calculates a sheet at most once, and a sheet that it calculates has each of its formulas evaluated to the end
once. Formulas may be given up, lie on a work stack twice and be done on behalf of other sheets; the result shows
nothing of that.

* `Call.passes` : the sheets that a call calculates, one entry for each time;
* `Tallies` : the counts, the formulas and the errors of a result are those of its sheet;
* `Call.tallies` : this holds for all results of a call.
-/

namespace Spreadsheet

open Calculation
open Progress (Covers Reads known?)

variable {w : Setting} {s : Progress} {i : Nat}

/-! ## Passes -/

/-- The sheets that are calculated because they are asked for, where results are not made again. -/
def entered (w : Setting) : List Nat → Progress → List Nat
  | [], _ => []
  | i :: targets, s =>
    let others := entered w targets ((outermost w i).run s).2
    if i ∈ s.finished then others else i :: others

/-- No sheet is calculated twice, whether it is asked for or opened. -/
theorem covers_entered (w : Setting) (targets : List Nat) : ∀ s : Progress, s.active = [] →
    ((targets.mapM (outermost w)).run s).2.active = [] ∧
    ∃ new passes, ((targets.mapM (outermost w)).run s).2.opened = new ++ s.opened ∧
      passes.Perm (entered w targets s ++ new.map Prod.snd) ∧
      Covers passes s ((targets.mapM (outermost w)).run s).2 := by
  induction targets with
  | nil => exact fun s ha => ⟨ha, [], [], rfl, .refl _, .of_iff fun _ => Iff.rfl⟩
  | cons i targets ih =>
    intro s ha
    have hmapM : (((i :: targets).mapM (outermost w)).run s).2
        = ((targets.mapM (outermost w)).run ((outermost w i).run s).2).2 := by
      rw [List.mapM_cons]
      rfl
    rw [hmapM, entered]
    cases hr : s.finished[i]? with
    | some r =>
      have hi : i ∈ s.finished := mem_of_getElem?_some hr
      have hrun : ((outermost w i).run s).2 = s := by rw [outermost, sheetResult_done hr]
      rw [hrun, if_pos hi]
      exact ih s ha
    | none =>
      have hi : i ∉ s.finished := notMem_of_getElem?_none hr
      have hvisited : ¬s.Visited i := by simp [Progress.Visited, ha, hi]
      have hproceeds := proceeds_sheetResult (thrifty_foreignValue w maxSheetNesting) hi {}
      obtain ⟨new, hnew, hcovers⟩ := hproceeds.opened
      obtain ⟨hactive, new', passes, hnew', hperm, hcovers'⟩ := ih _ (hproceeds.active.trans ha)
      have hsingle := Covers.single hvisited (Progress.visited_insert i {} s.opened)
      refine ⟨hactive, new' ++ new, passes ++ (new.map Prod.snd ++ [i]), ?_, ?_, (hsingle.trans hcovers).trans hcovers'⟩
      · rw [List.append_assoc, ← hnew]
        exact hnew'
      · rw [if_neg hi, List.map_append, ← List.append_assoc, List.cons_append]
        refine (List.perm_append_singleton i _).trans (.cons i ?_)
        rw [← List.append_assoc]
        exact hperm.append_right _

namespace Call

variable (env : Environment) (c : Call)

/-- The sheets that a call calculates, one entry for each time: those that were asked for and had no result, and those
that were opened because a formula of another sheet read them. -/
def passes : List Nat := entered (c.setting env) c.targets {} ++ (c.progress env).opened.map Prod.snd

theorem covers_passes : (c.passes env).Nodup ∧ ∀ i, i ∈ c.passes env ↔ i ∈ (c.progress env).finished := by
  obtain ⟨hactive, new, passes, hnew, hperm, hcovers⟩ := covers_entered (c.setting env) c.targets {} rfl
  have hopened : (c.progress env).opened = new := hnew.trans (List.append_nil new)
  have hactive : (c.progress env).active = [] := hactive
  have hcovers : Covers passes {} (c.progress env) := hcovers
  rw [Call.passes, hopened]
  refine ⟨hperm.nodup_iff.1 hcovers.once, fun i => hperm.mem_iff.symm.trans ((hcovers.mem i).trans ?_)⟩
  simp [Progress.Visited, hactive]

end Call

/-! ## Entries of a sheet -/

section Entries

variable {α β : Type} {log : List (Nat × α)}

theorem filter_entriesOf (i : Nat) (log : List (Nat × α)) (q : α → Bool) :
    (entriesOf i log).filter q = entriesOf i (log.filter fun e => q e.2) := by
  simp only [entriesOf, List.filter_reverse, List.filter_map, List.filter_filter, Function.comp_def, Bool.and_comm]

theorem nodup_entriesOf {place : Nat × α → β} (h : (log.map place).Nodup) (i : Nat) :
    ((entriesOf i log).map fun a => place (i, a)).Nodup := by
  have hplaces : (log.filter fun e => e.1 == i).map (fun e => place (i, e.2))
      = (log.filter fun e => e.1 == i).map place := by
    refine List.map_congr_left fun e he => ?_
    have hi : e.1 = i := by simpa using (List.mem_filter.1 he).2
    rw [← hi]
  rw [entriesOf, List.map_reverse, List.nodup_reverse, List.map_map]
  exact hplaces ▸ h.sublist (List.filter_sublist.map place)

theorem pairwise_entriesOf {R : Nat × α → Nat × α → Prop} (h : log.Pairwise R) (i : Nat) :
    (entriesOf i log).Pairwise fun a b => R (i, b) (i, a) := by
  rw [entriesOf, List.pairwise_reverse, List.pairwise_map]
  refine (h.filter _).imp_of_mem fun {a b} ha hb hab => ?_
  have hai : (i, a.2) = a := by rw [← (by simpa using (List.mem_filter.1 ha).2 : a.1 = i)]
  have hbi : (i, b.2) = b := by rw [← (by simpa using (List.mem_filter.1 hb).2 : b.1 = i)]
  rw [hai, hbi]
  exact hab

/-- An entry is the only one for its place. -/
theorem filter_eq_singleton [DecidableEq β] {f : α → β} {a : α} : ∀ {l : List α}, (l.map f).Nodup → a ∈ l →
    l.filter (fun b => f b = f a) = [a]
  | [], _, ha => by cases ha
  | b :: l, h, ha => by
    obtain ⟨hb, hl⟩ := List.nodup_cons.1 h
    rcases List.mem_cons.1 ha with rfl | ha
    · have hnone : l.filter (fun b => f b = f a) = [] := by
        refine List.filter_eq_nil_iff.2 fun b hmem hba => hb ?_
        rw [← of_decide_eq_true hba]
        exact List.mem_map_of_mem hmem
      rw [List.filter_cons_of_pos (by simp), hnone]
    · have hne : f b ≠ f a := fun hba => hb (hba ▸ List.mem_map_of_mem ha)
      rw [List.filter_cons_of_neg (by simpa using hne)]
      exact filter_eq_singleton hl ha

/-- Where entries of a kind are made once for each place, such an entry is the only one of the kind for its place. -/
theorem filter_entriesOf_eq [DecidableEq β] (place : Nat × α → β) (q : α → Bool) {a : α}
    (h : ((log.filter fun e => q e.2).map place).Nodup) (ha : (i, a) ∈ log) (hq : q a) :
    (entriesOf i log).filter (fun b => place (i, b) = place (i, a) && q b) = [a] := by
  rw [← List.filter_filter, filter_entriesOf]
  exact filter_eq_singleton (f := fun b => place (i, b)) (nodup_entriesOf h i)
    (mem_entriesOf.2 (List.mem_filter.2 ⟨ha, hq⟩))

end Entries

/-! ## Tallies -/

/-- The counts of a result, its formulas and its errors are right for its sheet. -/
structure Tallies (w : Setting) (s : Progress) (i : Nat) (sheet : Sheet) (r : CalculatedSheet) : Prop where
  counts : r.statistics.formulaCount = r.formulas.length ∧ r.statistics.evaluated = r.formulas.length
  /-- Every formula is recorded once, with the value that it has. -/
  once : ∀ row column c formula, sheet.cell? row column = some c → c.formula? = some formula →
    r.formulas.filter (fun f => f.row = row ∧ f.column = column) = [⟨row, column, formula, valueIn r row column⟩]
  recorded : ∀ f ∈ r.formulas, ∃ c, sheet.cell? f.row f.column = some c ∧ c.formula? = some f.formula
  /-- A formula stands behind those of its sheet that it has read, unless they are reported to be on a cycle. -/
  order : ∀ (m n : Nat) f g, r.formulas[m]? = some f → r.formulas[n]? = some g →
    Reads w s ⟨i, f.row, f.column⟩ ⟨i, g.row, g.column⟩ → ¬r.ReportsCircular g.row g.column → n < m
  cycles : ∀ row column,
    (r.errors.filter fun e => e.row = row ∧ e.column = column ∧ e.kind = .circular).length ≤ 1
  /-- The evaluation behind the value of a formula is listed if it failed, once and with its failure. -/
  failures : ∀ row column c formula, sheet.cell? row column = some c → c.formula? = some formula →
    ∃ outcome, s.outcome? w ⟨i, row, column⟩ = some outcome ∧
      (¬r.ReportsCircular row column → valueIn r row column = w.outcomeValue outcome) ∧
      r.errors.filter (fun e => e.row = row ∧ e.column = column ∧ e.kind ≠ .circular)
        = match outcome with
          | .ok _ => []
          | .error fault => [⟨row, column, formula, fault⟩]
  listed : ∀ e ∈ r.errors, ∃ c, sheet.cell? e.row e.column = some c ∧ c.formula? = some e.formula

/-- Every formula of a sheet that is done is recorded for it, and nothing else is. -/
theorem Recorded.perm_formulaPlaces (h : Recorded w s) (hd : s.Complete w i) :
    ((entriesOf i s.records).map fun f => (f.row, f.column)).Perm (w.sheet i).formulaPlaces := by
  refine (List.perm_ext_iff_of_nodup ?_ (w.sheet i).nodup_formulaPlaces).2 fun ⟨row, column⟩ => ?_
  · refine List.Nodup.of_map (fun place => (⟨i, place.1, place.2⟩ : Position)) ?_
    rw [List.map_map]
    exact nodup_entriesOf h.once i
  · have hformula := @Setting.isSome_formula? w ⟨i, row, column⟩
    rw [Sheet.mem_formulaPlaces]
    refine Iff.trans ?_ hformula
    constructor
    · intro hmem
      obtain ⟨f, hf, hplace⟩ := List.mem_map.1 hmem
      obtain ⟨rfl, rfl⟩ := Prod.mk.inj hplace
      exact Option.isSome_iff_exists.2 ⟨_, (h.record _ (mem_entriesOf.1 hf)).1⟩
    · intro hf
      obtain ⟨v, hval⟩ := exists_getElem?_of_mem (hd ⟨i, row, column⟩ rfl hf)
      obtain ⟨formula, hf⟩ := Option.isSome_iff_exists.1 hf
      exact List.mem_map.2 ⟨_, mem_entriesOf.2 (h.recorded _ formula v hf hval), rfl⟩

namespace Call

variable (env : Environment) (c : Call)

theorem recorded : Recorded (c.setting env) (c.progress env) :=
  (c.runs env).recorded (.initial _) (.initial _) fun p v h => by simp at h

theorem listed (hcalm : (c.setting env).CalmOutcomes) : Listed (c.setting env) (c.progress env) :=
  (c.runs env).listed hcalm (.initial _) (.initial _)

section Sheet

variable {env c} {sheet : Sheet} {r : CalculatedSheet} {row column : Nat} {cell : Cell} {formula : String}

theorem formula?_setting (hsheet : c.sheets[i]? = some sheet) :
    (c.setting env).formula? ⟨i, row, column⟩ = (sheet.cell? row column).bind Cell.formula? := by
  rw [Setting.formula?, Setting.cell?, c.sheet_setting env hsheet, Sheet.cell?_withDates]
  cases sheet.cell? row column with
  | none => rfl
  | some cell => exact Cell.formula?_withDate _ cell

theorem cell_of_formula? (hsheet : c.sheets[i]? = some sheet)
    (h : (c.setting env).formula? ⟨i, row, column⟩ = some formula) :
    ∃ cell, sheet.cell? row column = some cell ∧ cell.formula? = some formula :=
  Option.bind_eq_some_iff.1 ((formula?_setting hsheet).symm.trans h)

/-- The value that a result has for a formula is that of the formula. -/
theorem values_of_finished (hsheet : c.sheets[i]? = some sheet) (hr : (c.progress env).finished[i]? = some r)
    (hc : sheet.cell? row column = some cell) (hf : cell.formula? = some formula) :
    (c.setting env).formula? ⟨i, row, column⟩ = some formula ∧
      (c.progress env).values[(⟨i, row, column⟩ : Position)]? = some (valueIn r row column) := by
  have hv := c.valid env
  have hcomplete := hv.complete i (mem_of_getElem?_some hr)
  obtain ⟨n, rfl⟩ := hv.results i r hr
  have hform : (c.setting env).formula? ⟨i, row, column⟩ = some formula := by
    rw [formula?_setting hsheet, hc]
    exact hf
  obtain ⟨v, hval⟩ := exists_getElem?_of_mem (hcomplete ⟨i, row, column⟩ rfl (by rw [hform]; rfl))
  have hknown := known?_of_resultOf (n := n) (p := ⟨i, row, column⟩) hcomplete
  rw [Progress.known?_done hform hval] at hknown
  exact ⟨hform, hval.trans hknown⟩

theorem formulas_order (hr : (c.progress env).finished[i]? = some r) {m n : Nat} {f g : FormulaRecord}
    (hm : r.formulas[m]? = some f) (hn : r.formulas[n]? = some g)
    (hreads : Reads (c.setting env) (c.progress env) ⟨i, f.row, f.column⟩ ⟨i, g.row, g.column⟩)
    (hg : ¬r.ReportsCircular g.row g.column) : n < m := by
  have hcirc : (⟨i, g.row, g.column⟩ : Position) ∉ (c.progress env).circular := by
    intro hc
    obtain ⟨r', hr', hrep⟩ := c.reportsCircular env hc
    cases hr.symm.trans hr'
    exact hg hrep
  obtain ⟨others, rfl⟩ := (c.valid env).results i r hr
  have horder := pairwise_entriesOf (c.recorded env).order i
  obtain ⟨hm', rfl⟩ := List.getElem?_eq_some_iff.1 hm
  obtain ⟨hn', rfl⟩ := List.getElem?_eq_some_iff.1 hn
  by_contra hle
  rcases Nat.lt_or_eq_of_le (Nat.le_of_not_lt hle) with hlt | rfl
  · exact hcirc (List.pairwise_iff_getElem.1 horder m n hm' hn' hlt hreads)
  · -- a formula that has read itself was found started
    obtain ⟨_, rank, hordered⟩ := c.ordered env
    have hrecord := (c.recorded env).record _ (mem_entriesOf.1 (List.getElem_mem hm'))
    have hval := (c.recorded env).mem_values (mem_entriesOf.1 (List.getElem_mem hm'))
    have hfalls := hordered.falls _ _ hval (Or.inl hreads) (Option.isSome_iff_exists.2 ⟨_, hrecord.1⟩) hcirc
    exact lt_irrefl _ hfalls.2

theorem filter_formulas (hsheet : c.sheets[i]? = some sheet) (hr : (c.progress env).finished[i]? = some r)
    (hc : sheet.cell? row column = some cell) (hf : cell.formula? = some formula) :
    r.formulas.filter (fun f => f.row = row ∧ f.column = column) = [⟨row, column, formula, valueIn r row column⟩] := by
  obtain ⟨hform, hval⟩ := values_of_finished hsheet hr hc hf
  obtain ⟨n, hn⟩ := (c.valid env).results i r hr
  have hrec := c.recorded env
  have hone := filter_eq_singleton (nodup_entriesOf hrec.once i) (mem_entriesOf.2 (hrec.recorded _ _ _ hform hval))
  have hformulas : r.formulas = entriesOf i (c.progress env).records := by rw [hn]; rfl
  rw [← hformulas] at hone
  rw [← hone]
  exact List.filter_congr fun f _ => by simp [recordPlace]

theorem errors_eq (hr : (c.progress env).finished[i]? = some r) : r.errors = entriesOf i (c.progress env).errors := by
  obtain ⟨n, rfl⟩ := (c.valid env).results i r hr
  rfl

theorem length_cycles_le (hcalm : (c.setting env).CalmOutcomes) (hr : (c.progress env).finished[i]? = some r) :
    (r.errors.filter fun e => e.row = row ∧ e.column = column ∧ e.kind = .circular).length ≤ 1 := by
  cases hcycles : r.errors.filter fun e => e.row = row ∧ e.column = column ∧ e.kind = .circular with
  | nil => exact Nat.zero_le 1
  | cons e others =>
    obtain ⟨hmem, hat⟩ := List.mem_filter.1 (hcycles ▸ List.mem_cons_self .. :
      e ∈ r.errors.filter fun e => e.row = row ∧ e.column = column ∧ e.kind = .circular)
    obtain ⟨rfl, rfl, hk⟩ := of_decide_eq_true hat
    rw [errors_eq hr] at hmem hcycles
    have hone := filter_entriesOf_eq errorPlace (fun e => e.kind = .circular) (c.listed env hcalm).cyclesOnce
      (mem_entriesOf.1 hmem) (decide_eq_true hk)
    have hsame : (entriesOf i (c.progress env).errors).filter
        (fun e' => e'.row = e.row ∧ e'.column = e.column ∧ e'.kind = .circular) = [e] := by
      rw [← hone]
      exact List.filter_congr fun e' _ => by simp [errorPlace, Bool.and_assoc]
    rw [← hcycles, hsame]
    exact le_rfl

/-- The evaluation behind a value is listed if it failed. -/
theorem exists_outcome (hcalm : (c.setting env).CalmOutcomes) (hsheet : c.sheets[i]? = some sheet)
    (hr : (c.progress env).finished[i]? = some r) (hc : sheet.cell? row column = some cell)
    (hf : cell.formula? = some formula) :
    ∃ outcome, (c.progress env).outcome? (c.setting env) ⟨i, row, column⟩ = some outcome ∧
      (¬r.ReportsCircular row column → valueIn r row column = (c.setting env).outcomeValue outcome) ∧
      r.errors.filter (fun e => e.row = row ∧ e.column = column ∧ e.kind ≠ .circular)
        = match outcome with
          | .ok _ => []
          | .error fault => [⟨row, column, formula, fault⟩] := by
  obtain ⟨hform, hval⟩ := values_of_finished hsheet hr hc hf
  obtain ⟨formula', levels, outcome, reads, hform', hreads, hreplay, hvalue⟩ :=
    (c.runs env).explained (.initial _) (fun p v h => by simp at h) _ _ hval
  cases hform.symm.trans hform'
  have houtcome := Progress.outcome?_of_replay hform hreads hreplay
  have hl := c.listed env hcalm
  refine ⟨outcome, houtcome, fun hrep => ?_, ?_⟩
  · rw [hvalue, if_neg]
    intro hcirc
    obtain ⟨r', hr', hrep'⟩ := c.reportsCircular env hcirc
    cases hr.symm.trans hr'
    exact hrep hrep'
  · rw [errors_eq hr]
    have hplace : ∀ e : CalculationError, (decide (e.row = row ∧ e.column = column ∧ e.kind ≠ .circular))
        = (decide (errorPlace (i, e) = ⟨i, row, column⟩) && decide (¬e.kind = .circular)) := fun e => by
      simp [errorPlace, Bool.and_assoc]
    simp only [hplace]
    cases outcome with
    | ok v =>
      refine List.filter_eq_nil_iff.2 fun e he hat => ?_
      obtain ⟨hat, hk⟩ := Bool.and_eq_true_iff.1 hat
      obtain ⟨-, -, hfault⟩ := hl.failure _ (mem_entriesOf.1 he) (of_decide_eq_true hk)
      rw [of_decide_eq_true hat, houtcome] at hfault
      cases hfault
    | error fault =>
      have hmem := hl.failed _ formula fault (mem_of_getElem?_some hval) hform houtcome
      have hkind : (⟨row, column, formula, fault⟩ : CalculationError).kind ≠ .circular := by
        intro hk
        obtain ⟨cell, rfl⟩ := ErrorKind.ofFault_eq_circular hk
        exact hcalm _ _ _ _ _ _ hform hreplay cell rfl
      exact filter_entriesOf_eq errorPlace (fun e => ¬e.kind = .circular) hl.failuresOnce hmem
        (decide_eq_true hkind)

end Sheet

/-- A call calculates each sheet at most once. In the result of each one that it calculates, every formula is recorded
once, behind what it has read, and every failure is listed once. -/
theorem tallies (hreg : env.registry.Confined) :
    List.Forall₂ (fun i r => (c.progress env).finished[i]? = some r) c.targets (c.answers env) ∧
    (c.passes env).Nodup ∧ (∀ i, i ∈ c.passes env ↔ i ∈ (c.progress env).finished) ∧
    ∀ i r, (c.progress env).finished[i]? = some r → ∃ sheet, c.sheets[i]? = some sheet ∧
      Tallies (c.setting env) (c.progress env) i sheet r := by
  refine ⟨c.answers_finished env, (c.covers_passes env).1, (c.covers_passes env).2, fun i r hr => ?_⟩
  have hcalm : (c.setting env).CalmOutcomes := Setting.calmOutcomes hreg
  have hmem : i ∈ (c.progress env).finished := mem_of_getElem?_some hr
  have hi := (c.runs env).visited_lt (.initial _) (by simp [Progress.Visited]) i (Or.inr hmem)
  rw [c.size_sheets env] at hi
  have hsheet := List.getElem?_eq_getElem hi
  obtain ⟨n, hn⟩ := (c.valid env).results i r hr
  have hcomplete := (c.valid env).complete i hmem
  have hlength := ((c.recorded env).perm_formulaPlaces hcomplete).length_eq
  rw [List.length_map] at hlength
  refine ⟨_, hsheet, ⟨?_, ?_⟩, ?_, ?_, ?_, ?_, ?_, ?_⟩
  · rw [hn]
    exact hlength.symm
  · rw [hn]
    exact (c.recorded env).counted i
  · exact fun row column cell formula hc hf => filter_formulas hsheet hr hc hf
  · intro f hf
    rw [hn] at hf
    exact cell_of_formula? hsheet ((c.recorded env).record _ (mem_entriesOf.1 hf)).1
  · exact fun m n f g hm hn hreads hg => formulas_order hr hm hn hreads hg
  · exact fun row column => length_cycles_le hcalm hr
  · exact fun row column cell formula hc hf => exists_outcome hcalm hsheet hr hc hf
  · intro e he
    rw [errors_eq hr] at he
    have hmem := mem_entriesOf.1 he
    by_cases hk : e.kind = .circular
    · exact cell_of_formula? hsheet ((c.listed env hcalm).cycle _ hmem hk).2
    · exact cell_of_formula? hsheet ((c.listed env hcalm).failure _ hmem hk).2.1

end Call

/-- The first sheet is calculated because it is asked for, and the other one because the first one reads it. -/
theorem tallies_mutualSheets :
    mutualSheets.passes .plain = [0, 1] ∧ Environment.plain.registry.Confined ∧
    ∀ i r, (mutualSheets.progress .plain).finished[i]? = some r → ∃ sheet, mutualSheets.sheets[i]? = some sheet ∧
      Tallies (mutualSheets.setting .plain) (mutualSheets.progress .plain) i sheet r := by
  have hreg : Environment.plain.registry.Confined := Registry.confined_builtin
  refine ⟨by decide +kernel, hreg, ?_⟩
  exact (Call.tallies .plain mutualSheets hreg).2.2.2

end Spreadsheet
