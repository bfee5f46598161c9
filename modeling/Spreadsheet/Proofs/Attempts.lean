import Spreadsheet.Proofs.Call
import Spreadsheet.Proofs.Turns

/-!
# The attempts of a call

To resolve a cell, to calculate a sheet and to read from another sheet all proceed: they make attempts only where less
is left to do afterwards. So the attempts of a call are no more than twice the formulas of the sheets that it
calculates, and its loops end.

* `proceeds_resolve`, `proceeds_sheetResult`, `proceeds_sheetValue` : one after the other, for a given reader of the
  next level;
* `thrifty_foreignValue` : the reader of every level, by induction on the levels;
* `Ends` : what it means that a loop ends;
* `Call.attempts_le` : the attempts of a call.
-/

namespace Spreadsheet

open Calculation
open Progress (New Proceeds)
open Relation (ReflTransGen)

variable {w : Setting} {foreign : ForeignReader} {s s' : Progress} {i : Nat}

/-! ## Cells -/

/-- All that turns leave behind. -/
theorem worked_turns (hforeign : Thrifty w foreign) {x y : List Position × Progress}
    (h : ReflTransGen (Turn w foreign) x y) : Worked w x y := by
  induction h with
  | refl => exact .refl w x
  | tail _ hturn ih => exact ih.trans (hturn.worked hforeign).1

theorem proceeds_resolve (hforeign : Thrifty w foreign) (p : Position) (s : Progress) :
    Proceeds w s ((resolve w foreign p).run s).2 := by
  cases hf : w.formula? p with
  | none =>
    rw [resolve_literal hf]
    exact .refl w s
  | some formula =>
    rw [resolve_formula hf]
    split
    · exact .closeCycle w s p formula _
    · rename_i h
      have hp : p ∈ s.started → p ∈ s.values := fun hs => by_contra fun hv => h ⟨hv, hs⟩
      obtain ⟨rest, hturns, -⟩ := settle_turns hforeign w.attemptLimit [p] s
      have hworked := worked_turns hforeign hturns
      have hretries : s.retries w [p] = 0 := by
        unfold Progress.retries
        split
        · rename_i q _ _ hnext
          obtain ⟨-, hv, hsuffix⟩ := Progress.nextPending?_eq_some hnext
          obtain rfl := List.mem_singleton.1 (hsuffix.subset (List.mem_cons_self ..))
          exact if_neg fun hs => hv (hp hs)
        · rfl
      refine ⟨hworked.toVisits, hworked.values, fun q hs hv => ?_, ?_⟩
      · have hq : q ∉ [p] := fun hq => by
          obtain rfl := List.mem_singleton.1 hq
          exact hv (hp hs)
        exact (hworked.waiting q hq hs hv).2
      · have hspent := hworked.spent
        simp only [Progress.demand, hretries] at hspent ⊢
        omega

theorem proceeds_resolveAll (hforeign : Thrifty w foreign) (i : Nat) (places : List (Nat × Nat)) (s : Progress) :
    Proceeds w s ((resolveAll w foreign i places).run s).2 := by
  induction places generalizing s with
  | nil => exact .refl w s
  | cons place places ih => exact (proceeds_resolve hforeign ⟨i, place.1, place.2⟩ s).trans (ih _)

/-! ## Sheets -/

/-- A sheet that is calculated counts as visited from the beginning. -/
theorem proceeds_sheetResult (hforeign : Thrifty w foreign) (hi : i ∉ s.finished) (r : CalculatedSheet) :
    Proceeds w { s with finished := s.finished.insert i r } ((sheetResult w foreign i).run s).2 := by
  have h := proceeds_resolveAll hforeign i (w.sheet i).formulaPlaces { s with active := i :: s.active }
  generalize hs' : ((resolveAll w foreign i (w.sheet i).formulaPlaces).run
    { s with active := i :: s.active }).2 = s' at h
  have hactive : s'.active = i :: s.active := h.active
  -- after the sheet is done, what has been visited is the same as while it was active
  have hvisited : ∀ {s : Progress} {r : CalculatedSheet} {active : List Nat}, s.active = i :: active →
      ∀ j, Progress.Visited { s with active := active, finished := s.finished.insert i r } j ↔ s.Visited j := by
    intro s r active hs j
    simp only [Progress.Visited, hs, Std.TreeMap.mem_insert, Std.compare_eq_iff_eq, List.mem_cons, eq_comm (a := j)]
    tauto
  have hbefore := @hvisited { s with active := i :: s.active } r s.active rfl
  have hafter := @hvisited s' (resultOf w i (s'.otherSheets - s.otherSheets) s') s.active hactive
  rw [sheetResult_new hi hs', hactive, List.erase_cons_head]
  obtain ⟨new, hnew, hcovers⟩ := h.opened
  refine ⟨⟨rfl, new, hnew, ?_, hcovers.once, fun j => ?_⟩, h.values, h.waiting, h.spent⟩
  · exact fun j hj => (hafter j).2 (hcovers.visited j ((hbefore j).1 hj))
  · exact (hcovers.mem j).trans (and_congr (hafter j).symm (not_congr (hbefore j).symm))

theorem Progress.visited_insert (i : Nat) (r : CalculatedSheet) (opened : List (Position × Nat)) (j : Nat) :
    Visited { s with opened, finished := s.finished.insert i r } j ↔ i = j ∨ s.Visited j := by
  simp only [Visited, Std.TreeMap.mem_insert, Std.compare_eq_iff_eq]
  exact or_left_comm

/-- A sheet is opened. -/
theorem Progress.Proceeds.open (reader : Position) (h : ¬s.Visited i) (r : CalculatedSheet) :
    Proceeds w s { s with opened := (reader, i) :: s.opened, finished := s.finished.insert i r } where
  active := rfl
  opened := ⟨[(reader, i)], rfl, .single h (visited_insert i r _)⟩
  values _ hp := hp
  waiting _ hp hv := ⟨hp, hv⟩
  spent := le_rfl

theorem proceeds_sheetValue (hforeign : Thrifty w foreign) (reader : Position) (i row column : Nat) (s : Progress) :
    Proceeds w s ((sheetValue w foreign reader i row column).run s).2 := by
  by_cases ha : i ∈ s.active
  · rw [sheetValue_active ha]
    exact proceeds_resolve hforeign _ s
  · cases hr : s.finished[i]? with
    | some r =>
      rw [sheetValue_finished ha hr]
      exact .refl w s
    | none =>
      have hi : i ∉ s.finished := notMem_of_getElem?_none hr
      rw [sheetValue_new ha hi]
      have hopen := Proceeds.open (w := w) reader (not_or.2 ⟨ha, hi⟩) {}
      exact hopen.trans (proceeds_sheetResult (s := { s with opened := (reader, i) :: s.opened }) hforeign hi {})

/-- The reader of every level proceeds. -/
theorem thrifty_foreignValue (w : Setting) (levels : Nat) : Thrifty w (foreignValue w levels) := by
  induction levels with
  | zero =>
    intro p name row column s
    cases hi : foreignSheet w name with
    | error fault =>
      rw [foreignValue_refused hi]
      exact .refl w s
    | ok i =>
      rw [foreignValue_zero hi]
      exact .refl w s
  | succ levels ih =>
    intro p name row column s
    cases hi : foreignSheet w name with
    | error fault =>
      rw [foreignValue_refused hi]
      exact .refl w s
    | ok i =>
      rw [foreignValue_succ hi]
      exact proceeds_sheetValue ih p i row column s

/-! ## Loops -/

/-- The loop over a work stack comes to an end, whatever it is begun with. -/
structure Ends (w : Setting) (foreign : ForeignReader) : Prop where
  /-- There is no endless sequence of turns. -/
  turns : WellFounded fun y x => Turn w foreign x y
  /-- Turns are taken until nothing is left to do; the limit of attempts is never what ends them. -/
  settles : ∀ stack s, ∃ rest,
    ReflTransGen (Turn w foreign) (stack, s) (rest, ((settle w foreign w.attemptLimit stack).run s).2) ∧
      ((settle w foreign w.attemptLimit stack).run s).2.nextPending? w rest = none
  /-- After an attempt that is given up, the next one is the first at a formula that was never started. -/
  renews : ∀ p formula s missing s', (attempt w foreign p formula).run s = (missing, s') → missing ≠ [] →
    ∀ rest, ∃ q formula' rest', New w s' q ∧
      s'.nextPending? w (missing.reverse ++ p :: rest) = some (q, formula', rest')

theorem Ends.of_thrifty (hforeign : Thrifty w foreign) (hample : w.Ample) : Ends w foreign where
  turns := wellFounded_turn hforeign
  settles stack s := by
    obtain ⟨rest, hturns, hdone⟩ := settle_turns hforeign w.attemptLimit stack s
    exact ⟨rest, hturns, hdone ((s.demand_le w stack).trans hample)⟩
  renews p formula s missing s' hrun hne rest := by
    rcases attempt_cases hforeign.leaves p formula s with ⟨_, _, _, -, hrun'⟩ | ⟨_, _, -, -, hm, hrun'⟩
    · rw [hrun] at hrun'
      cases hrun'
      exact absurd rfl hne
    · rw [hrun] at hrun'
      cases hrun'
      obtain ⟨q, others, hq⟩ := List.exists_cons_of_ne_nil (List.reverse_ne_nil_iff.2 hne)
      have hnew := (hm q (List.mem_reverse.1 (hq ▸ List.mem_cons_self ..))).1
      obtain ⟨formula', hnext⟩ := hnew.nextPending? (others ++ p :: rest)
      exact ⟨q, formula', _, hnew, by rw [hq, List.cons_append, hnext]⟩

/-! ## Calls -/

theorem spent_outermost (w : Setting) (i : Nat) (s : Progress) :
    ((outermost w i).run s).2.attempts + ((outermost w i).run s).2.workload w ≤ s.attempts + s.workload w := by
  unfold outermost
  cases hr : s.finished[i]? with
  | some r => rw [sheetResult_done hr]
  | none =>
    have hi : i ∉ s.finished := notMem_of_getElem?_none hr
    exact (proceeds_sheetResult (thrifty_foreignValue w maxSheetNesting) hi {}).spent

theorem spent_outermost_mapM (w : Setting) (targets : List Nat) (s : Progress) :
    ((targets.mapM (outermost w)).run s).2.attempts + ((targets.mapM (outermost w)).run s).2.workload w
      ≤ s.attempts + s.workload w := by
  induction targets generalizing s with
  | nil => exact le_rfl
  | cons i targets ih =>
    rw [List.mapM_cons]
    exact (ih _).trans (spent_outermost w i s)

namespace Call

variable (env : Environment) (c : Call)

/-- The formulas of the sheets that are calculated. -/
def formulas : Finset Position :=
  {p ∈ (c.setting env).formulas.toFinset | p.sheet ∈ (c.progress env).finished}

/-- The formulas of other sheets are still to be done in the end. -/
theorem card_left_le :
    2 * Finset.card {p ∈ (c.setting env).formulas.toFinset | ¬p.sheet ∈ (c.progress env).finished}
      ≤ (c.progress env).workload (c.setting env) := by
  have huntouched : {p ∈ (c.setting env).formulas.toFinset | ¬p.sheet ∈ (c.progress env).finished}
      ⊆ (c.progress env).untouched (c.setting env) := by
    intro p hp
    obtain ⟨hp, hsheet⟩ := Finset.mem_filter.1 hp
    refine Progress.mem_untouched.2 ⟨List.mem_toFinset.1 hp, fun hval => ?_, c.notMem_started env p⟩
    obtain ⟨r, hr⟩ := c.exists_finished env hval
    exact hsheet (mem_of_getElem?_some hr)
  have hundone : (c.progress env).untouched (c.setting env) ⊆ (c.progress env).undone (c.setting env) := by
    intro p hp
    obtain ⟨hp, hval, -⟩ := Progress.mem_untouched.1 hp
    exact Progress.mem_undone.2 ⟨hp, hval⟩
  have hle := Finset.card_le_card huntouched
  have hle' := Finset.card_le_card hundone
  unfold Progress.workload
  omega

/-- The loops of a call end, however deep its reads of other sheets are nested, and all attempts together are at most
two for each formula of the sheets that are calculated. -/
theorem attempts_le :
    (∀ levels, Ends (c.setting env) (foreignValue (c.setting env) levels)) ∧
    (c.progress env).attempts ≤ 2 * (c.formulas env).card := by
  refine ⟨fun levels => .of_thrifty (thrifty_foreignValue _ levels) (c.ample env), ?_⟩
  have hspent : (c.progress env).attempts + (c.progress env).workload (c.setting env)
      ≤ 0 + Progress.workload (c.setting env) {} := spent_outermost_mapM (c.setting env) c.targets {}
  have hstart : Progress.workload (c.setting env) {} ≤ 2 * (c.setting env).formulas.toFinset.card := by
    have hundone := Finset.card_filter_le (c.setting env).formulas.toFinset (· ∉ ({} : Progress).values)
    have huntouched := Finset.card_filter_le (c.setting env).formulas.toFinset
      fun p => p ∉ ({} : Progress).values ∧ p ∉ ({} : Progress).started
    unfold Progress.workload Progress.undone Progress.untouched
    omega
  have hcard := Finset.card_filter_add_card_filter_not (s := (c.setting env).formulas.toFinset)
    (fun p => p.sheet ∈ (c.progress env).finished)
  have hleft := c.card_left_le env
  unfold formulas
  omega

end Call

/-- A formula that is given up once, and the one that it waits for. -/
def waitingOnce : Call :=
  .sheet ⟨"Sheet1", #[#[{ content := .text "=A2" }], #[{ content := .text "=1" }]]⟩ []

example : (waitingOnce.progress .plain).attempts = 3 := by decide +kernel

end Spreadsheet
