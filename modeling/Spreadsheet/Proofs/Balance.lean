import Spreadsheet.Proofs.Attempts

/-!
# What is restored on return

To resolve a cell and to read from another sheet may start formulas, give up attempts and calculate whole sheets. On
return the formulas that are started and the sheets in the middle of their calculation are those of before, in
whatever state the call is made and however it goes; all else has only grown.

* `Progress.Adds` : what grows with every step;
* `Progress.Balanced` : on return the started formulas are the same again, and those that wait are not done;
* `Outstanding` : what is started between the turns of a work stack; `outstanding_turns` says that all of it is done
  when nothing on the stack is left to do;
* `balanced_resolve`, `balanced_sheetResult`, `balanced_foreignValue` : one after the other, the last by induction on
  the levels.
-/

namespace Spreadsheet

open Calculation
open Progress (New)
open Relation (ReflTransGen)

variable {w : Setting} {foreign : ForeignReader} {s₀ s s' s'' : Progress} {i : Nat} {p : Position}

/-! ## Growth -/

namespace Progress

/-- What only grows. No value that is stored changes, and the sheets that are calculated stay the same. -/
structure Adds (s s' : Progress) : Prop where
  active : s'.active = s.active
  values : ∀ (p : Position) (v : Value), s.values[p]? = some v → s'.values[p]? = some v
  reads : ∀ p ∈ s.values, s'.reads[p]? = s.reads[p]?
  circular : ∀ p ∈ s.circular, p ∈ s'.circular
  records : s.records <:+ s'.records
  errors : s.errors <:+ s'.errors
  finished : ∀ (i : Nat) (r : CalculatedSheet), s.finished[i]? = some r → s'.finished[i]? = some r
  opened : s.opened <:+ s'.opened
  attempts : s.attempts ≤ s'.attempts

namespace Adds

theorem refl (s : Progress) : Adds s s where
  active := rfl
  values _ _ h := h
  reads _ _ := rfl
  circular _ h := h
  records := List.suffix_refl _
  errors := List.suffix_refl _
  finished _ _ h := h
  opened := List.suffix_refl _
  attempts := le_rfl

theorem mem_values (h : Adds s s') (hp : p ∈ s.values) : p ∈ s'.values := by
  obtain ⟨v, hv⟩ := exists_getElem?_of_mem hp
  exact mem_of_getElem?_some (h.values p v hv)

theorem trans (h : Adds s s') (h' : Adds s' s'') : Adds s s'' where
  active := h'.active.trans h.active
  values p v hp := h'.values p v (h.values p v hp)
  reads p hp := (h'.reads p (h.mem_values hp)).trans (h.reads p hp)
  circular p hp := h'.circular p (h.circular p hp)
  records := h.records.trans h'.records
  errors := h.errors.trans h'.errors
  finished i r hi := h'.finished i r (h.finished i r hi)
  opened := h.opened.trans h'.opened
  attempts := h.attempts.trans h'.attempts

theorem begin (s : Progress) (p : Position) : Adds s (s.begin p) :=
  { refl s with attempts := Nat.le_succ _ }

theorem closeCycle (s : Progress) (p : Position) (formula : String) (fault : FormulaError) :
    Adds s (s.closeCycle p formula fault) where
  active := active_closeCycle
  values q v h := by rwa [values_closeCycle]
  reads q _ := by rw [reads_closeCycle]
  circular q h := mem_circular_closeCycle.2 (Or.inr h)
  records := by rw [records_closeCycle]
  errors := by
    unfold Progress.closeCycle
    split
    · exact List.suffix_refl _
    · exact List.suffix_cons ..
  finished i r h := by rwa [finished_closeCycle]
  opened := by rw [opened_closeCycle]
  attempts := by rw [attempts_closeCycle]

/-- A formula without a value gets one. -/
theorem finish (formula : String) (outcome : Except FormulaError Value) (reads : List CellRead) (hp : p ∉ s.values) :
    Adds s (Calculation.finish w p formula outcome reads s) where
  active := active_finish
  values q v h := by
    rw [getElem?_values_finish, if_neg, h]
    rintro rfl
    exact hp (mem_of_getElem?_some h)
  reads q hq := by
    rw [getElem?_reads_finish, if_neg]
    rintro rfl
    exact hp hq
  circular q h := by rwa [circular_finish]
  records := by
    rw [records_finish]
    exact List.suffix_cons ..
  errors := by
    rw [finish_eq]
    cases outcome with
    | ok _ => exact List.suffix_refl _
    | error _ => exact List.suffix_cons ..
  finished i r h := by rwa [finished_finish]
  opened := by rw [opened_finish]
  attempts := by rw [attempts_finish]

end Adds

/-- What is restored on return, and what only grows. -/
structure Balanced (s s' : Progress) : Prop extends Adds s s' where
  started : ∀ p, p ∈ s'.started ↔ p ∈ s.started
  /-- A formula that is started waits for whoever has started it. -/
  waiting : ∀ p ∈ s.started, p ∉ s.values → p ∉ s'.values

namespace Balanced

theorem refl (s : Progress) : Balanced s s where
  toAdds := .refl s
  started _ := Iff.rfl
  waiting _ _ h := h

theorem trans (h : Balanced s s') (h' : Balanced s' s'') : Balanced s s'' where
  toAdds := h.toAdds.trans h'.toAdds
  started p := (h'.started p).trans (h.started p)
  waiting p hs hv := h'.waiting p ((h.started p).2 hs) (h.waiting p hs hv)

theorem closeCycle (s : Progress) (p : Position) (formula : String) (fault : FormulaError) :
    Balanced s (s.closeCycle p formula fault) where
  toAdds := .closeCycle s p formula fault
  started q := by rw [started_closeCycle]
  waiting q _ hv := by rwa [values_closeCycle]

end Balanced

end Progress

open Progress (Adds Balanced)

/-- A reader of other sheets that restores what it finds. -/
def Restoring (foreign : ForeignReader) : Prop :=
  ∀ (p : Position) (name : String) (row column : Nat) (s : Progress),
    Balanced s ((foreign p name row column).run s).2

theorem Restoring.leaves (h : Restoring foreign) : Leaves foreign Balanced where
  refl := .refl
  trans := .trans
  closeCycle := .closeCycle
  foreign := h

/-! ## Work stacks -/

/-- A formula on a stack that is not done is the next one or lies beneath it. -/
theorem Progress.mem_of_nextPending? {stack rest : List Position} {formula : String} {q : Position}
    (h : s.nextPending? w stack = some (p, formula, rest)) (hq : q ∈ stack) (hf : (w.formula? q).isSome)
    (hv : q ∉ s.values) : q = p ∨ q ∈ rest := by
  induction stack with
  | nil => cases h
  | cons top stack ih =>
    rw [nextPending?] at h
    cases ht : s.pending? w top with
    | none =>
      rw [ht] at h
      rcases List.mem_cons.1 hq with rfl | hq
      · rw [pending?, if_neg (by simpa using hv)] at ht
        rw [ht] at hf
        cases hf
      · exact ih h hq
    | some f =>
      rw [ht] at h
      cases h
      exact List.mem_cons.1 hq

theorem Progress.mem_values_of_nextPending? {stack : List Position} (h : s.nextPending? w stack = none)
    (hp : p ∈ stack) (hf : (w.formula? p).isSome) : p ∈ s.values := by
  by_contra hv
  obtain ⟨formula, hf⟩ := Option.isSome_iff_exists.1 hf
  induction stack with
  | nil => cases hp
  | cons top stack ih =>
    rw [nextPending?] at h
    cases ht : s.pending? w top with
    | none =>
      rw [ht] at h
      rcases List.mem_cons.1 hp with rfl | hp
      · rw [pending?, if_neg (by simpa using hv), hf] at ht
        cases ht
      · exact ih h hp
    | some f =>
      rw [ht] at h
      cases h

/-- Between the turns of a stack. What was started at the beginning goes on waiting, and what has been started since
lies on the stack and is not done. -/
structure Outstanding (w : Setting) (s₀ : Progress) (x : List Position × Progress) : Prop extends Adds s₀ x.2 where
  waiting : ∀ p ∈ s₀.started, p ∉ s₀.values → p ∉ x.2.values
  kept : ∀ p ∈ s₀.started, p ∈ x.2.started
  since : ∀ p ∈ x.2.started, p ∉ s₀.started → p ∈ x.1 ∧ (w.formula? p).isSome ∧ p ∉ x.2.values
  unstarted : ∀ p ∈ x.1, (w.formula? p).isSome → p ∉ x.2.values → p ∉ s₀.started

theorem Outstanding.turn (hR : Restoring foreign) {x y : List Position × Progress} (hx : Outstanding w s₀ x)
    (h : Turn w foreign x y) : Outstanding w s₀ y := by
  obtain ⟨stack, s⟩ := x
  obtain ⟨p, formula, rest, hnext, hstop⟩ := h.cases hR.leaves
  obtain ⟨hf, hv, hrest⟩ := Progress.nextPending?_eq_some hnext
  have hf' : (w.formula? p).isSome := by rw [hf]; rfl
  have hp : p ∈ (s.begin p).started := Progress.mem_started_begin.2 (Or.inl rfl)
  have hbegin : ∀ {q}, q ∈ s.started → q ∈ (s.begin p).started := fun hq => Progress.mem_started_begin.2 (Or.inr hq)
  rcases hstop with ⟨outcome, reads, s', hs', rfl⟩ | ⟨missing, s', hs', -, hm, rfl⟩
  · have hp₀ : p ∉ s₀.started := hx.unstarted p (hrest.subset (List.mem_cons_self ..)) hf' hv
    have hne : ∀ {q}, q ∈ s₀.started → p ≠ q := fun hq hpq => hp₀ (hpq ▸ hq)
    have hadds : Adds s (finish w p formula outcome reads s') :=
      ((Adds.begin s p).trans hs'.toAdds).trans (.finish formula outcome reads (hs'.waiting p hp hv))
    have hwaiting : ∀ {q}, p ≠ q → q ∈ s.started → q ∉ s.values →
        q ∉ (finish w p formula outcome reads s').values := fun hpq hqs hqv h =>
      (Progress.mem_values_finish.1 h).elim hpq (hs'.waiting _ (hbegin hqs) hqv)
    refine ⟨hx.toAdds.trans hadds, fun q hq hqv => ?_, fun q hq => ?_, fun q hq hq₀ => ?_, fun q hq hqf hqv => ?_⟩
    · exact hwaiting (hne hq) (hx.kept q hq) (hx.waiting q hq hqv)
    · rw [Progress.mem_started_finish, hs'.started]
      exact ⟨hne hq, hbegin (hx.kept q hq)⟩
    · rw [Progress.mem_started_finish, hs'.started, Progress.mem_started_begin] at hq
      have hqs := hq.2.resolve_left hq.1
      obtain ⟨hstack, hqf, hqv⟩ := hx.since q hqs hq₀
      have hqrest := (Progress.mem_of_nextPending? hnext hstack hqf hqv).resolve_left (Ne.symm hq.1)
      exact ⟨hqrest, hqf, hwaiting hq.1 hqs hqv⟩
    · exact hx.unstarted q (hrest.subset (List.mem_cons_of_mem p hq)) hqf fun h => hqv (hadds.mem_values h)
  · have hadds : Adds s s' := (Adds.begin s p).trans hs'.toAdds
    have hkept : ∀ q ∈ s₀.started, q ∈ s'.started := fun q hq => (hs'.started q).2 (hbegin (hx.kept q hq))
    refine ⟨hx.toAdds.trans hadds, fun q hq hqv => ?_, hkept, fun q hq hq₀ => ?_, fun q hq hqf hqv => ?_⟩
    · exact hs'.waiting q (hbegin (hx.kept q hq)) (hx.waiting q hq hqv)
    · rw [hs'.started, Progress.mem_started_begin] at hq
      rcases hq with rfl | hq
      · exact ⟨List.mem_append_right _ (List.mem_cons_self ..), hf', hs'.waiting p hp hv⟩
      · obtain ⟨hstack, hqf, hqv⟩ := hx.since q hq hq₀
        have hqrest := Progress.mem_of_nextPending? hnext hstack hqf hqv
        exact ⟨List.mem_append_right _ (List.mem_cons.2 hqrest), hqf, hs'.waiting q (hbegin hq) hqv⟩
    · rcases List.mem_append.1 hq with hq | hq
      -- what was started at the beginning is still started, so it is not waited for
      · exact fun hq₀ => (hm q (List.mem_reverse.1 hq)).1.unstarted (hkept q hq₀)
      · exact hx.unstarted q (hrest.subset hq) hqf fun h => hqv (hadds.mem_values h)

theorem outstanding_turns (hR : Restoring foreign) {x y : List Position × Progress} (hx : Outstanding w s₀ x)
    (h : ReflTransGen (Turn w foreign) x y) : Outstanding w s₀ y := by
  induction h with
  | refl => exact hx
  | tail _ hturn ih => exact ih.turn hR hturn

/-- When nothing on the stack is left to do, nothing is started that was not started before. -/
theorem Outstanding.balanced {stack : List Position} (h : Outstanding w s₀ (stack, s))
    (hdone : s.nextPending? w stack = none) : Balanced s₀ s where
  toAdds := h.toAdds
  started p := by
    refine ⟨fun hp => by_contra fun hp₀ => ?_, h.kept p⟩
    obtain ⟨hstack, hf, hv⟩ := h.since p hp hp₀
    exact hv (Progress.mem_values_of_nextPending? hdone hstack hf)
  waiting := h.waiting

/-! ## Cells -/

theorem balanced_resolve (hends : Ends w foreign) (hR : Restoring foreign) (p : Position) (s : Progress) :
    Balanced s ((resolve w foreign p).run s).2 := by
  cases hf : w.formula? p with
  | none =>
    rw [resolve_literal hf]
    exact .refl s
  | some formula =>
    rw [resolve_formula hf]
    split
    · exact .closeCycle s p formula _
    · rename_i h
      obtain ⟨rest, hturns, hdone⟩ := hends.settles [p] s
      have hstart : Outstanding w s ([p], s) := by
        refine ⟨.refl s, fun _ _ hv => hv, fun _ hq => hq, fun q hq hq₀ => absurd hq hq₀, fun q hq _ hv hs => ?_⟩
        obtain rfl := List.mem_singleton.1 hq
        exact h ⟨hv, hs⟩
      exact (outstanding_turns hR hstart hturns).balanced hdone

theorem balanced_resolveAll (hends : Ends w foreign) (hR : Restoring foreign) (i : Nat) (places : List (Nat × Nat))
    (s : Progress) : Balanced s ((resolveAll w foreign i places).run s).2 := by
  induction places generalizing s with
  | nil => exact .refl s
  | cons place places ih => exact (balanced_resolve hends hR ⟨i, place.1, place.2⟩ s).trans (ih _)

/-! ## Sheets -/

theorem balanced_sheetResult (hends : Ends w foreign) (hR : Restoring foreign) (i : Nat) (s : Progress) :
    Balanced s ((sheetResult w foreign i).run s).2 := by
  cases hr : s.finished[i]? with
  | some r =>
    rw [sheetResult_done hr]
    exact .refl s
  | none =>
    have hi : i ∉ s.finished := notMem_of_getElem?_none hr
    have h := balanced_resolveAll hends hR i (w.sheet i).formulaPlaces { s with active := i :: s.active }
    generalize hs' : ((resolveAll w foreign i (w.sheet i).formulaPlaces).run
      { s with active := i :: s.active }).2 = s' at h
    rw [sheetResult_new hi hs']
    have hactive : s'.active = i :: s.active := h.active
    exact
      { h with
        active := by rw [hactive, List.erase_cons_head]
        finished := fun j r' hj => by
          rw [Std.TreeMap.getElem?_insert, if_neg]
          · exact h.finished j r' hj
          · rw [Std.compare_eq_iff_eq]
            rintro rfl
            exact hi (mem_of_getElem?_some hj) }

theorem balanced_sheetValue (hends : Ends w foreign) (hR : Restoring foreign) (reader : Position)
    (i row column : Nat) (s : Progress) : Balanced s ((sheetValue w foreign reader i row column).run s).2 := by
  by_cases ha : i ∈ s.active
  · rw [sheetValue_active ha]
    exact balanced_resolve hends hR _ s
  · cases hr : s.finished[i]? with
    | some r =>
      rw [sheetValue_finished ha hr]
      exact .refl s
    | none =>
      rw [sheetValue_new ha (notMem_of_getElem?_none hr)]
      have hopen : Balanced s { s with opened := (reader, i) :: s.opened } :=
        { Balanced.refl s with opened := List.suffix_cons .. }
      exact hopen.trans (balanced_sheetResult hends hR i _)

/-- The reader of every level restores what it finds. -/
theorem restoring_foreignValue (hample : w.Ample) (levels : Nat) : Restoring (foreignValue w levels) := by
  induction levels with
  | zero =>
    intro p name row column s
    cases hi : foreignSheet w name with
    | error fault =>
      rw [foreignValue_refused hi]
      exact .refl s
    | ok i =>
      rw [foreignValue_zero hi]
      exact .refl s
  | succ levels ih =>
    intro p name row column s
    cases hi : foreignSheet w name with
    | error fault =>
      rw [foreignValue_refused hi]
      exact .refl s
    | ok i =>
      rw [foreignValue_succ hi]
      exact balanced_sheetValue (.of_thrifty (thrifty_foreignValue w levels) hample) ih p i row column s

end Spreadsheet
