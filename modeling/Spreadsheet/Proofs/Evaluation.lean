import Spreadsheet.Proofs.Machine
import Spreadsheet.Proofs.Places

/-!
# Evaluations as moves

An evaluation on behalf of the innermost formula either comes to an end, and then its questions can be replayed
from what is known by then, or it is given up for formulas that it is going to read in any case.

* `Ready` : a formula that may be put on the stack;
* `Evaluated` : what has happened when an evaluation stops;
* `Sound` : what is asked of a reader of other sheets;
* `evaluated_cell`, `evaluated_announce`, `evaluated_reading` : a question, a range that is announced, and by
  induction a whole computation;
* `attempted` : one attempt at a formula.
-/

namespace Spreadsheet

open Calculation
open Progress (Bound Learns answer? known?)

/-- A formula that may be put on the stack as soon as it is not done. -/
structure Ready (w : Setting) (s : Progress) (frames : List Frame) (p : Position) : Prop where
  isFormula : (w.formula? p).isSome
  unstarted : p ∉ s.started
  active : p.sheet ∈ s.active
  leads : Leads w s frames p

/-! ## Steps of the calculation -/

/-- What comes out of a computation that reads for a formula, with its reads before those in `reads`. -/
abbrev evaluation {α : Type} (x : StateT (List CellRead) Attempt α) (reads : List CellRead) (s : Progress) :
    Except (List Position) (α × List CellRead) × Progress :=
  (x.run reads).run.run s

section Steps

variable {w : Setting} {foreign : ForeignReader} {p : Position} {formula : String} {a : Address}

theorem evaluation_bind {α β : Type} (x : StateT (List CellRead) Attempt α)
    (f : α → StateT (List CellRead) Attempt β) (reads : List CellRead) (s : Progress) :
    evaluation (x >>= f) reads s = match evaluation x reads s with
      | (.error missing, s') => (.error missing, s')
      | (.ok (a, reads'), s') => evaluation (f a) reads' s' := by
  simp only [evaluation, StateT.run_bind, ExceptT.run_bind]
  rcases StateT.run (ExceptT.run (StateT.run x reads)) s with ⟨_ | ⟨a, reads'⟩, s'⟩ <;> rfl

theorem evaluation_lift {α : Type} (x : Attempt α) (reads : List CellRead) (s : Progress) :
    evaluation (x : StateT (List CellRead) Attempt α) reads s = match x.run.run s with
      | (.error missing, s') => (.error missing, s')
      | (.ok a, s') => (.ok (a, reads), s') := by
  have h : evaluation (x : StateT (List CellRead) Attempt α) reads s
      = ((x >>= fun a => pure (a, reads) : Attempt (α × List CellRead))).run.run s := rfl
  rw [h, ExceptT.run_bind, StateT.run_bind]
  rcases StateT.run (ExceptT.run x) s with ⟨_ | a, s'⟩ <;> rfl

theorem evaluation_noting (src : CellSource Attempt) (a : Address) (reads : List CellRead) (s : Progress) :
    evaluation (src.noting.cell a) reads s = match (src.cell a).run.run s with
      | (.error missing, s') => (.error missing, s')
      | (.ok answer, s') => (.ok (answer, ⟨a, answer⟩ :: reads), s') := by
  have h : evaluation (src.noting.cell a) reads s
      = evaluation ((src.cell a : StateT (List CellRead) Attempt Answer) >>= fun answer => do
          modify (⟨a, answer⟩ :: ·)
          return answer) reads s := rfl
  rw [h, evaluation_bind, evaluation_lift]
  rcases StateT.run (ExceptT.run (src.cell a)) s with ⟨_ | answer, s'⟩ <;> rfl

theorem readOwn_literal (h : w.formula? p = none) (s : Progress) :
    (readOwn w p).run.run s = (.ok (w.literal p), s) := by
  unfold readOwn Setting.literal
  unfold Setting.formula? at h
  cases hc : w.cell? p with
  | none => rfl
  | some c =>
    rw [hc, Option.bind_some] at h
    simp only [h]
    rfl

theorem readOwn_formula (h : w.formula? p = some formula) (s : Progress) :
    (readOwn w p).run.run s = match s.values[p]? with
      | some v => (.ok v, s)
      | none =>
        if p ∈ s.started then (.ok w.cycleValue, s.closeCycle p formula (cycleFault w p))
        else (.error [p], s) := by
  obtain ⟨c, hc, hcf⟩ := Option.bind_eq_some_iff.1 h
  have hread : (readOwn w p).run.run s = (ExceptT.run (match s.values[p]? with
      | some v => pure v
      | none =>
        if s.started.contains p then (readStarted w p formula : Attempt Value) else throw [p])).run s := by
    simp only [readOwn, hc, hcf]
    rfl
  rw [hread]
  cases s.values[p]? with
  | some v => rfl
  | none =>
    by_cases hs : p ∈ s.started
    · simp only [Std.TreeSet.contains_iff_mem, if_pos hs]
      rfl
    · simp only [Std.TreeSet.contains_iff_mem, if_neg hs]
      rfl

theorem source_own (h : w.isOwn p.sheet a.sheet) (s : Progress) :
    ((source w foreign p).cell a).run.run s = match (readOwn w ⟨p.sheet, a.row, a.column⟩).run.run s with
      | (.error missing, s') => (.error missing, s')
      | (.ok v, s') => (.ok (.ok v), s') := by
  have hcell : (source w foreign p).cell a = .ok <$> readOwn w ⟨p.sheet, a.row, a.column⟩ := by
    cases hs : a.sheet with
    | none => simp only [source, hs]
    | some name =>
      rw [hs] at h
      simp only [source, hs]
      exact if_pos h
  rw [hcell, ExceptT.run_map, StateT.run_map]
  rcases (readOwn w ⟨p.sheet, a.row, a.column⟩).run.run s with ⟨_ | v, s'⟩ <;> rfl

theorem source_foreign {name : String} (hn : a.sheet = some name)
    (h : sameSheet name (w.sheet p.sheet).name = false) (s : Progress) :
    ((source w foreign p).cell a).run.run s
      = (.ok ((foreign p name a.row a.column).run s).1, ((foreign p name a.row a.column).run s).2) := by
  simp only [source, hn, h]
  rfl

theorem evaluation_announce (r : CellRange) (reads : List CellRead) (s : Progress) :
    evaluation ((source w foreign p).noting.announce r) reads s
      = if w.isOwn p.sheet r.sheet ∧ s.unstartedIn w p.sheet r ≠ [] then
          (.error (s.unstartedIn w p.sheet r), s)
        else (.ok ((), reads), s) := by
  have h : evaluation ((source w foreign p).noting.announce r) reads s
      = evaluation ((source w foreign p).announce r : StateT (List CellRead) Attempt Unit) reads s := rfl
  rw [h, evaluation_lift]
  by_cases ho : w.isOwn p.sheet r.sheet
  · have hrun : ((source w foreign p).announce r).run.run s
        = ExceptT.run (if (s.unstartedIn w p.sheet r).isEmpty then (pure () : Attempt Unit)
            else throw (s.unstartedIn w p.sheet r)) s := by
      simp only [source, ho]
      rfl
    rw [hrun]
    by_cases hm : s.unstartedIn w p.sheet r = []
    · have hc : ¬(w.isOwn p.sheet r.sheet ∧ s.unstartedIn w p.sheet r ≠ []) := fun h => h.2 hm
      rw [if_neg hc, if_pos (List.isEmpty_iff.2 hm)]
      rfl
    · have hc : w.isOwn p.sheet r.sheet ∧ s.unstartedIn w p.sheet r ≠ [] := ⟨ho, hm⟩
      rw [if_pos hc, if_neg (fun h => hm (List.isEmpty_iff.1 h))]
      rfl
  · rw [if_neg (fun h => ho h.1)]
    have hrun : ((source w foreign p).announce r).run.run s = (.ok (), s) := by
      simp only [source, ho]
      rfl
    rw [hrun]

end Steps

/-! ## Whole evaluations -/

/-- What a part of an evaluation is going to ask, the formula asks. -/
def Pursues {α : Type} (w : Setting) (levels : Nat) (s : Progress) (p : Position) (t : Inquiry α) : Prop :=
  ∃ formula, w.formula? p = some formula ∧ ∀ s' a, Learns w s s' →
    t.Asks (answer? w levels s' p.sheet) a → (w.inquiry p formula).Asks (answer? w levels s' p.sheet) a

/-- What has happened when an evaluation stops. -/
inductive Evaluated {α : Type} (w : Setting) (levels : Nat) (p : Position) (frames : List Frame)
    (t : Inquiry α) (reads : List CellRead) (s : Progress) :
    Except (List Position) (α × List CellRead) × Progress → Prop where
  /-- It came to an end. -/
  | done {result : α} {reads' : List CellRead} {s' : Progress}
      (hrun : Runs w ⟨s, .formula p levels :: frames⟩ ⟨s', .formula p levels :: frames⟩)
      (hr : t.replay (answer? w levels s' p.sheet) reads = some (result, reads')) :
      Evaluated w levels p frames t reads s (.ok (result, reads'), s')
  /-- It was given up. -/
  | waits {missing : List Position} {s' : Progress}
      (hrun : Runs w ⟨s, .formula p levels :: frames⟩ ⟨s', .formula p levels :: frames⟩)
      (hne : missing ≠ [])
      (hm : ∀ q ∈ missing, q ∉ s'.values ∧ Ready w s' (.formula p levels :: frames) q) :
      Evaluated w levels p frames t reads s (.error missing, s')

/-- A reader answers for the innermost formula as is known afterwards. -/
def Sound (w : Setting) (levels : Nat) (foreign : ForeignReader) : Prop :=
  ∀ {s : Progress} {frames : List Frame} {p : Position} {name : String} {a : Address},
    Machine.Valid w ⟨s, .formula p levels :: frames⟩ → a.sheet = some name →
    sameSheet name (w.sheet p.sheet).name = false →
    (∀ i, w.access levels p.sheet a.sheet = .ok i → Bound w levels s p ⟨i, a.row, a.column⟩) →
    Runs w ⟨s, .formula p levels :: frames⟩
        ⟨((foreign p name a.row a.column).run s).2, .formula p levels :: frames⟩ ∧
      answer? w levels ((foreign p name a.row a.column).run s).2 p.sheet a
        = some ((foreign p name a.row a.column).run s).1

section Evaluated

variable {α β : Type} {w : Setting} {levels : Nat} {foreign : ForeignReader} {s s' : Progress}
  {frames : List Frame} {p : Position} {reads : List CellRead}

theorem Pursues.learns {t : Inquiry α} (h : Pursues w levels s p t) (hl : Learns w s s') :
    Pursues w levels s' p t := by
  obtain ⟨formula, hf, ht⟩ := h
  exact ⟨formula, hf, fun s'' a hl' ha => ht s'' a (hl.trans hl') ha⟩

theorem Pursues.first {t : Inquiry α} {f : α → Inquiry β} (h : Pursues w levels s p (t.bind f)) :
    Pursues w levels s p t := by
  obtain ⟨formula, hf, ht⟩ := h
  exact ⟨formula, hf, fun s'' a hl ha => ht s'' a hl (ha.bind f)⟩

theorem Pursues.rest {t : Inquiry α} {f : α → Inquiry β} {result : α} {reads' : List CellRead}
    (h : Pursues w levels s p (t.bind f))
    (hr : t.replay (answer? w levels s p.sheet) reads = some (result, reads')) :
    Pursues w levels s p (f result) := by
  obtain ⟨formula, hf, ht⟩ := h
  refine ⟨formula, hf, fun s'' a hl ha => ht s'' a hl ?_⟩
  exact Inquiry.Asks.of_replay (Inquiry.replay_mono (fun _ _ => hl.answer) hr) ha

/-- What is asked is going to be read. -/
theorem Pursues.bound {t : Inquiry α} {a : Address} {i : Nat} (h : Pursues w levels s p t)
    (ha : t.Asks (answer? w levels s p.sheet) a) (hi : w.access levels p.sheet a.sheet = .ok i) :
    Bound w levels s p ⟨i, a.row, a.column⟩ := by
  obtain ⟨formula, hf, ht⟩ := h
  exact ⟨formula, a, i, hf, ht s a (Learns.refl w s) ha, hi, rfl⟩

/-- One evaluation after another. -/
theorem Evaluated.bind {t : Inquiry α} {f : α → Inquiry β} {x : StateT (List CellRead) Attempt α}
    {g : α → StateT (List CellRead) Attempt β}
    (hv : Machine.Valid w ⟨s, .formula p levels :: frames⟩) (hp : Pursues w levels s p (t.bind f))
    (ht : Evaluated w levels p frames t reads s (evaluation x reads s))
    (hf : ∀ result reads' s', Machine.Valid w ⟨s', .formula p levels :: frames⟩ →
      Pursues w levels s' p (f result) →
      Evaluated w levels p frames (f result) reads' s' (evaluation (g result) reads' s')) :
    Evaluated w levels p frames (t.bind f) reads s (evaluation (x >>= g) reads s) := by
  rw [evaluation_bind]
  generalize evaluation x reads s = outcome at ht
  cases ht with
  | waits hrun hne hm => exact .waits hrun hne hm
  | @done result reads' s' hrun hr =>
    have hv' := hv.run hrun
    have hp' := (hp.learns (hrun.learns hv)).rest hr
    have hrest := hf result reads' s' hv' hp'
    simp only
    generalize evaluation (g result) reads' s' = outcome at hrest
    cases hrest with
    | waits hrun' hne hm => exact .waits (hrun.trans hrun') hne hm
    | @done result' reads'' s'' hrun' hr' =>
      refine .done (hrun.trans hrun') ?_
      rw [Inquiry.replay_bind, Inquiry.replay_mono (fun _ _ => (hrun'.learns hv').answer) hr]
      exact hr'

theorem Evaluated.answer {a : Address} {answer : Answer}
    (hrun : Runs w ⟨s, .formula p levels :: frames⟩ ⟨s', .formula p levels :: frames⟩)
    (ha : answer? w levels s' p.sheet a = some answer) :
    Evaluated w levels p frames (.cell a .done) reads s (.ok (answer, ⟨a, answer⟩ :: reads), s') :=
  .done hrun (Inquiry.replay_cell_eq_some.2 ⟨answer, ha, rfl⟩)

/-- A formula on the same sheet has its value, or is started, or is to be waited for. -/
theorem evaluated_own {a : Address} (hv : Machine.Valid w ⟨s, .formula p levels :: frames⟩)
    (ho : w.isOwn p.sheet a.sheet) (hb : Bound w levels s p ⟨p.sheet, a.row, a.column⟩) :
    Evaluated w levels p frames (.cell a .done) reads s
      (evaluation ((source w foreign p).noting.cell a) reads s) := by
  have hactive : p.sheet ∈ s.active := hv.mem_active hv.mem_started
  generalize hq : (⟨p.sheet, a.row, a.column⟩ : Position) = q at hb
  have hknown : ∀ {s' : Progress} {v : Value}, s'.active = s.active → known? w s' q = some v →
      answer? w levels s' p.sheet a = some (.ok v) := by
    intro s' v hs' h
    rw [Progress.answer?_of_access (Setting.access_own ho) (Or.inl (hs' ▸ hactive)), hq, h]
    rfl
  rw [evaluation_noting, source_own ho, hq]
  cases hf : w.formula? q with
  | none =>
    rw [readOwn_literal hf]
    exact .answer .refl (hknown rfl (Progress.known?_literal hf))
  | some formula =>
    rw [readOwn_formula hf]
    cases hval : s.values[q]? with
    | some v => exact .answer .refl (hknown rfl (Progress.known?_done hf hval))
    | none =>
      by_cases hs : q ∈ s.started
      · simp only [if_pos hs]
        refine .answer (.single (.close hf hs hb))
          (hknown Progress.active_closeCycle (Progress.known?_circular hf ?_ ?_))
        · rw [Progress.values_closeCycle, hval]
        · exact Progress.mem_circular_closeCycle.2 (Or.inl rfl)
      · simp only [if_neg hs]
        refine .waits .refl (List.cons_ne_nil _ _) fun r hr => ?_
        rw [List.mem_singleton.1 hr]
        refine ⟨notMem_of_getElem?_none hval, by rw [hf]; rfl, hs, ?_, hb⟩
        rw [← hq]
        exact hactive

/-- A question is answered, or it is about a formula that is not started. -/
theorem evaluated_cell {a : Address} {next : Answer → Inquiry α} (hforeign : Sound w levels foreign)
    (hv : Machine.Valid w ⟨s, .formula p levels :: frames⟩) (hp : Pursues w levels s p (.cell a next)) :
    Evaluated w levels p frames (.cell a .done) reads s
      (evaluation ((source w foreign p).noting.cell a) reads s) := by
  by_cases ho : w.isOwn p.sheet a.sheet
  · exact evaluated_own hv ho (hp.bound (Or.inl rfl) (Setting.access_own ho))
  · cases hn : a.sheet with
    | none =>
      rw [hn] at ho
      exact absurd rfl ho
    | some name =>
      have hs : sameSheet name (w.sheet p.sheet).name = false := by simpa [hn, Setting.isOwn] using ho
      rw [evaluation_noting, source_foreign hn hs]
      obtain ⟨hrun, ha⟩ := hforeign hv hn hs fun i hi => hp.bound (Or.inl rfl) hi
      exact .answer hrun ha

theorem evaluated_inquiry (hforeign : Sound w levels foreign) (t : Inquiry α) :
    ∀ {reads : List CellRead} {s : Progress}, Machine.Valid w ⟨s, .formula p levels :: frames⟩ →
      Pursues w levels s p t →
      Evaluated w levels p frames t reads s (evaluation (t.run (source w foreign p).noting.cell) reads s) := by
  induction t with
  | done a => exact fun _ _ => .done .refl rfl
  | cell a next ih =>
    intro reads s hv hp
    rw [Inquiry.run]
    exact Evaluated.bind (t := .cell a .done) (f := next) hv hp (evaluated_cell hforeign hv hp)
      fun answer _ _ => ih answer

/-- No cell of a formula's own sheet is answered with a failure. -/
theorem readable_own {sheet : Option String} (ho : w.isOwn p.sheet sheet) :
    Inquiry.Readable (answer? w levels s p.sheet) sheet := by
  rintro a answer rfl (h | ⟨-, h⟩)
  · rcases Progress.answer?_eq_some.1 h with ⟨fault, hfault, -⟩ | ⟨-, v, -, -, -, rfl⟩
    · rw [Setting.access_own ho] at hfault
      cases hfault
    · exact ⟨v, rfl⟩
  · exact h

/-- The formulas of a range that are not started are all going to be read. -/
theorem evaluated_announce {r : CellRange} {next : Except FormulaError Grid → Inquiry α}
    (hv : Machine.Valid w ⟨s, .formula p levels :: frames⟩)
    (hp : Pursues w levels s p ((Inquiry.grid (w.extent? p.sheet) r).bind next)) :
    Evaluated w levels p frames (.done ()) reads s
      (evaluation ((source w foreign p).noting.announce r) reads s) := by
  rw [evaluation_announce]
  split
  · rename_i h
    obtain ⟨ho, hne⟩ := h
    refine .waits .refl hne fun q hq => ?_
    obtain ⟨hsheet, hf, hval, hs, hr⟩ := Progress.mem_unstartedIn hq
    obtain ⟨c, hc, -⟩ := Setting.isSome_formula?.1 hf
    refine ⟨hval, hf, hs, by rw [hsheet]; exact hv.mem_active hv.mem_started, ?_⟩
    have hextent : (w.extent? p.sheet r.sheet).all fun e => e.holds q.row q.column := by
      rw [Setting.extent?_own ho, Option.all_some, ← hsheet]
      exact Sheet.holds_extent hc
    have hb := hp.bound ((Inquiry.grid_asks (readable_own ho) hr hextent).bind next) (Setting.access_own ho)
    rwa [← hsheet] at hb
  · exact .done .refl rfl

/-- The questions of a computation are put one after the other. -/
theorem evaluated_reading (hforeign : Sound w levels foreign) (t : Reading α) :
    ∀ {reads : List CellRead} {s : Progress}, Machine.Valid w ⟨s, .formula p levels :: frames⟩ →
      Pursues w levels s p (t.cells (w.extent? p.sheet)) →
      Evaluated w levels p frames (t.cells (w.extent? p.sheet)) reads s
        (evaluation (t.run (source w foreign p).noting) reads s) := by
  induction t with
  | done a => exact fun _ _ => .done .refl rfl
  | cell a next ih =>
    intro reads s hv hp
    exact Evaluated.bind (t := .cell a .done) (f := fun answer => (next answer).cells (w.extent? p.sheet)) hv hp
      (evaluated_cell hforeign hv hp) fun answer _ _ => ih answer
  | extent sheet next ih => exact ih (w.extent? p.sheet sheet)
  | grid r next ih =>
    intro reads s hv hp
    have hgrid : ∀ {reads : List CellRead} {s : Progress}, Machine.Valid w ⟨s, .formula p levels :: frames⟩ →
        Pursues w levels s p ((Reading.grid r next).cells (w.extent? p.sheet)) →
        Evaluated w levels p frames (Inquiry.grid (w.extent? p.sheet) r) reads s
          (evaluation ((source w foreign p).noting.grid r) reads s) := by
      intro reads s hv hp
      rw [Inquiry.run_grid]
      exact Evaluated.bind (t := .done ()) (f := fun _ => Inquiry.grid (w.extent? p.sheet) r) hv hp.first
        (evaluated_announce hv hp) fun _ _ _ => evaluated_inquiry hforeign _
    exact Evaluated.bind hv hp (hgrid hv hp) fun answer _ _ => ih answer

end Evaluated

/-! ## Attempts -/

/-- What has happened when an attempt at a formula that is started stops. -/
inductive Attempted (w : Setting) (levels : Nat) (p : Position) (frames : List Frame) (s : Progress) :
    List Position × Progress → Prop where
  /-- It has its value. -/
  | done {s' : Progress} (hrun : Runs w ⟨s, .formula p levels :: frames⟩ ⟨s', frames⟩)
      (hp : p ∈ s'.values) :
      Attempted w levels p frames s ([], s')
  /-- It has to wait. -/
  | waits {missing : List Position} {s' : Progress}
      (hrun : Runs w ⟨s, .formula p levels :: frames⟩ ⟨s', .formula p levels :: frames⟩)
      (hne : missing ≠ [])
      (hm : ∀ q ∈ missing, q ∉ s'.values ∧ Ready w s' (.formula p levels :: frames) q) :
      Attempted w levels p frames s (missing, s')

theorem attempt_run (w : Setting) (foreign : ForeignReader) (p : Position) (formula : String) (s : Progress) :
    (attempt w foreign p formula).run s
      = match evaluation ((evaluateFormula w.environment formula).run.run (source w foreign p).noting) []
          (s.begin p) with
        | (.error missing, s') => (missing, s')
        | (.ok (outcome, reads), s') => ([], finish w p formula outcome reads s') := by
  unfold attempt
  generalize (evaluateFormula w.environment formula).run = t
  simp only [evaluation, StateT.run_bind, StateT.run_modify, pure_bind]
  rcases (StateT.run (t.run (source w foreign p).noting) []).run.run (s.begin p) with ⟨_ | _, s'⟩ <;> rfl

theorem attempted {w : Setting} {levels : Nat} {foreign : ForeignReader} {s : Progress} {frames : List Frame}
    {p : Position} {formula : String} (hforeign : Sound w levels foreign) (hf : w.formula? p = some formula)
    (hv : Machine.Valid w ⟨s.begin p, .formula p levels :: frames⟩) :
    Attempted w levels p frames (s.begin p) ((attempt w foreign p formula).run s) := by
  have hinquiry : (evaluateFormula w.environment formula).run.cells (w.extent? p.sheet)
      = w.inquiry p formula := by rw [Setting.inquiry]
  have hp : Pursues w levels (s.begin p) p
      ((evaluateFormula w.environment formula).run.cells (w.extent? p.sheet)) := by
    rw [hinquiry]
    exact ⟨formula, hf, fun _ _ _ ha => ha⟩
  have h := @evaluated_reading _ _ _ _ _ _ hforeign (evaluateFormula w.environment formula).run [] _ hv hp
  rw [attempt_run]
  rw [hinquiry] at h
  generalize evaluation _ _ (s.begin p) = outcome at h
  cases h with
  | waits hrun hne hm => exact .waits hrun hne hm
  | done hrun hr =>
    exact .done (hrun.tail (.finish hf hr)) (Progress.mem_values_finish.2 (Or.inl rfl))

end Spreadsheet
