import Spreadsheet.Proofs.Sheets

/-!
# The work stack turn by turn

A turn evaluates the first formula of a stack that is not done. If the evaluation is given up, what it waits for lies
on top afterwards, and the first of that was never started. So in every turn a formula gets its value or the turn
after it begins a new one, and this in whatever state the work is taken up.

* `Proceeds` : what a whole computation leaves behind, from any state whatever;
* `attempt_cases` : how an attempt stops, with what its steps leave behind;
* `Turn` : one turn; `Turn.cases` says what it does, `Turn.worked` that the work gets less, `wellFounded_turn` that
  it ends;
* `settle_turns` : to settle a stack is to take turns until nothing is left to do;
* `settle_eq_of_le` : more attempts than are needed change nothing.
-/

namespace Spreadsheet

open Calculation
open Relation (ReflTransGen)

/-! ## What happens in the meantime -/

namespace Progress

variable {w : Setting} {s s' s'' : Progress} {p : Position}

/-- A formula that was never started. -/
structure New (w : Setting) (s : Progress) (p : Position) : Prop where
  isFormula : (w.formula? p).isSome
  undone : p ∉ s.values
  unstarted : p ∉ s.started

/-- The sheets that are visited in the meantime are these, each once. -/
structure Covers (passes : List Nat) (s s' : Progress) : Prop where
  visited : ∀ i, s.Visited i → s'.Visited i
  once : passes.Nodup
  mem : ∀ i, i ∈ passes ↔ s'.Visited i ∧ ¬s.Visited i

theorem Covers.of_iff (h : ∀ i, s'.Visited i ↔ s.Visited i) : Covers [] s s' where
  visited i hi := (h i).2 hi
  once := List.nodup_nil
  mem i := by simp [h]

theorem Covers.trans {passes passes' : List Nat} (h : Covers passes s s') (h' : Covers passes' s' s'') :
    Covers (passes' ++ passes) s s'' where
  visited i hi := h'.visited i (h.visited i hi)
  once := h'.once.append h.once fun i hi' hi => ((h'.mem i).1 hi').2 ((h.mem i).1 hi).1
  mem i := by
    rw [List.mem_append, h.mem, h'.mem]
    constructor
    · rintro (⟨hi, hi'⟩ | ⟨hi, hi'⟩)
      · exact ⟨hi, fun hs => hi' (h.visited i hs)⟩
      · exact ⟨h'.visited i hi, hi'⟩
    · rintro ⟨hi, hi'⟩
      by_cases hs : s'.Visited i
      · exact Or.inr ⟨hs, hi'⟩
      · exact Or.inl ⟨hi, hs⟩

theorem Covers.single {i : Nat} (h : ¬s.Visited i) (hs : ∀ j, s'.Visited j ↔ i = j ∨ s.Visited j) :
    Covers [i] s s' where
  visited j hj := (hs j).2 (Or.inr hj)
  once := List.nodup_singleton i
  mem j := by
    rw [List.mem_singleton, hs]
    constructor
    · rintro rfl
      exact ⟨Or.inl rfl, h⟩
    · rintro ⟨hj, hj'⟩
      exact (hj.resolve_right hj').symm

/-- The sheets that are visited in the meantime are those that are opened. -/
structure Visits (s s' : Progress) : Prop where
  active : s'.active = s.active
  opened : ∃ new, s'.opened = new ++ s.opened ∧ Covers (new.map Prod.snd) s s'

theorem Visits.of_eq (ha : s'.active = s.active) (hf : s'.finished = s.finished) (ho : s'.opened = s.opened) :
    Visits s s' :=
  ⟨ha, [], ho, .of_iff fun i => by rw [Visited, Visited, ha, hf]⟩

theorem Visits.begin (s : Progress) (p : Position) : Visits s (s.begin p) := .of_eq rfl rfl rfl

theorem Visits.finish (w : Setting) (s : Progress) (p : Position) (formula : String)
    (outcome : Except FormulaError Value) (reads : List CellRead) :
    Visits s (Calculation.finish w p formula outcome reads s) :=
  .of_eq active_finish finished_finish opened_finish

theorem Visits.trans (h : Visits s s') (h' : Visits s' s'') : Visits s s'' := by
  obtain ⟨new, hnew, hcovers⟩ := h.opened
  obtain ⟨new', hnew', hcovers'⟩ := h'.opened
  refine ⟨h'.active.trans h.active, new' ++ new, ?_, ?_⟩
  · rw [hnew', hnew, List.append_assoc]
  · rw [List.map_append]
    exact hcovers.trans hcovers'

/-- What a whole computation leaves behind: nothing that is done or started is lost, what waits goes on waiting, and
attempts were made only where less is left to do. -/
structure Proceeds (w : Setting) (s s' : Progress) : Prop extends Visits s s' where
  values : ∀ p ∈ s.values, p ∈ s'.values
  waiting : ∀ p ∈ s.started, p ∉ s.values → p ∈ s'.started ∧ p ∉ s'.values
  spent : s'.attempts + s'.workload w ≤ s.attempts + s.workload w

theorem Proceeds.keeps (h : Proceeds w s s') : s.Keeps s' where
  values := h.values
  started p hp := by
    by_cases hv : p ∈ s.values
    · exact Or.inr (h.values p hv)
    · exact Or.inl (h.waiting p hp hv).1

theorem Proceeds.refl (w : Setting) (s : Progress) : Proceeds w s s where
  toVisits := .of_eq rfl rfl rfl
  values _ hp := hp
  waiting _ hp hv := ⟨hp, hv⟩
  spent := le_rfl

theorem Proceeds.trans (h : Proceeds w s s') (h' : Proceeds w s' s'') : Proceeds w s s'' where
  toVisits := h.toVisits.trans h'.toVisits
  values p hp := h'.values p (h.values p hp)
  waiting p hp hv := h'.waiting p (h.waiting p hp hv).1 (h.waiting p hp hv).2
  spent := h'.spent.trans h.spent

theorem Proceeds.closeCycle (w : Setting) (s : Progress) (p : Position) (formula : String) (fault : FormulaError) :
    Proceeds w s (s.closeCycle p formula fault) where
  toVisits := .of_eq (by simp) (by simp) (by simp)
  values q hq := by simpa using hq
  waiting q hq hv := by simpa using ⟨hq, hv⟩
  spent := by simp [workload, undone, untouched]

end Progress

open Progress (New Proceeds)

/-! ## Evaluations -/

/-- What is left behind, step by step, by noting cycles and by reading from other sheets. -/
structure Leaves (foreign : ForeignReader) (R : Progress → Progress → Prop) : Prop where
  refl : ∀ s, R s s
  trans : ∀ {s s' s''}, R s s' → R s' s'' → R s s''
  closeCycle : ∀ s p formula fault, R s (s.closeCycle p formula fault)
  foreign : ∀ p name row column s, R s ((foreign p name row column).run s).2

/-- A reader of other sheets that proceeds from any state. -/
def Thrifty (w : Setting) (foreign : ForeignReader) : Prop :=
  ∀ (p : Position) (name : String) (row column : Nat) (s : Progress),
    Proceeds w s ((foreign p name row column).run s).2

theorem Thrifty.leaves {w : Setting} {foreign : ForeignReader} (h : Thrifty w foreign) :
    Leaves foreign (Proceeds w) where
  refl := .refl w
  trans := .trans
  closeCycle := .closeCycle w
  foreign := h

/-- How an evaluation on a sheet stops: at its end, or for formulas of the sheet that were never started. -/
inductive Stopped {α : Type} (w : Setting) (R : Progress → Progress → Prop) (own : Nat) (s : Progress) :
    Except (List Position) α × Progress → Prop where
  | done {a : α} {s' : Progress} (h : R s s') : Stopped w R own s (.ok a, s')
  | waits {missing : List Position} {s' : Progress} (h : R s s') (hne : missing ≠ [])
      (hm : ∀ q ∈ missing, New w s' q ∧ q.sheet = own) : Stopped w R own s (.error missing, s')

section Stopped

variable {α β : Type} {w : Setting} {foreign : ForeignReader} {R : Progress → Progress → Prop} {p : Position}
  {own : Nat} (hR : Leaves foreign R)
include hR

theorem Stopped.bind {x : StateT (List CellRead) Attempt α} {f : α → StateT (List CellRead) Attempt β}
    (hx : ∀ reads s, Stopped w R own s (evaluation x reads s))
    (hf : ∀ a reads s, Stopped w R own s (evaluation (f a) reads s)) (reads : List CellRead) (s : Progress) :
    Stopped w R own s (evaluation (x >>= f) reads s) := by
  have h := hx reads s
  rw [evaluation_bind]
  generalize evaluation x reads s = outcome at h
  cases h with
  | waits h hne hm => exact .waits h hne hm
  | @done a s' h =>
    have h' := hf a.1 a.2 s'
    simp only
    generalize evaluation (f a.1) a.2 s' = outcome at h'
    cases h' with
    | waits h' hne hm => exact .waits (hR.trans h h') hne hm
    | done h' => exact .done (hR.trans h h')

theorem stopped_readOwn (q : Position) (s : Progress) : Stopped w R q.sheet s ((readOwn w q).run.run s) := by
  cases hf : w.formula? q with
  | none =>
    rw [readOwn_literal hf]
    exact .done (hR.refl s)
  | some formula =>
    rw [readOwn_formula hf]
    cases hval : s.values[q]? with
    | some v => exact .done (hR.refl s)
    | none =>
      by_cases hs : q ∈ s.started
      · simp only [if_pos hs]
        exact .done (hR.closeCycle s q formula _)
      · simp only [if_neg hs]
        refine .waits (hR.refl s) (List.cons_ne_nil _ _) fun r hr => ?_
        rw [List.mem_singleton.1 hr]
        exact ⟨⟨by rw [hf]; rfl, notMem_of_getElem?_none hval, hs⟩, rfl⟩

theorem stopped_cell (a : Address) (reads : List CellRead) (s : Progress) :
    Stopped w R p.sheet s (evaluation ((source w foreign p).noting.cell a) reads s) := by
  rw [evaluation_noting]
  by_cases ho : w.isOwn p.sheet a.sheet
  · have h := stopped_readOwn (w := w) hR ⟨p.sheet, a.row, a.column⟩ s
    rw [source_own ho]
    generalize (readOwn w ⟨p.sheet, a.row, a.column⟩).run.run s = outcome at h
    cases h with
    | done h => exact .done h
    | waits h hne hm => exact .waits h hne hm
  · cases hn : a.sheet with
    | none =>
      rw [hn] at ho
      exact absurd rfl ho
    | some name =>
      have hs : sameSheet name (w.sheet p.sheet).name = false := by simpa [hn, Setting.isOwn] using ho
      rw [source_foreign hn hs]
      exact .done (hR.foreign p name a.row a.column s)

theorem stopped_announce (r : CellRange) (reads : List CellRead) (s : Progress) :
    Stopped w R p.sheet s (evaluation ((source w foreign p).noting.announce r) reads s) := by
  rw [evaluation_announce]
  split
  · rename_i h
    refine .waits (hR.refl s) h.2 fun q hq => ?_
    obtain ⟨ho, hf, hv, hs, -⟩ := Progress.mem_unstartedIn hq
    exact ⟨⟨hf, hv, hs⟩, ho⟩
  · exact .done (hR.refl s)

theorem stopped_inquiry (t : Inquiry α) (reads : List CellRead) (s : Progress) :
    Stopped w R p.sheet s (evaluation (t.run (source w foreign p).noting.cell) reads s) := by
  induction t generalizing reads s with
  | done a => exact .done (hR.refl s)
  | cell a next ih =>
    rw [Inquiry.run]
    exact Stopped.bind hR (stopped_cell hR a) ih reads s

theorem stopped_reading (t : Reading α) (reads : List CellRead) (s : Progress) :
    Stopped w R p.sheet s (evaluation (t.run (source w foreign p).noting) reads s) := by
  induction t generalizing reads s with
  | done a => exact .done (hR.refl s)
  | cell a next ih => exact Stopped.bind hR (stopped_cell hR a) ih reads s
  | extent sheet next ih => exact ih _ reads s
  | grid r next ih =>
    refine Stopped.bind hR (fun reads s => ?_) ih reads s
    rw [Inquiry.run_grid]
    exact Stopped.bind hR (stopped_announce hR r) (fun _ => stopped_inquiry hR _) reads s

/-- An attempt comes to an end, and the formula is done, or it is given up for formulas of its sheet that were never
started. -/
theorem attempt_cases (p : Position) (formula : String) (s : Progress) :
    (∃ outcome reads s', R (s.begin p) s' ∧
      (attempt w foreign p formula).run s = ([], finish w p formula outcome reads s')) ∨
    ∃ missing s', R (s.begin p) s' ∧ missing ≠ [] ∧ (∀ q ∈ missing, New w s' q ∧ q.sheet = p.sheet) ∧
      (attempt w foreign p formula).run s = (missing, s') := by
  have h := stopped_reading (w := w) (p := p) hR (evaluateFormula w.environment formula).run [] (s.begin p)
  rw [attempt_run]
  generalize evaluation _ _ (s.begin p) = stop at h
  cases h with
  | done h => exact Or.inl ⟨_, _, _, h, rfl⟩
  | waits h hne hm => exact Or.inr ⟨_, _, h, hne, hm, rfl⟩

end Stopped

/-! ## The next formula of a stack -/

namespace Progress

variable {w : Setting} {s : Progress} {stack rest : List Position} {p : Position} {formula : String}

theorem nextPending?_eq_some (h : s.nextPending? w stack = some (p, formula, rest)) :
    w.formula? p = some formula ∧ p ∉ s.values ∧ p :: rest <:+ stack := by
  induction stack with
  | nil => cases h
  | cons q stack ih =>
    rw [nextPending?] at h
    cases hq : s.pending? w q with
    | none =>
      rw [hq] at h
      obtain ⟨hf, hv, hrest⟩ := ih h
      exact ⟨hf, hv, hrest.trans (List.suffix_cons q stack)⟩
    | some f =>
      rw [hq] at h
      cases h
      unfold pending? at hq
      split at hq
      · cases hq
      · rename_i hv
        exact ⟨hq, by rwa [Std.TreeMap.contains_iff_mem] at hv, List.suffix_refl _⟩

theorem New.nextPending? (h : New w s p) (rest : List Position) :
    ∃ formula, s.nextPending? w (p :: rest) = some (p, formula, rest) := by
  obtain ⟨formula, hf⟩ := Option.isSome_iff_exists.1 h.isFormula
  exact ⟨formula, by simp [Progress.nextPending?, pending?, h.undone, hf]⟩

/-- One if the next formula of a stack is to be tried again, and nothing if it is new. -/
def retries (w : Setting) (s : Progress) (stack : List Position) : Nat :=
  match s.nextPending? w stack with
  | some (p, _, _) => if p ∈ s.started then 1 else 0
  | none => 0

/-- Attempts that a stack needs at most. -/
def demand (w : Setting) (s : Progress) (stack : List Position) : Nat := s.workload w + s.retries w stack

theorem retries_eq (h : s.nextPending? w stack = some (p, formula, rest)) :
    s.retries w stack = if p ∈ s.started then 1 else 0 := by
  rw [retries, h]

theorem retries_le (w : Setting) (s : Progress) (stack : List Position) : s.retries w stack ≤ 1 := by
  unfold retries
  split
  · split <;> omega
  · omega

/-- Whatever the stack, two attempts for every formula are enough. -/
theorem demand_le (w : Setting) (s : Progress) (stack : List Position) :
    s.demand w stack ≤ 2 * w.formulas.length := by
  have hwork := s.workload_le w
  unfold demand retries
  split
  · rename_i p formula rest hnext
    split
    · rename_i hs
      -- a formula that is tried again is no new one
      obtain ⟨hf, -, -⟩ := nextPending?_eq_some hnext
      have huntouched : (s.untouched w).card < w.formulas.toFinset.card := by
        refine Finset.card_lt_card ⟨Finset.filter_subset _ _, fun hsub => ?_⟩
        have hp := hsub (List.mem_toFinset.2 (Setting.mem_formulas (p := p) (by rw [hf]; rfl)))
        exact (Progress.mem_untouched.1 hp).2.2 hs
      have hundone : (s.undone w).card ≤ w.formulas.length :=
        (Finset.card_filter_le _ _).trans w.formulas.toFinset_card_le
      have hformulas := w.formulas.toFinset_card_le
      unfold workload
      omega
    · omega
  · omega

end Progress

/-! ## Turns -/

/-- One turn of the work on a stack. -/
inductive Turn (w : Setting) (foreign : ForeignReader) :
    List Position × Progress → List Position × Progress → Prop where
  /-- The first formula that is not done is evaluated to its end. -/
  | done {s s' : Progress} {stack rest : List Position} {p : Position} {formula : String}
      (hnext : s.nextPending? w stack = some (p, formula, rest))
      (hrun : (attempt w foreign p formula).run s = ([], s')) : Turn w foreign (stack, s) (rest, s')
  /-- It is given up, and what it waits for is put on top of it. -/
  | waits {s s' : Progress} {stack rest missing : List Position} {p : Position} {formula : String}
      (hnext : s.nextPending? w stack = some (p, formula, rest))
      (hrun : (attempt w foreign p formula).run s = (missing, s')) (hne : missing ≠ []) :
      Turn w foreign (stack, s) (missing.reverse ++ p :: rest, s')

section Turn

variable {w : Setting} {foreign : ForeignReader} {s s' : Progress} {stack rest : List Position} {p : Position}
  {formula : String}

theorem exists_turn (foreign : ForeignReader) (h : s.nextPending? w stack = some (p, formula, rest)) :
    ∃ stack' s', Turn w foreign (stack, s) (stack', s') := by
  cases hrun : (attempt w foreign p formula).run s with
  | mk missing s' =>
    cases missing with
    | nil => exact ⟨rest, s', .done h hrun⟩
    | cons q missing => exact ⟨_, s', .waits h hrun (List.cons_ne_nil q missing)⟩

theorem settle_of_turn {stack' : List Position} (h : Turn w foreign (stack, s) (stack', s')) (n : Nat) :
    (settle w foreign (n + 1) stack).run s = (settle w foreign n stack').run s' := by
  cases h with
  | done hnext hrun =>
    simp only [settle, StateT.run_bind, StateT.run_get, pure_bind, hnext, hrun]
    rfl
  | @waits _ _ _ rest missing p formula hnext hrun hne =>
    simp only [settle, StateT.run_bind, StateT.run_get, pure_bind, hnext, hrun]
    cases missing with
    | nil => exact absurd rfl hne
    | cons q missing => rfl

theorem settle_of_nextPending? (h : s.nextPending? w stack = none) (n : Nat) :
    (settle w foreign n stack).run s = ((), s) := by
  cases n with
  | zero => rfl
  | succ n =>
    simp only [settle, StateT.run_bind, StateT.run_get, pure_bind, h]
    rfl

/-- What a turn is about, and how its attempt stops. -/
theorem Turn.cases {R : Progress → Progress → Prop} (hR : Leaves foreign R) {y : List Position × Progress}
    (h : Turn w foreign (stack, s) y) :
    ∃ p formula rest, s.nextPending? w stack = some (p, formula, rest) ∧
      ((∃ outcome reads s', R (s.begin p) s' ∧ y = (rest, finish w p formula outcome reads s')) ∨
        ∃ missing s', R (s.begin p) s' ∧ missing ≠ [] ∧ (∀ q ∈ missing, New w s' q ∧ q.sheet = p.sheet) ∧
          y = (missing.reverse ++ p :: rest, s')) := by
  cases h with
  | @done _ s' _ rest p formula hnext hrun =>
    refine ⟨p, formula, rest, hnext, ?_⟩
    rcases attempt_cases (w := w) hR p formula s with ⟨outcome, reads, s₁, hs₁, hrun'⟩ | ⟨_, _, -, hne, -, hrun'⟩
    · rw [hrun] at hrun'
      cases hrun'
      exact Or.inl ⟨outcome, reads, s₁, hs₁, rfl⟩
    · rw [hrun] at hrun'
      cases hrun'
      exact absurd rfl hne
  | @waits _ s' _ rest missing p formula hnext hrun hne =>
    refine ⟨p, formula, rest, hnext, ?_⟩
    rcases attempt_cases (w := w) hR p formula s with ⟨_, _, _, -, hrun'⟩ | ⟨_, _, hs', -, hm, hrun'⟩
    · rw [hrun] at hrun'
      cases hrun'
      exact absurd rfl hne
    · rw [hrun] at hrun'
      cases hrun'
      exact Or.inr ⟨missing, s', hs', hne, hm, rfl⟩

/-- What turns leave behind. Formulas that wait and are not on the stack go on waiting. -/
structure Worked (w : Setting) (x y : List Position × Progress) : Prop extends Progress.Visits x.2 y.2 where
  values : ∀ p ∈ x.2.values, p ∈ y.2.values
  waiting : ∀ p ∉ x.1, p ∈ x.2.started → p ∉ x.2.values → p ∉ y.1 ∧ p ∈ y.2.started ∧ p ∉ y.2.values
  spent : y.2.attempts + y.2.demand w y.1 ≤ x.2.attempts + x.2.demand w x.1

theorem Worked.refl (w : Setting) (x : List Position × Progress) : Worked w x x where
  toVisits := .of_eq rfl rfl rfl
  values _ hp := hp
  waiting _ hp hs hv := ⟨hp, hs, hv⟩
  spent := le_rfl

theorem Worked.trans {x y z : List Position × Progress} (h : Worked w x y) (h' : Worked w y z) : Worked w x z where
  toVisits := h.toVisits.trans h'.toVisits
  values p hp := h'.values p (h.values p hp)
  waiting p hp hs hv :=
    have ⟨hp', hs', hv'⟩ := h.waiting p hp hs hv
    h'.waiting p hp' hs' hv'
  spent := h'.spent.trans h.spent

/-- To begin a formula leaves less work if it is new, and no more if it is not. -/
theorem Progress.workload_begin_add_le (hf : w.formula? p = some formula) (hv : p ∉ s.values) :
    (s.begin p).workload w + 1 ≤ s.workload w + if p ∈ s.started then 1 else 0 := by
  split
  · have := (Grows.begin s p).keeps.workload_le (w := w)
    omega
  · rename_i hs
    exact workload_begin_lt (Setting.mem_formulas (by rw [hf]; rfl)) hv hs

/-- To finish a formula leaves less work. -/
theorem Progress.workload_finish_lt (outcome : Except FormulaError Value) (reads : List CellRead)
    (hf : w.formula? p = some formula) (hv : p ∉ s.values) :
    (finish w p formula outcome reads s).workload w < s.workload w := by
  have hkeeps : s.Keeps (finish w p formula outcome reads s) := by
    refine ⟨fun q hq => mem_values_finish.2 (Or.inr hq), fun q hq => ?_⟩
    rw [mem_started_finish, mem_values_finish]
    by_cases hpq : p = q
    · exact Or.inr (Or.inl hpq)
    · exact Or.inl ⟨hpq, hq⟩
  have hundone := hkeeps.undone_lt (mem_undone.2 ⟨Setting.mem_formulas (by rw [hf]; rfl), hv⟩)
    (mem_values_finish.2 (Or.inl rfl))
  have huntouched := Finset.card_le_card (hkeeps.untouched_subset (w := w))
  unfold workload
  omega

/-- A turn leaves less to do: either a formula is done now, or the next one is new. -/
theorem Turn.worked (hforeign : Thrifty w foreign) {x y : List Position × Progress} (h : Turn w foreign x y) :
    Worked w x y ∧ y.2.demand w y.1 < x.2.demand w x.1 := by
  obtain ⟨stack, s⟩ := x
  obtain ⟨p, formula, rest, hnext, hstop⟩ := h.cases hforeign.leaves
  obtain ⟨hf, hv, hrest⟩ := Progress.nextPending?_eq_some hnext
  have hbegin : ∀ {q}, q ∈ s.started → q ∈ (s.begin p).started := fun hq => Progress.mem_started_begin.2 (Or.inr hq)
  have hwork := Progress.workload_begin_add_le hf hv
  rcases hstop with ⟨outcome, reads, s', hs', rfl⟩ | ⟨missing, s', hs', hne, hm, rfl⟩
  · have hv' := (hs'.waiting p (Progress.mem_started_begin.2 (Or.inl rfl)) hv).2
    have hfinish := Progress.workload_finish_lt outcome reads hf hv'
    have hkept := hs'.keeps.workload_le (w := w)
    have hretries := (finish w p formula outcome reads s').retries_le w rest
    have hspent : s'.attempts + s'.workload w ≤ s.attempts + 1 + (s.begin p).workload w := hs'.spent
    refine ⟨⟨?_, fun q hq => ?_, fun q hq hqs hqv => ?_, ?_⟩, ?_⟩
    · exact ((Progress.Visits.begin s p).trans hs'.toVisits).trans (Progress.Visits.finish ..)
    · exact Progress.mem_values_finish.2 (Or.inr (hs'.values q hq))
    · have hpq : p ≠ q := fun e => hq (hrest.subset (e ▸ List.mem_cons_self ..))
      obtain ⟨hqs', hqv'⟩ := hs'.waiting q (hbegin hqs) hqv
      rw [Progress.mem_started_finish, Progress.mem_values_finish]
      exact ⟨fun h => hq (hrest.subset (List.mem_cons_of_mem p h)), ⟨hpq, hqs'⟩, fun h => h.elim hpq hqv'⟩
    · simp only [Progress.demand, Progress.retries_eq hnext, Progress.attempts_finish]
      omega
    · simp only [Progress.demand, Progress.retries_eq hnext]
      omega
  · have hretries : s'.retries w (missing.reverse ++ p :: rest) = 0 := by
      obtain ⟨q, others, hq⟩ := List.exists_cons_of_ne_nil (List.reverse_ne_nil_iff.2 hne)
      have hnew := (hm q (List.mem_reverse.1 (hq ▸ List.mem_cons_self ..))).1
      obtain ⟨formula', hnext'⟩ := hnew.nextPending? (others ++ p :: rest)
      rw [hq, List.cons_append, Progress.retries_eq hnext', if_neg hnew.unstarted]
    have hkept := hs'.keeps.workload_le (w := w)
    have hspent : s'.attempts + s'.workload w ≤ s.attempts + 1 + (s.begin p).workload w := hs'.spent
    refine ⟨⟨(Progress.Visits.begin s p).trans hs'.toVisits, hs'.values, fun q hq hqs hqv => ?_, ?_⟩, ?_⟩
    · obtain ⟨hqs', hqv'⟩ := hs'.waiting q (hbegin hqs) hqv
      refine ⟨fun h => ?_, hqs', hqv'⟩
      rcases List.mem_append.1 h with h | h
      · exact (hm q (List.mem_reverse.1 h)).1.unstarted hqs'
      · exact hq (hrest.subset h)
    · simp only [Progress.demand, Progress.retries_eq hnext, hretries]
      omega
    · simp only [Progress.demand, Progress.retries_eq hnext, hretries]
      omega

/-- There is no end of turns only if there is no end to what is to be done. -/
theorem wellFounded_turn (hforeign : Thrifty w foreign) : WellFounded fun y x => Turn w foreign x y :=
  Subrelation.wf (fun h => (h.worked hforeign).2) (measure fun x : List Position × Progress => x.2.demand w x.1).wf

/-- To settle a stack is to take turns, and with as many attempts as are needed nothing is left to do. -/
theorem settle_turns (hforeign : Thrifty w foreign) (n : Nat) : ∀ (stack : List Position) (s : Progress),
    ∃ rest, ReflTransGen (Turn w foreign) (stack, s) (rest, ((settle w foreign n stack).run s).2) ∧
      (s.demand w stack ≤ n → ((settle w foreign n stack).run s).2.nextPending? w rest = none) := by
  induction n with
  | zero =>
    refine fun stack s => ⟨stack, .refl, fun hn => ?_⟩
    cases hnext : s.nextPending? w stack with
    | none => exact hnext
    | some next =>
      obtain ⟨stack', s', hturn⟩ := exists_turn foreign hnext
      exact absurd (hturn.worked hforeign).2 (by simp only; omega)
  | succ n ih =>
    intro stack s
    cases hnext : s.nextPending? w stack with
    | none =>
      rw [settle_of_nextPending? hnext]
      exact ⟨stack, .refl, fun _ => hnext⟩
    | some next =>
      obtain ⟨stack', s', hturn⟩ := exists_turn foreign hnext
      obtain ⟨rest, hturns, hdone⟩ := ih stack' s'
      have hlt : s'.demand w stack' < s.demand w stack := (hturn.worked hforeign).2
      rw [settle_of_turn hturn]
      exact ⟨rest, .head hturn hturns, fun hn => hdone (by omega)⟩

/-- More attempts than are needed change nothing. -/
theorem settle_eq_of_le (hforeign : Thrifty w foreign) {n m : Nat} (hnm : n ≤ m) {stack : List Position} {s : Progress}
    (hn : s.demand w stack ≤ n) : (settle w foreign m stack).run s = (settle w foreign n stack).run s := by
  induction n generalizing m stack s with
  | zero =>
    cases hnext : s.nextPending? w stack with
    | none => rw [settle_of_nextPending? hnext, settle_of_nextPending? hnext]
    | some next =>
      obtain ⟨stack', s', hturn⟩ := exists_turn foreign hnext
      exact absurd (hturn.worked hforeign).2 (by simp only; omega)
  | succ n ih =>
    obtain ⟨m, rfl⟩ := Nat.exists_eq_add_of_le' hnm
    cases hnext : s.nextPending? w stack with
    | none => rw [settle_of_nextPending? hnext, settle_of_nextPending? hnext]
    | some next =>
      obtain ⟨stack', s', hturn⟩ := exists_turn foreign hnext
      have hlt : s'.demand w stack' < s.demand w stack := (hturn.worked hforeign).2
      rw [settle_of_turn hturn, ← Nat.add_assoc, settle_of_turn hturn]
      exact ih (by omega) (by omega)

end Turn

end Spreadsheet
