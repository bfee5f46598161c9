import Spreadsheet.Calculation.Calculate
import Spreadsheet.Proofs.Inquiry

/-!
# What is known in the middle of a calculation

The value of a cell is known once its formula is done, and also once the formula was read while it was
started, for then it is going to be the fallback of a cycle. What is known never changes, so an
evaluation that is given up and tried again is answered as before.

* `Progress.known?`, `Progress.answer?` : the value of a cell and the answer to a reference, as far as
  they are known; `Setting.access` says which references fail instead;
* `Progress.Reads`, `Progress.Opens` : what a done formula has read, and which formulas were calculated
  with a whole sheet because of it;
* `Progress.Bound` : a formula is going to read a cell, whatever is still unknown.
-/

namespace Spreadsheet

open Calculation (finish foreignSheet)

/-! ## Entries of a map -/

section Entries

variable {α β : Type} {cmp : α → α → Ordering} [Std.TransCmp cmp] {m : Std.TreeMap α β cmp} {k : α} {v : β}

theorem mem_of_getElem?_some (h : m[k]? = some v) : k ∈ m := by
  simp [Std.TreeMap.mem_iff_isSome_getElem?, h]

theorem notMem_of_getElem?_none (h : m[k]? = none) : k ∉ m := by
  simp [Std.TreeMap.mem_iff_isSome_getElem?, h]

theorem exists_getElem?_of_mem (h : k ∈ m) : ∃ v, m[k]? = some v :=
  Option.isSome_iff_exists.1 (Std.TreeMap.mem_iff_isSome_getElem?.1 h)

end Entries

/-! ## Single updates -/

namespace Progress

variable {s : Progress} {p q : Position} {formula : String} {fault : FormulaError} {v : Value}
  {reads : List CellRead}

@[simp] theorem mem_started_begin : q ∈ (s.begin p).started ↔ p = q ∨ q ∈ s.started := by
  simp [begin]

theorem closeCycle_of_mem (h : p ∈ s.circular) : s.closeCycle p formula fault = s := by
  simp [closeCycle, h]

theorem closeCycle_of_notMem (h : p ∉ s.circular) :
    s.closeCycle p formula fault
      = { s.addError p formula fault with circular := s.circular.insert p } := by
  simp [closeCycle, h]

@[simp] theorem mem_circular_closeCycle :
    q ∈ (s.closeCycle p formula fault).circular ↔ p = q ∨ q ∈ s.circular := by
  by_cases h : p ∈ s.circular
  · rw [closeCycle_of_mem h]
    exact ⟨Or.inr, fun hq => hq.elim (fun e => e ▸ h) id⟩
  · simp [closeCycle_of_notMem h]

@[simp] theorem started_closeCycle : (s.closeCycle p formula fault).started = s.started := by
  unfold closeCycle
  split <;> rfl

@[simp] theorem values_closeCycle : (s.closeCycle p formula fault).values = s.values := by
  unfold closeCycle
  split <;> rfl

@[simp] theorem reads_closeCycle : (s.closeCycle p formula fault).reads = s.reads := by
  unfold closeCycle
  split <;> rfl

@[simp] theorem records_closeCycle : (s.closeCycle p formula fault).records = s.records := by
  unfold closeCycle
  split <;> rfl

@[simp] theorem active_closeCycle : (s.closeCycle p formula fault).active = s.active := by
  unfold closeCycle
  split <;> rfl

@[simp] theorem finished_closeCycle : (s.closeCycle p formula fault).finished = s.finished := by
  unfold closeCycle
  split <;> rfl

@[simp] theorem opened_closeCycle : (s.closeCycle p formula fault).opened = s.opened := by
  unfold closeCycle
  split <;> rfl

@[simp] theorem attempts_closeCycle : (s.closeCycle p formula fault).attempts = s.attempts := by
  unfold closeCycle
  split <;> rfl

@[simp] theorem evaluatedOn_closeCycle (i : Nat) :
    (s.closeCycle p formula fault).evaluatedOn i = s.evaluatedOn i := by
  unfold closeCycle
  split <;> rfl

theorem mem_errors_closeCycle {e : Nat × CalculationError} (h : e ∈ s.errors) :
    e ∈ (s.closeCycle p formula fault).errors := by
  unfold closeCycle
  split
  · exact h
  · exact List.mem_cons_of_mem _ h

theorem evaluatedOn_countEvaluated (i j : Nat) :
    (s.countEvaluated i).evaluatedOn j = if i = j then s.evaluatedOn i + 1 else s.evaluatedOn j := by
  unfold evaluatedOn countEvaluated
  rw [Std.TreeMap.getElem?_insert]
  simp only [Std.compare_eq_iff_eq]
  split <;> rfl

end Progress

namespace Setting

/-- What a formula without a value counts as, and one with a value as it. -/
def outcomeValue (w : Setting) : Except FormulaError Value → Value
  | .ok v => v
  | .error fault => w.fallback fault

/-- What every formula on a cycle counts as. -/
def cycleValue (w : Setting) : Value := w.fallback (.circular "")

theorem fallback_circular (w : Setting) (cell : String) : w.fallback (.circular cell) = w.cycleValue := rfl

end Setting

namespace Progress

variable {w : Setting} {s : Progress} {p q : Position} {formula : String}
  {outcome : Except FormulaError Value} {reads : List CellRead}

theorem getElem?_values_complete {v : Value} :
    (s.complete p formula v reads).values[q]? = if p = q then some v else s.values[q]? := by
  simp [complete, Std.TreeMap.getElem?_insert]

theorem mem_started_complete {v : Value} :
    q ∈ (s.complete p formula v reads).started ↔ p ≠ q ∧ q ∈ s.started := by
  simp [complete]

/-- The value that a formula with an outcome is given. -/
def finalValue (w : Setting) (s : Progress) (p : Position) (outcome : Except FormulaError Value) : Value :=
  if p ∈ s.circular then w.cycleValue else w.outcomeValue outcome

theorem finish_eq (w : Setting) (s : Progress) (p : Position) (formula : String)
    (outcome : Except FormulaError Value) (reads : List CellRead) :
    finish w p formula outcome reads s
      = (match outcome with
          | .ok _ => s.countEvaluated p.sheet
          | .error fault => (s.countEvaluated p.sheet).addError p formula fault).complete p formula
            (finalValue w s p outcome) reads := by
  unfold finish finalValue
  cases outcome with
  | ok v => simp only [countEvaluated, Std.TreeSet.contains_iff_mem]; rfl
  | error fault =>
    simp only [countEvaluated, addError, Std.TreeSet.contains_iff_mem]
    rfl

theorem getElem?_values_finish : (finish w p formula outcome reads s).values[q]?
    = if p = q then some (finalValue w s p outcome) else s.values[q]? := by
  rw [finish_eq, getElem?_values_complete]
  cases outcome <;> rfl

theorem getElem?_reads_finish : (finish w p formula outcome reads s).reads[q]?
    = if p = q then some reads else s.reads[q]? := by
  rw [finish_eq]
  cases outcome <;> simp [complete, addError, countEvaluated, Std.TreeMap.getElem?_insert]

@[simp] theorem mem_values_finish :
    q ∈ (finish w p formula outcome reads s).values ↔ p = q ∨ q ∈ s.values := by
  rw [finish_eq]
  cases outcome <;> simp [complete, addError, countEvaluated]

@[simp] theorem mem_reads_finish :
    q ∈ (finish w p formula outcome reads s).reads ↔ p = q ∨ q ∈ s.reads := by
  rw [finish_eq]
  cases outcome <;> simp [complete, addError, countEvaluated]

@[simp] theorem mem_started_finish :
    q ∈ (finish w p formula outcome reads s).started ↔ p ≠ q ∧ q ∈ s.started := by
  rw [finish_eq, mem_started_complete]
  cases outcome <;> rfl

@[simp] theorem circular_finish : (finish w p formula outcome reads s).circular = s.circular := by
  rw [finish_eq]
  cases outcome <;> rfl

@[simp] theorem active_finish : (finish w p formula outcome reads s).active = s.active := by
  rw [finish_eq]
  cases outcome <;> rfl

@[simp] theorem finished_finish : (finish w p formula outcome reads s).finished = s.finished := by
  rw [finish_eq]
  cases outcome <;> rfl

@[simp] theorem opened_finish : (finish w p formula outcome reads s).opened = s.opened := by
  rw [finish_eq]
  cases outcome <;> rfl

@[simp] theorem attempts_finish : (finish w p formula outcome reads s).attempts = s.attempts := by
  rw [finish_eq]
  cases outcome <;> rfl

theorem mem_errors_finish {e : Nat × CalculationError} (h : e ∈ s.errors) :
    e ∈ (finish w p formula outcome reads s).errors := by
  rw [finish_eq]
  cases outcome with
  | ok _ => exact h
  | error _ => exact List.mem_cons_of_mem _ h

theorem records_finish : (finish w p formula outcome reads s).records
    = (p.sheet, ⟨p.row, p.column, formula, finalValue w s p outcome⟩) :: s.records := by
  rw [finish_eq]
  cases outcome <;> rfl

/-- A formula that gets its value is counted for its sheet. -/
theorem evaluatedOn_finish (i : Nat) : (finish w p formula outcome reads s).evaluatedOn i
    = if p.sheet = i then s.evaluatedOn i + 1 else s.evaluatedOn i := by
  have hcount : (finish w p formula outcome reads s).evaluatedOn i = (s.countEvaluated p.sheet).evaluatedOn i := by
    rw [finish_eq]
    cases outcome <;> rfl
  rw [hcount, evaluatedOn_countEvaluated]
  split
  · rename_i h
    rw [h]
  · rfl

end Progress

/-! ## References -/

namespace Setting

/-- The value of a cell that is no formula. -/
def literal (w : Setting) (p : Position) : Value := ((w.cell? p).map fun c => c.content.value).getD .empty

/-- The position that an address on sheet `own` leads to. -/
def target? (w : Setting) (own : Nat) (a : Address) : Option Position :=
  (w.sheetFor? own a.sheet).map fun i => ⟨i, a.row, a.column⟩

/-- The sheet that a reference on sheet `own` is read from with so many levels of reads left, or why it is
not read. -/
def access (w : Setting) (levels own : Nat) : Option String → Except FormulaError Nat
  | none => .ok own
  | some name =>
    if sameSheet name (w.sheet own).name then .ok own
    else match foreignSheet w name with
      | .error fault => .error fault
      | .ok i => if levels = 0 then .error (.sheetsNestTooDeep maxSheetNesting) else .ok i

theorem access_own {w : Setting} {levels own : Nat} {sheet : Option String} (h : w.isOwn own sheet) :
    w.access levels own sheet = .ok own := by
  cases sheet with
  | none => rfl
  | some name => exact if_pos h

theorem extent?_own {w : Setting} {own : Nat} {sheet : Option String} (h : w.isOwn own sheet) :
    w.extent? own sheet = some (w.sheet own).extent := by
  rw [extent?, sheetFor?, if_pos h]
  rfl

theorem access_foreign {w : Setting} {levels own : Nat} {name : String}
    (h : sameSheet name (w.sheet own).name = false) :
    w.access levels own (some name) = match foreignSheet w name with
      | .error fault => .error fault
      | .ok i => if levels = 0 then .error (.sheetsNestTooDeep maxSheetNesting) else .ok i := by
  rw [access, if_neg (by simp [h])]

theorem foreignSheet_eq_ok {w : Setting} {name : String} {i : Nat} (h : foreignSheet w name = .ok i) :
    w.options.crossSheetReferences = true ∧ w.sheetIndex? name = some i := by
  unfold foreignSheet at h
  cases hc : w.options.crossSheetReferences with
  | false => simp [hc] at h
  | true =>
    cases hi : w.sheetIndex? name with
    | none => simp [hc, hi] at h
    | some j => simpa [hc, hi] using h

theorem sheetFor?_of_access {w : Setting} {levels own i : Nat} {sheet : Option String}
    (h : w.access levels own sheet = .ok i) : w.sheetFor? own sheet = some i := by
  by_cases ho : w.isOwn own sheet
  · rw [access_own ho] at h
    cases h
    exact if_pos ho
  · rw [sheetFor?, if_neg ho]
    cases sheet with
    | none => exact absurd rfl ho
    | some name =>
      rw [access_foreign (by simpa [isOwn] using ho)] at h
      split at h
      · cases h
      · rename_i j hj
        split at h
        · cases h
        · cases h
          obtain ⟨hc, hi⟩ := foreignSheet_eq_ok hj
          simp [hc, hi]

/-- The questions of a formula. That the text is parsed for them is rarely of interest. -/
@[irreducible] def inquiry (w : Setting) (p : Position) (formula : String) : Inquiry (Except FormulaError Value) :=
  (evaluateFormula w.environment formula).run.cells (w.extent? p.sheet)

end Setting

/-! ## What is known -/

namespace Progress

open Inquiry (Refines)

variable {w : Setting} {s s' : Progress} {p q : Position} {formula : String} {levels : Nat}

/-- The value of a cell, as far as it is known. -/
def known? (w : Setting) (s : Progress) (p : Position) : Option Value :=
  match w.formula? p with
  | none => some (w.literal p)
  | some _ =>
    match s.values[p]? with
    | some v => some v
    | none => if p ∈ s.circular then some w.cycleValue else none

/-- A sheet is calculated or in the middle of its calculation. -/
def Visited (s : Progress) (i : Nat) : Prop := i ∈ s.active ∨ i ∈ s.finished

instance (s : Progress) (i : Nat) : Decidable (s.Visited i) :=
  inferInstanceAs (Decidable (i ∈ s.active ∨ i ∈ s.finished))

/-- The answer to a reference on sheet `own`, as far as it is known. -/
def answer? (w : Setting) (levels : Nat) (s : Progress) (own : Nat) (a : Address) : Option Answer :=
  match w.access levels own a.sheet with
  | .error fault => some (.error fault)
  | .ok i => if s.Visited i then (known? w s ⟨i, a.row, a.column⟩).map .ok else none

theorem known?_literal (h : w.formula? p = none) : known? w s p = some (w.literal p) := by
  rw [known?, h]

theorem known?_done {v : Value} (hf : w.formula? p = some formula) (h : s.values[p]? = some v) :
    known? w s p = some v := by
  simp only [known?, hf, h]

theorem known?_circular (hf : w.formula? p = some formula) (hn : s.values[p]? = none)
    (h : p ∈ s.circular) : known? w s p = some w.cycleValue := by
  simp only [known?, hf, hn, if_pos h]

theorem answer?_of_access {own i : Nat} {a : Address} (h : w.access levels own a.sheet = .ok i)
    (hi : s.Visited i) : answer? w levels s own a = (known? w s ⟨i, a.row, a.column⟩).map .ok := by
  simp only [answer?, h, if_pos hi]

/-- An answer is a failure, or the value of a cell that is known. -/
theorem answer?_eq_some {own : Nat} {a : Address} {answer : Answer} :
    answer? w levels s own a = some answer ↔
      (∃ fault, w.access levels own a.sheet = .error fault ∧ answer = .error fault) ∨
      ∃ i v, w.access levels own a.sheet = .ok i ∧ s.Visited i ∧
        known? w s ⟨i, a.row, a.column⟩ = some v ∧ answer = .ok v := by
  unfold answer?
  cases w.access levels own a.sheet with
  | error fault => simp [eq_comm]
  | ok i =>
    by_cases hi : s.Visited i
    · simp only [hi, if_pos, Option.map_eq_some_iff, eq_comm (a := answer)]
      simp [hi]
    · simp [hi]

/-- More is known in `s'`. -/
structure Learns (w : Setting) (s s' : Progress) : Prop where
  value : ∀ q v, known? w s q = some v → known? w s' q = some v
  visited : ∀ i, s.Visited i → s'.Visited i

theorem Learns.refl (w : Setting) (s : Progress) : Learns w s s := ⟨fun _ _ h => h, fun _ h => h⟩

theorem Learns.trans {s'' : Progress} (h : Learns w s s') (h' : Learns w s' s'') : Learns w s s'' :=
  ⟨fun q v hq => h'.value q v (h.value q v hq), fun i hi => h'.visited i (h.visited i hi)⟩

theorem Learns.answer {a : Address} {own : Nat} {answer : Answer} (h : Learns w s s')
    (ha : answer? w levels s own a = some answer) : answer? w levels s' own a = some answer := by
  rcases answer?_eq_some.1 ha with ha | ⟨i, v, hi, hvis, hv, rfl⟩
  · exact answer?_eq_some.2 (Or.inl ha)
  · exact answer?_eq_some.2 (Or.inr ⟨i, v, hi, h.visited i hvis, h.value _ v hv, rfl⟩)

theorem Learns.refines (h : Learns w s s') (own : Nat) :
    Refines (answer? w levels s own) (answer? w levels s' own) := by
  intro a answer hp
  cases ha : answer? w levels s own a with
  | some answer' => exact Or.inl (by rw [ha, hp.eq (h.answer ha)])
  | none =>
    refine Or.inr ⟨ha, ?_⟩
    rcases hp with hp | ⟨-, hp⟩
    · rcases answer?_eq_some.1 hp with ⟨fault, hfault, -⟩ | ⟨-, v, -, -, -, rfl⟩
      · rw [answer?_eq_some.2 (Or.inl ⟨fault, hfault, rfl⟩)] at ha
        cases ha
      · exact ⟨v, rfl⟩
    · exact hp

/-! ## Who reads whom -/

/-- A formula that is done has read a cell. -/
def Reads (w : Setting) (s : Progress) (p q : Position) : Prop :=
  ∃ reads, s.reads[p]? = some reads ∧
    ∃ r ∈ reads, (∃ v, r.answer = .ok v) ∧ w.target? p.sheet r.address = some q

instance (w : Setting) (s : Progress) (p q : Position) : Decidable (Reads w s p q) :=
  decidable_of_iff (∃ reads ∈ s.reads[p]?, ∃ r ∈ reads, r.answer.isOk ∧ w.target? p.sheet r.address = some q) <| by
    have hok : ∀ answer : Answer, answer.isOk = true ↔ ∃ v, answer = .ok v := by
      rintro (_ | _) <;> simp [Except.isOk, Except.toBool]
    simp only [Reads, hok, Option.mem_def]

/-- A formula was calculated with its whole sheet because another one read a cell of that sheet. -/
def Opens (w : Setting) (s : Progress) (p q : Position) : Prop :=
  (p, q.sheet) ∈ s.opened ∧ (w.formula? q).isSome

/-- A formula is going to read a cell, whatever the cells that are not known turn out to be. -/
def Bound (w : Setting) (levels : Nat) (s : Progress) (p q : Position) : Prop :=
  ∃ formula a i, w.formula? p = some formula ∧
    (w.inquiry p formula).Asks (answer? w levels s p.sheet) a ∧
    w.access levels p.sheet a.sheet = .ok i ∧ q = ⟨i, a.row, a.column⟩

theorem Bound.mono (h : Bound w levels s p q) (hl : Learns w s s') : Bound w levels s' p q := by
  obtain ⟨formula, a, i, hf, ha, hi, rfl⟩ := h
  exact ⟨formula, a, i, hf, ha.refine (hl.refines p.sheet), hi, rfl⟩

/-- What a formula is going to read is among the reads that it ends with. -/
theorem Bound.mem_reads (h : Bound w levels s p q) (hf : w.formula? p = some formula)
    {outcome : Except FormulaError Value} {reads : List CellRead}
    (hr : (w.inquiry p formula).replay (answer? w levels s p.sheet) [] = some (outcome, reads)) :
    ∃ r ∈ reads, (∃ v, r.answer = .ok v) ∧ w.target? p.sheet r.address = some q := by
  obtain ⟨formula', a, i, hf', ha, hi, rfl⟩ := h
  cases hf.symm.trans hf'
  obtain ⟨answer, hanswer, hmem⟩ := Inquiry.mem_of_asks hr ha
  rcases answer?_eq_some.1 hanswer with ⟨fault, hfault, -⟩ | ⟨-, v, -, -, -, rfl⟩
  · rw [hi] at hfault
    cases hfault
  · refine ⟨_, hmem, ⟨v, rfl⟩, ?_⟩
    rw [Setting.target?, Setting.sheetFor?_of_access hi]
    rfl

end Progress

end Spreadsheet
