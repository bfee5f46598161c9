import Spreadsheet.Proofs.Reach

/-!
# Ranges read as far as there is data

Of a range that reaches beyond the data of a sheet, the part within is read as the whole range is: the same cells are
asked for, in the same order and up to the same failure, and what is missing from the grid is blank.

* `Inquiry.InStep` : computations that ask the same questions;
* `filled` : what is left of values without the blanks among them;
* `Inquiry.row_clipped`, `Inquiry.rows_clipped`, `grid_clipped` : a row, rows, and a range with its part;
* `CellRange.within` : the cells of a range that are read, in order; `inStep_grid` : they are asked for one by one;
* `discard_grid`, `discard_usedGrid` : what this comes to over a source.
-/

namespace Spreadsheet

/-! ## Computations in step -/

/-- Both computations fail in the same way, or their results are related. -/
inductive BothEnd {α β : Type} (R : α → β → Prop) : Except FormulaError α → Except FormulaError β → Prop where
  | failed (fault : FormulaError) : BothEnd R (.error fault) (.error fault)
  | ok {a : α} {b : β} (h : R a b) : BothEnd R (.ok a) (.ok b)

namespace Inquiry

variable {α β γ δ : Type} {R : α → β → Prop} {S : γ → δ → Prop} {t : Inquiry α} {u : Inquiry β}

/-- Two computations that ask the same questions, and whose results are related after the same answers. -/
inductive InStep {α β : Type} (R : α → β → Prop) : Inquiry α → Inquiry β → Prop where
  | done {a : α} {b : β} (h : R a b) : InStep R (.done a) (.done b)
  | cell (a : Address) {next : Answer → Inquiry α} {next' : Answer → Inquiry β}
      (h : ∀ answer, InStep R (next answer) (next' answer)) : InStep R (.cell a next) (.cell a next')

namespace InStep

theorem bind {f : α → Inquiry γ} {g : β → Inquiry δ} (h : InStep R t u)
    (hf : ∀ a b, R a b → InStep S (f a) (g b)) : InStep S (t.bind f) (u.bind g) := by
  induction h with
  | done h => exact hf _ _ h
  | cell a _ ih => exact .cell a ih

theorem refl {R : α → α → Prop} (hR : ∀ a, R a a) (t : Inquiry α) : InStep R t t := by
  induction t with
  | done a => exact .done (hR a)
  | cell a next ih => exact .cell a ih

theorem mono {R' : α → β → Prop} (h : InStep R t u) (hR : ∀ a b, R a b → R' a b) : InStep R' t u := by
  induction h with
  | done h => exact .done (hR _ _ h)
  | cell a _ ih => exact .cell a ih

theorem eq {t u : Inquiry α} (h : InStep Eq t u) : t = u := by
  induction h with
  | done h => rw [h]
  | cell a _ ih => exact congrArg (Inquiry.cell a) (funext ih)

/-- What is made of related results is the same, after the same requests. -/
theorem map_run {m : Type → Type} [Monad m] [LawfulMonad m] {f : α → γ} {g : β → γ} (h : InStep R t u)
    (hfg : ∀ a b, R a b → f a = g b) (ask : Address → m Answer) : f <$> t.run ask = g <$> u.run ask := by
  induction h with
  | done h => rw [run, run, map_pure, map_pure, hfg _ _ h]
  | cell a _ ih => simp only [run, map_bind, ih]

end InStep

theorem bind_assoc (t : Inquiry α) (f : α → Inquiry β) (g : β → Inquiry γ) :
    (t.bind f).bind g = t.bind fun a => (f a).bind g := by
  induction t with
  | done a => rfl
  | cell a next ih => exact congrArg (cell a) (funext ih)

end Inquiry

theorem Reading.cells_bind {α β : Type} (extent : Option String → Option Extent) (t : Reading α) (f : α → Reading β) :
    (t.bind f).cells extent = (t.cells extent).bind fun a => (f a).cells extent := by
  rw [bind_eq_extend]
  induction t with
  | done a => rfl
  | cell a next ih => exact congrArg (Inquiry.cell a) (funext ih)
  | extent sheet next ih => exact ih _
  | grid r next ih =>
    rw [extend, cells, cells, Inquiry.bind_assoc]
    exact congrArg (Inquiry.bind · (Inquiry.grid extent r)) (funext ih)

namespace Readings

variable {α β : Type}

/-- The questions of a computation that may fail. -/
def cells (extent : Option String → Option Extent) (t : Readings α) : Inquiry (Except FormulaError α) :=
  t.run.cells extent

/-- The outcome of a computation over a source. -/
def outcome {m : Type → Type} [Monad m] (src : CellSource m) (t : Readings α) : ExceptT FormulaError m α :=
  ExceptT.mk (t.run.run src)

theorem cells_bind (extent : Option String → Option Extent) (t : Readings α) (f : α → Readings β) :
    (t >>= f).cells extent = (t.cells extent).bind fun
      | .ok a => (f a).cells extent
      | .error fault => .done (.error fault) := by
  refine (Reading.cells_bind extent t.run _).trans (congrArg (Inquiry.bind · (t.cells extent)) (funext ?_))
  intro outcome
  cases outcome <;> rfl

theorem inStep_bind {α' β' : Type} {extent : Option String → Option Extent} {R : α → α' → Prop} {S : β → β' → Prop}
    {t : Readings α} {u : Readings α'} {f : α → Readings β} {g : α' → Readings β'}
    (h : (t.cells extent).InStep (BothEnd R) (u.cells extent))
    (hf : ∀ a b, R a b → ((f a).cells extent).InStep (BothEnd S) ((g b).cells extent)) :
    ((t >>= f).cells extent).InStep (BothEnd S) ((u >>= g).cells extent) := by
  rw [cells_bind, cells_bind]
  refine h.bind fun _ _ hR => ?_
  cases hR with
  | failed fault => exact .done (.failed fault)
  | ok h => exact hf _ _ h

end Readings

/-! ## Blanks -/

/-- Values without the blanks among them. -/
def filled (vs : List Value) : List Value := vs.filter fun v => !v.isEmpty

@[simp] theorem filled_empty_cons (vs : List Value) : filled (.empty :: vs) = filled vs := rfl

theorem filled_cons_congr {vs ws : List Value} (v : Value) (h : filled vs = filled ws) :
    filled (v :: vs) = filled (v :: ws) := by
  rw [filled, filled, List.filter_cons, List.filter_cons, ← filled, ← filled, h]

@[simp] theorem filled_append (vs ws : List Value) : filled (vs ++ ws) = filled vs ++ filled ws :=
  List.filter_append ..

theorem filled_reverse (vs : List Value) : filled vs.reverse = (filled vs).reverse := List.filter_reverse ..

/-! ## A range and its part with data -/

section Clipping

variable {sheet : Option String} {e : Option Extent}

/-- Whether a cell is read. -/
abbrev Extent.reads (e : Option Extent) (row column : Nat) : Prop := e.all fun e => e.holds row column

theorem filled_blanks (n : Nat) : filled (List.replicate n .empty) = [] := by
  rw [filled, List.filter_replicate]
  rfl

namespace Inquiry

theorem row_blank {r : Nat} (count : Nat) : ∀ {column : Nat} {read : List Value},
    (∀ j < count, ¬Extent.reads e r (column + j)) →
    Inquiry.row sheet e r column read count = .done (.ok (read.reverse ++ List.replicate count .empty)) := by
  induction count with
  | zero => exact fun _ => by rw [Inquiry.row, List.replicate_zero, List.append_nil]
  | succ count ih =>
    intro column read hblank
    have hfirst : ¬Extent.reads e r column := hblank 0 (Nat.succ_pos count)
    rw [Inquiry.row, if_neg hfirst, ih, List.reverse_cons, List.append_assoc, List.replicate_succ]
    · rfl
    · intro j hj
      rw [Nat.add_assoc, Nat.add_comm 1]
      exact hblank (j + 1) (Nat.succ_lt_succ hj)

theorem rows_blank {column columns : Nat} (count : Nat) : ∀ {row : Nat} {read : Grid},
    (∀ i < count, ∀ j < columns, ¬Extent.reads e (row + i) (column + j)) →
    Inquiry.rows sheet e row column columns read count
      = .done (.ok (read.reverse ++ List.replicate count (List.replicate columns .empty))) := by
  induction count with
  | zero => exact fun _ => by rw [Inquiry.rows, List.replicate_zero, List.append_nil]
  | succ count ih =>
    intro row read hblank
    have hrest : ∀ i < count, ∀ j < columns, ¬Extent.reads e (row + 1 + i) (column + j) := fun i hi => by
      rw [Nat.add_assoc, Nat.add_comm 1]
      exact hblank (i + 1) (Nat.succ_lt_succ hi)
    have hfirst : Inquiry.row sheet e row column [] columns = .done (.ok (List.replicate columns .empty)) :=
      row_blank columns (hblank 0 (Nat.succ_pos count))
    rw [Inquiry.rows, hfirst, Inquiry.bind]
    dsimp only
    rw [ih hrest, List.reverse_cons, List.append_assoc, List.replicate_succ]
    rfl

/-- A row of which only blanks are left out. -/
theorem row_clipped {r : Nat} {count' : Nat} : ∀ {count column : Nat} {read read' : List Value}, count' ≤ count →
    (∀ j < count, count' ≤ j → ¬Extent.reads e r (column + j)) → filled read = filled read' →
    (Inquiry.row sheet e r column read count').InStep (BothEnd fun vs ws => filled vs = filled ws)
      (Inquiry.row sheet e r column read' count) := by
  induction count' with
  | zero =>
    intro count column read read' _ hblank hread
    rw [row_blank count fun j hj => hblank j hj (Nat.zero_le j)]
    refine .done (.ok ?_)
    rw [filled_append, filled_blanks, List.append_nil, filled_reverse, filled_reverse, hread]
  | succ count' ih =>
    intro count column read read' hle hblank hread
    obtain ⟨count, rfl⟩ := Nat.exists_eq_add_one_of_ne_zero (Nat.ne_zero_of_lt hle)
    have hrest : ∀ j < count, count' ≤ j → ¬Extent.reads e r (column + 1 + j) := fun j hj hle' => by
      rw [Nat.add_assoc, Nat.add_comm 1]
      exact hblank (j + 1) (Nat.succ_lt_succ hj) (Nat.succ_le_succ hle')
    rw [Inquiry.row, Inquiry.row]
    split
    · refine .cell _ fun answer => ?_
      cases answer with
      | error fault => exact .done (.failed fault)
      | ok v => exact ih (Nat.le_of_succ_le_succ hle) hrest (filled_cons_congr v hread)
    · exact ih (Nat.le_of_succ_le_succ hle) hrest hread

/-- Rows of which only blanks are left out. -/
theorem rows_clipped {column columns columns' : Nat} (hcolumns : columns' ≤ columns) {count' : Nat} :
    ∀ {count row : Nat} {read read' : Grid}, count' ≤ count →
    (∀ i < count, ∀ j < columns, count' ≤ i ∨ columns' ≤ j → ¬Extent.reads e (row + i) (column + j)) →
    filled read.reverse.flatten = filled read'.reverse.flatten →
    (Inquiry.rows sheet e row column columns' read count').InStep
      (BothEnd fun g h => filled g.flatten = filled h.flatten)
      (Inquiry.rows sheet e row column columns read' count) := by
  induction count' with
  | zero =>
    intro count row read read' _ hblank hread
    rw [rows_blank count fun i hi j hj => hblank i hi j hj (Or.inl (Nat.zero_le i))]
    refine .done (.ok ?_)
    rw [List.flatten_append, List.flatten_replicate_replicate, filled_append, filled_blanks, List.append_nil, hread]
  | succ count' ih =>
    intro count row read read' hle hblank hread
    obtain ⟨count, rfl⟩ := Nat.exists_eq_add_one_of_ne_zero (Nat.ne_zero_of_lt hle)
    have hrest : ∀ i < count, ∀ j < columns, count' ≤ i ∨ columns' ≤ j →
        ¬Extent.reads e (row + 1 + i) (column + j) := fun i hi j hj h => by
      rw [Nat.add_assoc, Nat.add_comm 1]
      exact hblank (i + 1) (Nat.succ_lt_succ hi) j hj (h.imp_left Nat.succ_le_succ)
    have hrow : (Inquiry.row sheet e row column [] columns').InStep (BothEnd fun vs ws => filled vs = filled ws)
        (Inquiry.row sheet e row column [] columns) :=
      row_clipped hcolumns (fun j hj h => hblank 0 (Nat.succ_pos count) j hj (Or.inr h)) rfl
    refine hrow.bind fun _ _ h => ?_
    cases h with
    | failed fault => exact .done (.failed fault)
    | ok h =>
      refine ih (Nat.le_of_succ_le_succ hle) hrest ?_
      rw [List.reverse_cons, List.reverse_cons, List.flatten_append, List.flatten_append, filled_append, filled_append,
        hread, List.flatten_singleton, List.flatten_singleton, h]

end Inquiry

/-! ## Clipping -/

variable {r part : CellRange} {e : Extent} {extent : Option String → Option Extent}

theorem Extent.holds_iff {row column : Nat} : e.holds row column ↔ row < e.rows ∧ column < e.columns := by
  rw [Extent.holds, Bool.and_eq_true, decide_eq_true_iff, decide_eq_true_iff]

/-- Of what is left out of a range, nothing lies within the extent. -/
theorem CellRange.clip_eq_some (h : r.clip e = some part) :
    part.sheet = r.sheet ∧ part.top = r.top ∧ part.left = r.left ∧ part.rowCount ≤ r.rowCount ∧
      part.columnCount ≤ r.columnCount ∧
      ∀ i < r.rowCount, ∀ j < r.columnCount, part.rowCount ≤ i ∨ part.columnCount ≤ j →
        ¬e.holds (r.top + i) (r.left + j) := by
  unfold CellRange.clip at h
  dsimp only at h
  split at h
  · cases h
  · split at h
    · cases h
    · cases h
      simp only [Extent.holds_iff, sheet, top, left, rowCount, columnCount, bottom, right] at *
      refine ⟨trivial, ?_, ?_, ?_, ?_, fun i hi j hj hout => ?_⟩ <;> omega

theorem CellRange.clip_eq_none (h : r.clip e = none) :
    ∀ i < r.rowCount, ∀ j < r.columnCount, ¬e.holds (r.top + i) (r.left + j) := by
  intro i hi j hj hholds
  rw [Extent.holds_iff] at hholds
  unfold CellRange.clip at h
  dsimp only at h
  split at h
  · omega
  · split at h
    · simp only [rowCount, columnCount, top, left, bottom, right] at *
      omega
    · cases h

/-- The questions about a range are those about its cells. -/
theorem cells_grid (r : CellRange) : (Readings.grid r).cells extent = Inquiry.grid extent r := by
  have hdone : ∀ t : Inquiry (Except FormulaError Grid), t.bind .done = t := fun t => by
    induction t with
    | done _ => rfl
    | cell a next ih => exact congrArg (Inquiry.cell a) (funext ih)
  exact hdone _

theorem cells_usedGrid (r : CellRange) :
    (Readings.usedGrid r).cells extent = match extent r.sheet with
      | none => (Readings.grid r).cells extent
      | some e => match r.clip e with
        | some part => (Readings.grid part).cells extent
        | none => .done (.ok []) := by
  change Readings.cells extent (match extent r.sheet with
    | none => Readings.grid r
    | some e => match r.clip e with
      | some part => Readings.grid part
      | none => pure []) = _
  cases extent r.sheet with
  | none => rfl
  | some e =>
    dsimp only
    cases r.clip e <;> rfl

/-- The part of a range that holds data is asked for as the whole range is. -/
theorem grid_clipped (r : CellRange) :
    ((Readings.usedGrid r).cells extent).InStep (BothEnd fun g h => filled g.flatten = filled h.flatten)
      ((Readings.grid r).cells extent) := by
  rw [cells_usedGrid]
  cases hextent : extent r.sheet with
  | none => exact .refl (fun outcome => by cases outcome <;> constructor; rfl) _
  | some e =>
    dsimp only
    cases hclip : r.clip e with
    | none =>
      have hout : ∀ i < r.rowCount, ∀ j < r.columnCount, ¬Extent.reads (some e) (r.top + i) (r.left + j) :=
        CellRange.clip_eq_none hclip
      rw [cells_grid, Inquiry.grid, hextent]
      change (Inquiry.rows r.sheet (some e) r.top r.left r.columnCount [] 0).InStep _ _
      exact Inquiry.rows_clipped (Nat.le_refl _) (Nat.zero_le _) (fun i hi j hj _ => hout i hi j hj) rfl
    | some part =>
      obtain ⟨hsheet, htop, hleft, hrows, hcolumns, hout⟩ := CellRange.clip_eq_some hclip
      dsimp only
      rw [cells_grid, cells_grid, Inquiry.grid, Inquiry.grid, hsheet, htop, hleft, hextent]
      exact Inquiry.rows_clipped hcolumns hrows hout rfl

/-! ## Cells that are read -/

/-- Asks for cells in order, up to the first failure. -/
def Inquiry.all : List Address → Inquiry (Except FormulaError Unit)
  | [] => .done (.ok ())
  | a :: rest => .cell a fun
    | .error fault => .done (.error fault)
    | .ok _ => Inquiry.all rest

namespace Inquiry

theorem all_append (as bs : List Address) :
    Inquiry.all (as ++ bs) = (Inquiry.all as).bind fun
      | .error fault => .done (.error fault)
      | .ok _ => Inquiry.all bs := by
  induction as with
  | nil => rfl
  | cons a as ih =>
    refine congrArg (cell a) (funext fun answer => ?_)
    cases answer with
    | error fault => rfl
    | ok v => exact ih

theorem run_discard {m : Type → Type} [Monad m] [LawfulMonad m] {α : Type} (x : m (Except FormulaError α)) :
    (discard (ExceptT.mk x) : ExceptT FormulaError m Unit).run = (Except.map fun _ => ()) <$> x := by
  rw [discard, LawfulFunctor.map_const, Function.comp_apply, ExceptT.run_map]
  rfl

theorem run_all {m : Type → Type} [Monad m] [LawfulMonad m] (ask : Address → m Answer) (as : List Address) :
    (Inquiry.all as).run ask = (forM as fun a => discard (ExceptT.mk (ask a)) : ExceptT FormulaError m Unit).run := by
  induction as with
  | nil => rfl
  | cons a as ih =>
    rw [List.forM_cons, ExceptT.run_bind, run_discard, bind_map_left, all, run]
    congr 1
    funext answer
    cases answer with
    | error fault => rfl
    | ok v => exact ih

end Inquiry

/-- The cells of a range that are read, row by row. -/
def CellRange.within (r : CellRange) (e : Option Extent) : List Address :=
  (List.range' r.top r.rowCount).flatMap fun row =>
    (List.range' r.left r.columnCount).filterMap fun column =>
      if e.all fun e => e.holds row column then some { row, column, sheet := r.sheet } else none

namespace CellRange

/-- The order of a text: row by row. -/
def Precedes (a b : Address) : Prop := a.row < b.row ∨ a.row = b.row ∧ a.column < b.column

theorem mem_within {e : Option Extent} {a : Address} :
    a ∈ r.within e ↔ ∃ row column, a = { row, column, sheet := r.sheet } ∧ r.contains row column ∧
      e.all fun e => e.holds row column := by
  have hcontains : ∀ row column, r.contains row column ↔
      row ∈ List.range' r.top r.rowCount ∧ column ∈ List.range' r.left r.columnCount := by
    intro row column
    simp only [contains, Bool.and_eq_true, decide_eq_true_eq, List.mem_range'_1]
    unfold rowCount columnCount bottom right top left
    omega
  simp only [within, List.mem_flatMap, List.mem_filterMap, Option.ite_none_right_eq_some, Option.some.injEq, hcontains]
  constructor
  · rintro ⟨row, hrow, column, hcolumn, hholds, rfl⟩
    exact ⟨row, column, rfl, ⟨hrow, hcolumn⟩, hholds⟩
  · rintro ⟨row, column, rfl, ⟨hrow, hcolumn⟩, hholds⟩
    exact ⟨row, hrow, column, hcolumn, hholds, rfl⟩

theorem pairwise_within (r : CellRange) (e : Option Extent) : (r.within e).Pairwise Precedes := by
  have hcell : ∀ {row : Nat} {columns : List Nat} {a : Address},
      a ∈ columns.filterMap (fun column =>
        if e.all fun e => e.holds row column then some { row, column, sheet := r.sheet : Address } else none) →
      a.row = row := by
    intro row columns a ha
    obtain ⟨column, -, h⟩ := List.mem_filterMap.1 ha
    rw [← Option.some.inj (Option.ite_none_right_eq_some.1 h).2]
  refine List.pairwise_flatMap.2 ⟨fun row _ => ?_, ?_⟩
  · refine List.pairwise_filterMap.2 ((List.pairwise_lt_range' 1).imp fun hlt a ha b hb => ?_)
    rw [← Option.some.inj (Option.ite_none_right_eq_some.1 ha).2,
      ← Option.some.inj (Option.ite_none_right_eq_some.1 hb).2]
    exact Or.inr ⟨rfl, hlt⟩
  · refine (List.pairwise_lt_range' 1).imp fun hlt a ha b hb => Or.inl ?_
    rwa [hcell ha, hcell hb]

end CellRange

theorem inStep_row {sheet : Option String} {e : Option Extent} {row : Nat} (count : Nat) :
    ∀ (column : Nat) (read : List Value),
      (Inquiry.row sheet e row column read count).InStep (BothEnd fun _ _ => True)
        (Inquiry.all ((List.range' column count).filterMap fun column =>
          if e.all fun e => e.holds row column then some { row, column, sheet } else none)) := by
  induction count with
  | zero => exact fun _ _ => .done (.ok trivial)
  | succ count ih =>
    intro column read
    rw [Inquiry.row, List.range'_succ, List.filterMap_cons]
    split
    · refine .cell _ fun answer => ?_
      cases answer with
      | error fault => exact .done (.failed fault)
      | ok v => exact ih (column + 1) (v :: read)
    · exact ih (column + 1) (.empty :: read)

theorem inStep_rows {sheet : Option String} {e : Option Extent} {column columns : Nat} (count : Nat) :
    ∀ (row : Nat) (read : Grid),
      (Inquiry.rows sheet e row column columns read count).InStep (BothEnd fun _ _ => True)
        (Inquiry.all ((List.range' row count).flatMap fun row => (List.range' column columns).filterMap fun column =>
          if e.all fun e => e.holds row column then some { row, column, sheet } else none)) := by
  induction count with
  | zero => exact fun _ _ => .done (.ok trivial)
  | succ count ih =>
    intro row read
    rw [Inquiry.rows, List.range'_succ, List.flatMap_cons, Inquiry.all_append]
    refine (inStep_row columns column []).bind fun _ _ h => ?_
    cases h with
    | failed fault => exact .done (.failed fault)
    | ok _ => exact ih (row + 1) _

/-- A range asks for its cells one by one. -/
theorem inStep_grid (r : CellRange) :
    ((Readings.grid r).cells extent).InStep (BothEnd fun _ _ => True) (Inquiry.all (r.within (extent r.sheet))) := by
  rw [cells_grid]
  exact inStep_rows r.rowCount r.top []

end Clipping

section Effects

variable {m : Type → Type} [Monad m] [LawfulMonad m] (extent : Option String → Option Extent) (ask : Address → m Answer)

theorem Readings.outcome_plain {α : Type} (t : Readings α) :
    t.outcome (.plain ask extent) = ExceptT.mk ((t.cells extent).run ask) :=
  congrArg ExceptT.mk (Inquiry.run_plain ask extent t.run)

/-- Without what it comes to, reading a range is asking for its cells. -/
theorem discard_grid (r : CellRange) : discard ((Readings.grid r).outcome (.plain ask extent))
    = (forM (r.within (extent r.sheet)) fun a => discard (ExceptT.mk (ask a)) : ExceptT FormulaError m Unit) := by
  rw [Readings.outcome_plain]
  refine ExceptT.ext ((Inquiry.run_discard _).trans ?_)
  rw [← Inquiry.run_all, ← id_map ((Inquiry.all _).run ask)]
  refine (inStep_grid r).map_run (fun _ _ h => ?_) ask
  cases h <;> rfl

theorem discard_usedGrid (r : CellRange) : discard ((Readings.usedGrid r).outcome (.plain ask extent))
    = discard ((Readings.grid r).outcome (.plain ask extent)) := by
  rw [Readings.outcome_plain, Readings.outcome_plain]
  refine ExceptT.ext ((Inquiry.run_discard _).trans (Eq.trans ?_ (Inquiry.run_discard _).symm))
  refine (grid_clipped r).map_run (fun _ _ h => ?_) ask
  cases h <;> rfl

end Effects

end Spreadsheet
