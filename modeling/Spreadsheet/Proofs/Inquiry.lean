import Spreadsheet.Evaluation.Reading

/-!
# Computations cell by cell

A range is read cell by cell and an extent is known beforehand, so a `Reading` comes down to questions
about single cells. In this form it can be replayed: from answers that are known, possibly not all of
them, follow the reads, and the result once every cell it needs is known.

* `Inquiry` : a computation that asks about one cell after the other; `Reading.cells` brings a
  computation into this form, and `run_plain` says that nothing is lost;
* `Inquiry.replay` : the result and the reads under answers that may be missing;
* `Inquiry.Asks` : a cell is asked about, whatever the missing answers turn out to be. What has been
  replayed has asked about all such cells (`mem_of_asks`), and more answers make for more of them
  (`Asks.refine`).
-/

namespace Spreadsheet

/-- What a question about a cell is answered with. -/
abbrev Answer := Except FormulaError Value

/-- A computation that asks about one cell after the other. -/
inductive Inquiry (α : Type) : Type where
  | done (result : α)
  | cell (a : Address) (next : Answer → Inquiry α)

namespace Inquiry

variable {α β : Type}

/-- One computation after another. -/
def bind (f : α → Inquiry β) : Inquiry α → Inquiry β
  | done a => f a
  | cell a next => cell a fun answer => (next answer).bind f

/-- Asks for every cell in a monad. -/
def run {m : Type → Type} [Monad m] (ask : Address → m Answer) : Inquiry α → m α
  | done a => pure a
  | cell a next => do
    let answer ← ask a
    (next answer).run ask

/-- The questions of `CellSource.row`. -/
def row (sheet : Option String) (e : Option Extent) (row column : Nat) (read : List Value) :
    (count : Nat) → Inquiry (Except FormulaError (List Value))
  | 0 => done (.ok read.reverse)
  | count + 1 =>
    if e.all fun e => e.holds row column then
      cell { row, column, sheet } fun
        | .error fault => done (.error fault)
        | .ok v => Inquiry.row sheet e row (column + 1) (v :: read) count
    else Inquiry.row sheet e row (column + 1) (.empty :: read) count

/-- The questions of `CellSource.rows`. -/
def rows (sheet : Option String) (e : Option Extent) (row column columns : Nat) (read : Grid) :
    (count : Nat) → Inquiry (Except FormulaError Grid)
  | 0 => done (.ok read.reverse)
  | count + 1 =>
    (Inquiry.row sheet e row column [] columns).bind fun
      | .error fault => done (.error fault)
      | .ok vs => rows sheet e (row + 1) column columns (vs :: read) count

/-- The questions about the cells of a range. -/
def grid (extent : Option String → Option Extent) (r : CellRange) : Inquiry (Except FormulaError Grid) :=
  rows r.sheet (extent r.sheet) r.top r.left r.columnCount [] r.rowCount

end Inquiry

/-- The questions of a computation, one after the other. -/
def Reading.cells {α : Type} (extent : Option String → Option Extent) : Reading α → Inquiry α
  | .done a => .done a
  | .cell a next => .cell a fun answer => (next answer).cells extent
  | .extent s next => (next (extent s)).cells extent
  | .grid r next => (Inquiry.grid extent r).bind fun answer => (next answer).cells extent

/-! ## Running -/

namespace Inquiry

variable {m : Type → Type} [Monad m] [LawfulMonad m] {α β : Type}

theorem run_bind (ask : Address → m Answer) (t : Inquiry α) (f : α → Inquiry β) :
    (t.bind f).run ask = t.run ask >>= fun a => (f a).run ask := by
  induction t with
  | done a => simp [bind, run]
  | cell a next ih => simp [bind, run, ih]

theorem run_row (src : CellSource m) (sheet : Option String) (e : Option Extent) (r count : Nat) :
    ∀ (column : Nat) (read : List Value),
      src.row sheet e r column read count = (Inquiry.row sheet e r column read count).run src.cell := by
  induction count with
  | zero => intro column read; rfl
  | succ count ih =>
    intro column read
    rw [CellSource.row, Inquiry.row]
    split
    · simp only [run]
      congr 1
      funext answer
      cases answer with
      | error fault => rfl
      | ok v => exact ih (column + 1) (v :: read)
    · rw [pure_bind]
      exact ih (column + 1) (.empty :: read)

theorem run_rows (src : CellSource m) (sheet : Option String) (e : Option Extent)
    (column columns count : Nat) : ∀ (r : Nat) (read : Grid),
      src.rows sheet e r column columns read count
        = (Inquiry.rows sheet e r column columns read count).run src.cell := by
  induction count with
  | zero => intro r read; rfl
  | succ count ih =>
    intro r read
    rw [CellSource.rows, Inquiry.rows, run_bind, run_row]
    congr 1
    funext answer
    cases answer with
    | error fault => rfl
    | ok vs => exact ih (r + 1) (vs :: read)

/-- A range is read by its questions once it has been announced. -/
theorem run_grid (src : CellSource m) (r : CellRange) :
    src.grid r = src.announce r >>= fun _ => (Inquiry.grid src.extent r).run src.cell := by
  rw [CellSource.grid, Inquiry.grid, run_rows]

/-- A source without announcements is asked nothing but the questions. -/
theorem run_plain (ask : Address → m Answer) (extent : Option String → Option Extent) (t : Reading α) :
    t.run (.plain ask extent) = (t.cells extent).run ask := by
  induction t with
  | done a => rfl
  | cell a next ih =>
    simp only [Reading.run, Reading.cells, run, ih]
    rfl
  | extent s next ih => exact ih (extent s)
  | grid r next ih =>
    simp only [Reading.run, Reading.cells, run_bind, run_grid, ih]
    simp only [CellSource.plain, pure_bind]

end Inquiry

/-! ## Replaying -/

namespace Inquiry

variable {α β : Type} {known known' : Address → Option Answer}

/-- The result, and the reads behind those in `reads`, the last one first. There is none if a cell
without an answer is needed. -/
def replay (known : Address → Option Answer) : Inquiry α → List CellRead → Option (α × List CellRead)
  | done a, reads => some (a, reads)
  | cell a next, reads =>
    match known a with
    | none => none
    | some answer => (next answer).replay known (⟨a, answer⟩ :: reads)

theorem replay_cell_eq_some {a : Address} {next : Answer → Inquiry α} {reads : List CellRead}
    {result : α × List CellRead} :
    (cell a next).replay known reads = some result ↔
      ∃ answer, known a = some answer ∧ (next answer).replay known (⟨a, answer⟩ :: reads) = some result := by
  rw [replay]
  cases known a <;> simp

theorem replay_bind (t : Inquiry α) (f : α → Inquiry β) (reads : List CellRead) :
    (t.bind f).replay known reads = (t.replay known reads).bind fun r => (f r.1).replay known r.2 := by
  induction t generalizing reads with
  | done a => rfl
  | cell a next ih =>
    simp only [bind, replay]
    cases known a with
    | none => rfl
    | some answer => exact ih answer _

/-- The reads are put in front, and each has the answer that is known. -/
theorem reads_of_replay {t : Inquiry α} {reads : List CellRead} {result : α} {reads' : List CellRead}
    (h : t.replay known reads = some (result, reads')) :
    ∃ new, reads' = new ++ reads ∧ ∀ r ∈ new, known r.address = some r.answer := by
  induction t generalizing reads with
  | done a =>
    cases h
    exact ⟨[], rfl, by simp⟩
  | cell a next ih =>
    obtain ⟨answer, hanswer, h⟩ := replay_cell_eq_some.1 h
    obtain ⟨new, rfl, hnew⟩ := ih answer h
    refine ⟨new ++ [⟨a, answer⟩], by simp, fun r hr => ?_⟩
    rcases List.mem_append.1 hr with hr | hr
    · exact hnew r hr
    · rw [List.mem_singleton.1 hr]
      exact hanswer

theorem answer_of_replay {t : Inquiry α} {result : α} {reads : List CellRead}
    (h : t.replay known [] = some (result, reads)) {r : CellRead} (hr : r ∈ reads) :
    known r.address = some r.answer := by
  obtain ⟨new, rfl, hnew⟩ := reads_of_replay h
  exact hnew r (by simpa using hr)

/-- Only the answers that were read matter. -/
theorem replay_congr {t : Inquiry α} {reads : List CellRead} {result : α} {reads' : List CellRead}
    (h : t.replay known reads = some (result, reads'))
    (hknown : ∀ r ∈ reads', known' r.address = some r.answer) :
    t.replay known' reads = some (result, reads') := by
  induction t generalizing reads with
  | done a => exact h
  | cell a next ih =>
    obtain ⟨answer, -, h⟩ := replay_cell_eq_some.1 h
    obtain ⟨new, rfl, -⟩ := reads_of_replay h
    exact replay_cell_eq_some.2 ⟨answer, hknown ⟨a, answer⟩ (by simp), ih answer h⟩

/-- More answers make for the same result. -/
theorem replay_mono (hknown : ∀ a answer, known a = some answer → known' a = some answer) {t : Inquiry α}
    {reads : List CellRead} {result : α × List CellRead} (h : t.replay known reads = some result) :
    t.replay known' reads = some result := by
  induction t generalizing reads with
  | done a => exact h
  | cell a next ih =>
    obtain ⟨answer, hanswer, h⟩ := replay_cell_eq_some.1 h
    exact replay_cell_eq_some.2 ⟨answer, hknown a answer hanswer, ih answer h⟩

/-- The result is that of asking for the answers themselves. -/
theorem run_of_replay {t : Inquiry α} {reads : List CellRead} {result : α} {reads' : List CellRead}
    (h : t.replay known reads = some (result, reads')) : t.run known = some result := by
  induction t generalizing reads with
  | done a =>
    cases h
    rfl
  | cell a next ih =>
    obtain ⟨answer, hanswer, h⟩ := replay_cell_eq_some.1 h
    rw [run, hanswer]
    exact ih answer h

/-! ## What is asked in any case -/

/-- What a cell may still be answered with: the known answer, or any value while there is none. -/
def Possible (known : Address → Option Answer) (a : Address) (answer : Answer) : Prop :=
  known a = some answer ∨ known a = none ∧ ∃ v, answer = .ok v

theorem Possible.eq {a : Address} {answer answer' : Answer} (h : Possible known a answer)
    (ha : known a = some answer') : answer = answer' := by
  rcases h with h | ⟨h, -⟩
  · exact Option.some.inj (h.symm.trans ha)
  · rw [ha] at h
    cases h

/-- A computation asks about `a`, whatever the missing answers turn out to be. -/
def Asks (known : Address → Option Answer) (a : Address) : Inquiry α → Prop
  | done _ => False
  | cell b next => a = b ∨ ∀ answer, Possible known b answer → (next answer).Asks known a

/-- More is known in `known'` than in `known`. -/
def Refines (known known' : Address → Option Answer) : Prop :=
  ∀ a answer, Possible known' a answer → Possible known a answer

theorem Asks.refine {a : Address} (hr : Refines known known') {t : Inquiry α} (h : t.Asks known a) :
    t.Asks known' a := by
  induction t with
  | done _ => exact h
  | cell b next ih =>
    refine h.imp id fun hnext answer hp => ih answer (hnext answer (hr b answer hp))

theorem Asks.bind {a : Address} {t : Inquiry α} (h : t.Asks known a) (f : α → Inquiry β) :
    (t.bind f).Asks known a := by
  induction t with
  | done _ => exact h.elim
  | cell b next ih => exact h.imp id fun hnext answer hp => ih answer (hnext answer hp)

/-- What is asked after a part that can be replayed is asked by the whole. -/
theorem Asks.of_replay {a : Address} {t : Inquiry α} {f : α → Inquiry β} {reads reads' : List CellRead}
    {result : α} (h : t.replay known reads = some (result, reads')) (ha : (f result).Asks known a) :
    (t.bind f).Asks known a := by
  induction t generalizing reads with
  | done b =>
    cases h
    exact ha
  | cell b next ih =>
    obtain ⟨answer, hanswer, h⟩ := replay_cell_eq_some.1 h
    refine Or.inr fun answer' hp => ?_
    rw [hp.eq hanswer]
    exact ih answer h

/-- Every end that a computation may come to satisfies `P`. -/
def Ends (known : Address → Option Answer) (P : α → Prop) : Inquiry α → Prop
  | done a => P a
  | cell b next => ∀ answer, Possible known b answer → (next answer).Ends known P

theorem Ends.asks_bind {P : α → Prop} {a : Address} {t : Inquiry α} {f : α → Inquiry β}
    (ht : t.Ends known P) (hf : ∀ x, P x → (f x).Asks known a) : (t.bind f).Asks known a := by
  induction t with
  | done x => exact hf x ht
  | cell b next ih => exact Or.inr fun answer hp => ih answer (ht answer hp)

/-- No cell of a sheet can be answered with a failure. -/
def Readable (known : Address → Option Answer) (sheet : Option String) : Prop :=
  ∀ a answer, a.sheet = sheet → Possible known a answer → ∃ v, answer = .ok v

section Readable

variable {sheet : Option String} {e : Option Extent} (hsheet : Readable known sheet)
include hsheet

theorem row_ends (r count : Nat) : ∀ (column : Nat) (read : List Value),
    (Inquiry.row sheet e r column read count).Ends known fun end_ => ∃ vs, end_ = .ok vs := by
  induction count with
  | zero => intro column read; exact ⟨_, rfl⟩
  | succ count ih =>
    intro column read
    rw [Inquiry.row]
    split
    · intro answer hp
      obtain ⟨v, rfl⟩ := hsheet _ answer rfl hp
      exact ih (column + 1) (v :: read)
    · exact ih (column + 1) (.empty :: read)

theorem row_asks {r c : Nat} (he : e.all fun e => e.holds r c) (count : Nat) :
    ∀ (column : Nat) (read : List Value), column ≤ c → c < column + count →
      (Inquiry.row sheet e r column read count).Asks known { row := r, column := c, sheet } := by
  induction count with
  | zero => intro column read _ _; omega
  | succ count ih =>
    intro column read hle hlt
    rw [Inquiry.row]
    by_cases hc : c = column
    · subst hc
      rw [if_pos he]
      exact Or.inl rfl
    · split
      · refine Or.inr fun answer hp => ?_
        obtain ⟨v, rfl⟩ := hsheet _ answer rfl hp
        exact ih (column + 1) (v :: read) (by omega) (by omega)
      · exact ih (column + 1) (.empty :: read) (by omega) (by omega)

theorem rows_asks {r c column columns : Nat} (he : e.all fun e => e.holds r c) (hle : column ≤ c)
    (hlt : c < column + columns) (count : Nat) : ∀ (row : Nat) (read : Grid), row ≤ r → r < row + count →
      (Inquiry.rows sheet e row column columns read count).Asks known { row := r, column := c, sheet } := by
  induction count with
  | zero => intro row read _ _; omega
  | succ count ih =>
    intro row read hrow hrow'
    rw [Inquiry.rows]
    by_cases hr : r = row
    · subst hr
      exact (row_asks hsheet he columns column [] hle hlt).bind _
    · refine (row_ends hsheet row columns column []).asks_bind ?_
      rintro _ ⟨vs, rfl⟩
      exact ih (row + 1) (vs :: read) (by omega) (by omega)

end Readable

/-- A range on a sheet without failures asks about each of its cells within the extent. -/
theorem grid_asks {extent : Option String → Option Extent} {r : CellRange} {row column : Nat}
    (hsheet : Readable known r.sheet) (hr : r.contains row column)
    (he : (extent r.sheet).all fun e => e.holds row column) :
    (grid extent r).Asks known { row, column, sheet := r.sheet } := by
  simp only [CellRange.contains, Bool.and_eq_true, decide_eq_true_eq] at hr
  obtain ⟨⟨⟨htop, hbottom⟩, hleft⟩, hright⟩ := hr
  exact rows_asks hsheet he hleft (by unfold CellRange.columnCount; omega) _ _ _ htop
    (by unfold CellRange.rowCount; omega)

/-- What a computation asks about in any case has been read by the time it is done. -/
theorem mem_of_asks {t : Inquiry α} {reads : List CellRead} {result : α} {reads' : List CellRead}
    (h : t.replay known reads = some (result, reads')) {a : Address} (ha : t.Asks known a) :
    ∃ answer, known a = some answer ∧ (⟨a, answer⟩ : CellRead) ∈ reads' := by
  induction t generalizing reads with
  | done _ => exact ha.elim
  | cell b next ih =>
    obtain ⟨answer, hanswer, h⟩ := replay_cell_eq_some.1 h
    rcases ha with rfl | ha
    · obtain ⟨new, rfl, -⟩ := reads_of_replay h
      exact ⟨answer, hanswer, by simp⟩
    · exact ih answer h (ha answer (Or.inl hanswer))

end Inquiry

end Spreadsheet
