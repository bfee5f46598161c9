import Spreadsheet.Calculation.Calculate
import Spreadsheet.Proofs.Inquiry

/-!
# What formulas can read

With the built-in functions a formula reads only cells that it mentions, and it never fails as one on a cycle does:
that failure is not theirs to give.

* `Reading.Within` : every question of a computation is about cells of a kind, and every end it may come to is of one;
* `Expr.references` : the ranges that an expression mentions, a cell being one;
* `evaluateFormula_within` : formulas read no other cells, if all functions are `Confined`;
* `confined_builtin` : the built-in functions are.
-/

namespace Spreadsheet

open Formula (Expr)

/-! ## Computations -/

/-- Not the failure of a formula on a cycle. -/
def Calm {α : Type} (x : Except FormulaError α) : Prop := ∀ cell, x ≠ .error (.circular cell)

/-- A range holds only cells of a kind. -/
def CellRange.Covers (P : Option String → Nat → Nat → Prop) (r : CellRange) : Prop :=
  ∀ row column, r.contains row column → P r.sheet row column

theorem CellRange.contains_topLeft (r : CellRange) : r.contains r.top r.left := by
  simp [contains, r.top_le_bottom, r.left_le_right]

theorem CellRange.Covers.clip {P : Option String → Nat → Nat → Prop} {r part : CellRange} {e : Extent}
    (h : r.Covers P) (hpart : r.clip e = some part) : part.Covers P := by
  intro row column hc
  unfold CellRange.clip at hpart
  split at hpart
  · cases hpart
  · simp only at hpart
    split at hpart
    · cases hpart
    · rename_i hne
      cases hpart
      refine h row column ?_
      simp only [CellRange.contains, Bool.and_eq_true, decide_eq_true_eq] at hc ⊢
      simp only [CellRange.top, CellRange.bottom, CellRange.left, CellRange.right] at hc hne ⊢
      omega

/-- Every question is about cells of a kind, and every end is of one, as long as no answer is the failure of a
formula on a cycle. -/
def Reading.Within {α : Type} (P : Option String → Nat → Nat → Prop) (Q : α → Prop) : Reading α → Prop
  | .done a => Q a
  | .cell a next => P a.sheet a.row a.column ∧ ∀ answer, Calm answer → (next answer).Within P Q
  | .extent sheet next => (∃ row column, P sheet row column) ∧ ∀ e, (next e).Within P Q
  | .grid r next => r.Covers P ∧ ∀ answer, Calm answer → (next answer).Within P Q

namespace Reading.Within

variable {α β : Type} {P : Option String → Nat → Nat → Prop} {Q : α → Prop} {R : β → Prop}

theorem extend {t : Reading α} {f : α → Reading β} (ht : t.Within P Q) (hf : ∀ a, Q a → (f a).Within P R) :
    (t.extend f).Within P R := by
  induction t with
  | done a => exact hf a ht
  | cell a next ih => exact ⟨ht.1, fun answer hc => ih answer (ht.2 answer hc)⟩
  | extent s next ih => exact ⟨ht.1, fun e => ih e (ht.2 e)⟩
  | grid r next ih => exact ⟨ht.1, fun answer hc => ih answer (ht.2 answer hc)⟩

end Reading.Within

/-- A computation that may fail reads only cells of a kind and fails in no way of a cycle. -/
def Readings.Within {α : Type} (P : Option String → Nat → Nat → Prop) (t : Readings α) : Prop :=
  Reading.Within P Calm t.run

namespace Readings.Within

variable {α β : Type} {P : Option String → Nat → Nat → Prop}

theorem pure (a : α) : Within P (pure a : Readings α) := nofun

theorem throw {fault : FormulaError} (h : ∀ cell, fault ≠ .circular cell) :
    Within P (throw fault : Readings α) := by
  rintro cell he
  exact h cell (Except.error.inj he)

theorem bind {t : Readings α} {f : α → Readings β} (ht : Within P t) (hf : ∀ a, Within P (f a)) :
    Within P (t >>= f) := by
  have hrun : (t >>= f).run = t.run.extend fun
      | .ok a => (f a).run
      | .error fault => .done (.error fault) := by
    rw [ExceptT.run_bind, ← Reading.bind_eq_extend]
    refine congrArg (Reading.bind t.run) (funext fun x => ?_)
    cases x <;> rfl
  rw [Within, hrun]
  refine Reading.Within.extend ht fun x hx => ?_
  cases x with
  | ok a => exact hf a
  | error fault => exact fun cell he => hx cell (by rw [Except.error.inj he])

theorem map {t : Readings α} (f : α → β) (ht : Within P t) : Within P (f <$> t) :=
  ht.bind fun a => pure (f a)

theorem attempt {t : Readings Value} (ht : Within P t) : Within P (Readings.attempt t) := by
  rw [Within, Readings.attempt, ExceptT.run_mk, Reading.bind_eq_extend]
  exact Reading.Within.extend ht fun _ _ => nofun

theorem liftExcept {outcome : Except FormulaError Value} (h : Calm outcome) :
    Within P (Function.callWith.liftExcept outcome) := h

theorem cell {a : Address} (h : P a.sheet a.row a.column) : Within P (Readings.cell a) :=
  ⟨h, fun _ hc => hc⟩

theorem grid {r : CellRange} (h : r.Covers P) : Within P (Readings.grid r) :=
  ⟨h, fun _ hc => hc⟩

/-- The part of a range that holds data lies within the range. -/
theorem usedGrid {r : CellRange} (h : r.Covers P) : Within P (Readings.usedGrid r) := by
  refine bind ⟨⟨r.top, r.left, h _ _ r.contains_topLeft⟩, fun _ _ => nofun⟩ fun e => ?_
  cases e with
  | none => exact grid h
  | some e =>
    cases hpart : r.clip e with
    | none =>
      simp only [hpart]
      exact pure []
    | some part =>
      simp only [hpart]
      exact grid (h.clip hpart)

end Readings.Within

-- the computations of formulas are not to be unfolded to see what they ask
attribute [irreducible] Readings.Within

/-! ## Functions -/

/-- A function adds no questions to those of its arguments, and does not fail as a formula on a cycle does. -/
def Implementation.Confined : Implementation → Prop
  | .eager apply => ∀ s values, Calm (apply s values)
  | .lazy apply => ∀ (P : Option String → Nat → Nat → Prop) s (arguments : List Argument),
      (∀ a ∈ arguments, (a.evaluate ()).Within P) → (apply s arguments).Within P

theorem confined_pureFunction (f : Surroundings → List Value → Outcome Value) : (pureFunction f).Confined :=
  fun _ _ => nofun

/-- All functions of a registry are confined. -/
def Registry.Confined (r : Registry) : Prop := ∀ entry ∈ r.entries, entry.2.implementation.Confined

namespace Logical

open Readings (Within)

variable {P : Option String → Nat → Nat → Prop}

theorem onCondition_within {condition : Argument} {next : Bool → Readings Value}
    (hc : (condition.evaluate ()).Within P) (hn : ∀ holds, (next holds).Within P) :
    (onCondition condition next).Within P := by
  refine hc.bind fun v => ?_
  cases truthOf v with
  | error e => exact .pure _
  | ok holds => exact hn holds

theorem ifElse_within {arguments : List Argument} (h : ∀ a ∈ arguments, (a.evaluate ()).Within P) :
    (ifElse arguments).Within P := by
  match arguments with
  | [] => exact .pure _
  | [_] => exact .pure _
  | condition :: consequent :: rest =>
    refine onCondition_within (h condition (by simp)) fun holds => ?_
    cases holds with
    | true => exact h consequent (by simp)
    | false =>
      cases rest with
      | nil => exact .pure _
      | cons alternative rest => exact h alternative (by simp)

theorem choose_within : ∀ {arguments : List Argument}, (∀ a ∈ arguments, (a.evaluate ()).Within P) →
    (choose arguments).Within P
  | [], _ => .pure _
  | [_], _ => .pure _
  | condition :: consequent :: rest, h => by
    refine onCondition_within (h condition (by simp)) fun holds => ?_
    cases holds with
    | true => exact h consequent (by simp)
    | false => exact choose_within fun a ha => h a (by simp [ha])

theorem ifs_within {arguments : List Argument} (h : ∀ a ∈ arguments, (a.evaluate ()).Within P) :
    (ifs arguments).Within P := by
  unfold ifs
  split
  · exact .throw fun _ => nofun
  · exact choose_within h

theorem ifError_within {arguments : List Argument} (h : ∀ a ∈ arguments, (a.evaluate ()).Within P) :
    (ifError arguments).Within P := by
  match arguments with
  | [] => exact .pure _
  | [_] => exact .pure _
  | [first, fallback] =>
    refine (h first (by simp)).attempt.bind fun outcome => ?_
    split
    · exact h fallback (by simp)
    · exact h fallback (by simp)
    · exact .pure _
  | _ :: _ :: _ :: _ => exact .pure _

theorem ifNotAvailable_within {arguments : List Argument} (h : ∀ a ∈ arguments, (a.evaluate ()).Within P) :
    (ifNotAvailable arguments).Within P := by
  match arguments with
  | [] => exact .pure _
  | [_] => exact .pure _
  | [first, fallback] =>
    refine (h first (by simp)).bind fun v => ?_
    split
    · exact h fallback (by simp)
    · exact .pure _
  | _ :: _ :: _ :: _ => exact .pure _

end Logical

/-- The functions that evaluate their arguments themselves are choices between them, and all others only compute. -/
theorem confined_of_mem_builtin [RegexLibrary] : ∀ f ∈ builtinFunctions, f.implementation.Confined := by
  simp only [builtinFunctions, List.forall_mem_append]
  refine ⟨⟨⟨⟨⟨⟨?_, ?_⟩, ?_⟩, ?_⟩, ?_⟩, ?_⟩, ?_⟩
  case refine_3 =>
    refine List.forall_mem_cons.2 ⟨fun P _ _ => Logical.ifElse_within, ?_⟩
    refine List.forall_mem_cons.2 ⟨fun P _ _ => Logical.ifs_within, ?_⟩
    refine List.forall_mem_cons.2 ⟨fun P _ _ => Logical.ifError_within, ?_⟩
    refine List.forall_mem_cons.2 ⟨fun P _ _ => Logical.ifNotAvailable_within, ?_⟩
    repeat first | exact List.forall_mem_nil _ | refine List.forall_mem_cons.2 ⟨confined_pureFunction _, ?_⟩
  all_goals
    repeat first | exact List.forall_mem_nil _ | refine List.forall_mem_cons.2 ⟨confined_pureFunction _, ?_⟩

namespace Registry

theorem Confined.put {key : String} {f : Function} (hf : f.implementation.Confined) :
    ∀ {entries : List (String × Function)}, (∀ entry ∈ entries, entry.2.implementation.Confined) →
      ∀ entry ∈ Registry.put key f entries, entry.2.implementation.Confined
  | [], _, _, h => by
    rw [List.mem_singleton.1 h]
    exact hf
  | entry :: rest, hes, entry', h => by
    obtain ⟨he, hrest⟩ := List.forall_mem_cons.1 hes
    rw [Registry.put] at h
    split at h
    · rcases List.mem_cons.1 h with rfl | h
      · exact hf
      · exact hrest entry' h
    · rcases List.mem_cons.1 h with rfl | h
      · exact he
      · exact Confined.put hf hrest entry' h

theorem Confined.ofList {fs : List Function} (hfs : ∀ f ∈ fs, f.implementation.Confined) :
    (Registry.ofList fs).Confined := by
  suffices h : ∀ r : Registry, r.Confined → (fs.foldl register r).Confined from h empty nofun
  induction fs with
  | nil => exact fun _ hr => hr
  | cons f fs ih =>
    intro r hr
    obtain ⟨hf, hfs⟩ := List.forall_mem_cons.1 hfs
    exact ih hfs (r.register f) (Confined.put hf hr)

theorem confined_builtin [RegexLibrary] : Registry.builtin.Confined := Confined.ofList confined_of_mem_builtin

theorem Confined.get? {r : Registry} (h : r.Confined) {name : String} {f : Function} (hf : r.get? name = some f) :
    f.implementation.Confined := by
  obtain ⟨l₁, l₂, hl, -⟩ := List.lookup_eq_some_iff.1 hf
  exact h (Text.upper name, f) (by rw [hl]; simp)

end Registry

/-! ## Expressions -/

namespace Formula.Expr

mutual

/-- The ranges that an expression mentions, a cell being one. -/
def references : Expr → List CellRange
  | cell a => [.single a]
  | range r => [r]
  | binary _ left right => references left ++ references right
  | unary _ operand => references operand
  | call _ arguments => listReferences arguments
  | array rows => rowsReferences rows
  | _ => []

def listReferences : List Expr → List CellRange
  | [] => []
  | e :: es => references e ++ listReferences es

def rowsReferences : List (List Expr) → List CellRange
  | [] => []
  | row :: rows => listReferences row ++ rowsReferences rows

end

end Formula.Expr

section Expressions

open Readings (Within)

variable {P : Option String → Nat → Nat → Prop} {env : Environment}

/-- Arguments that ask only about cells of a kind, even if they are read only as far as there is data. -/
def ConfinedArguments (P : Option String → Nat → Nat → Prop) (arguments : List Argument) : Prop :=
  ∀ a ∈ arguments, (a.evaluate ()).Within P ∧ ∀ r, a.expr = .range r → r.Covers P

theorem argumentValues_within (ignoresBlanks : Bool) : ∀ {arguments : List Argument} (read : List Value),
    ConfinedArguments P arguments → (argumentValues ignoresBlanks read arguments).Within P
  | [], read, _ => .pure _
  | a :: rest, read, h => by
    obtain ⟨⟨ha, hrange⟩, hrest⟩ := List.forall_mem_cons.1 h
    have hnext : ∀ v, (argumentValues ignoresBlanks (v :: read) rest).Within P := fun v =>
      argumentValues_within ignoresBlanks (v :: read) hrest
    rw [argumentValues]
    split
    · rename_i r hr
      split
      · exact ((Within.usedGrid (hrange r hr)).map _).bind hnext
      · exact ha.bind hnext
    · exact ha.bind hnext

theorem callFunction_within (hreg : env.registry.Confined) (name : String) {arguments : List Argument}
    (h : ConfinedArguments P arguments) : (callFunction env name arguments).Within P := by
  unfold callFunction Function.callWith
  split
  · exact .throw fun _ => nofun
  · rename_i f hf
    have hconfined := hreg.get? hf
    split
    · rename_i fault hfault
      refine .throw fun cell he => ?_
      subst he
      unfold Function.arityError? at hfault
      split at hfault
      · cases hfault
      · split at hfault
        · split at hfault <;> cases hfault
        · cases hfault
    · split
      · rename_i apply himpl
        rw [himpl] at hconfined
        exact (argumentValues_within f.ignoresBlanks [] h).bind fun values =>
          .liftExcept (hconfined env.surroundings values)
      · rename_i apply himpl
        rw [himpl] at hconfined
        exact hconfined P env.surroundings arguments fun a ha => (h a ha).1

/-- Ranges that hold only cells of a kind. -/
def AllCover (P : Option String → Nat → Nat → Prop) (rs : List CellRange) : Prop := ∀ r ∈ rs, r.Covers P

theorem covers_single {a : Address} (h : (CellRange.single a).Covers P) : P a.sheet a.row a.column :=
  h a.row a.column (by simp [CellRange.single, CellRange.contains, CellRange.top, CellRange.bottom,
    CellRange.left, CellRange.right])

mutual

theorem evaluateInto_within (hreg : env.registry.Confined) :
    ∀ {e : Expr} {next : Value → Readings Value}, AllCover P e.references →
      (∀ v, (next v).Within P) → (evaluateInto env e next).Within P
  | .number _, _, _, hn => hn _
  | .text _, _, _, hn => hn _
  | .boolean _, _, _, hn => hn _
  | .error _, _, _, hn => hn _
  | .missing, _, _, hn => hn _
  | .cell _, _, h, hn => (Within.cell (covers_single (h _ (List.mem_singleton_self _)))).bind hn
  | .range _, _, h, hn => (Within.grid (h _ (List.mem_singleton_self _))).bind fun _ => hn _
  | .name _, _, _, _ => .throw fun _ => nofun
  | .binary op left right, next, h, hn => by
    have hleft : AllCover P left.references := fun r hr => h r (List.mem_append_left _ hr)
    have hright : AllCover P right.references := fun r hr => h r (List.mem_append_right _ hr)
    rw [evaluateInto]
    exact evaluateInto_within hreg hleft fun v => evaluateInto_within hreg hright fun w => hn _
  | .unary op operand, next, h, hn => by
    rw [evaluateInto]
    exact evaluateInto_within hreg h fun v => hn _
  | .call function arguments, next, h, hn => by
    rw [evaluateInto]
    exact (callFunction_within hreg function (argumentList_within hreg h)).bind hn
  | .array rows, next, h, hn => by
    rw [evaluateInto]
    exact (rowValues_within hreg h).bind fun _ => hn _

theorem argumentList_within (hreg : env.registry.Confined) :
    ∀ {es : List Expr}, AllCover P (Expr.listReferences es) → ConfinedArguments P (argumentList env es)
  | [], _ => nofun
  | e :: es, h => by
    have he : AllCover P e.references := fun r hr => h r (List.mem_append_left _ hr)
    refine List.forall_mem_cons.2 ⟨⟨evaluateInto_within hreg he .pure, ?_⟩, ?_⟩
    · rintro r rfl
      exact he r (List.mem_singleton_self r)
    · exact argumentList_within hreg fun r hr => h r (List.mem_append_right _ hr)

theorem itemValues_within (hreg : env.registry.Confined) :
    ∀ {es : List Expr}, AllCover P (Expr.listReferences es) → (itemValues env es).Within P
  | [], _ => .pure _
  | _ :: _, h =>
    (evaluateInto_within hreg (fun r hr => h r (List.mem_append_left _ hr)) .pure).bind fun _ =>
      (itemValues_within hreg fun r hr => h r (List.mem_append_right _ hr)).bind fun _ => .pure _

theorem rowValues_within (hreg : env.registry.Confined) :
    ∀ {rows : List (List Expr)}, AllCover P (Expr.rowsReferences rows) → (rowValues env rows).Within P
  | [], _ => .pure _
  | _ :: _, h =>
    (itemValues_within hreg fun r hr => h r (List.mem_append_left _ hr)).bind fun _ =>
      (rowValues_within hreg fun r hr => h r (List.mem_append_right _ hr)).bind fun _ => .pure _

end

end Expressions

/-! ## Formulas -/

namespace Formula

/-- A text that is no formula is not on a cycle for that. -/
theorem parseFormula_calm (formula : String) : Calm (parseFormula formula) := by
  unfold parseFormula
  intro cell h
  simp only at h
  split at h
  · cases h
  · cases hr : wholeFormula.run' (TokenStream.ofText (formulaBody formula)) with
    | ok e =>
      rw [hr] at h
      cases h
    | error rejection =>
      rw [hr] at h
      cases rejection <;> cases h

end Formula

theorem evaluateFormula_within {P : Option String → Nat → Nat → Prop} {env : Environment} {formula : String}
    (hreg : env.registry.Confined) (h : ∀ e, Formula.parseFormula formula = .ok e → AllCover P e.references) :
    (evaluateFormula env formula).Within P := by
  unfold evaluateFormula
  cases he : Formula.parseFormula formula with
  | ok e => exact evaluateInto_within hreg (h e he) .pure
  | error fault => exact .throw fun cell hc => Formula.parseFormula_calm formula cell (by rw [he, hc])

/-! ## Single questions -/

namespace Inquiry

variable {α β : Type} {P : Option String → Nat → Nat → Prop} {Q : α → Prop} {R : β → Prop}
  {known : Address → Option Answer}

/-- `Reading.Within` for single questions. -/
def Within (P : Option String → Nat → Nat → Prop) (Q : α → Prop) : Inquiry α → Prop
  | done a => Q a
  | cell a next => P a.sheet a.row a.column ∧ ∀ answer, Calm answer → (next answer).Within P Q

theorem Within.bind {t : Inquiry α} {f : α → Inquiry β} (ht : t.Within P Q) (hf : ∀ a, Q a → (f a).Within P R) :
    (t.bind f).Within P R := by
  induction t with
  | done a => exact hf a ht
  | cell a next ih => exact ⟨ht.1, fun answer hc => ih answer (ht.2 answer hc)⟩

theorem row_within {sheet : Option String} {e : Option Extent} {r : Nat} (count : Nat) :
    ∀ (column : Nat) (read : List Value), (∀ c, column ≤ c → c < column + count → P sheet r c) →
      (Inquiry.row sheet e r column read count).Within P Calm := by
  induction count with
  | zero => exact fun _ _ _ => nofun
  | succ count ih =>
    intro column read h
    have hrest : ∀ c, column + 1 ≤ c → c < column + 1 + count → P sheet r c := fun c hle hlt =>
      h c (by omega) (by omega)
    rw [Inquiry.row]
    split
    · refine ⟨h column (by omega) (by omega), fun answer hc => ?_⟩
      cases answer with
      | error fault => exact fun cell he => hc cell (by rw [Except.error.inj he])
      | ok v => exact ih (column + 1) (v :: read) hrest
    · exact ih (column + 1) (.empty :: read) hrest

theorem rows_within {sheet : Option String} {e : Option Extent} {column columns : Nat} (count : Nat) :
    ∀ (row : Nat) (read : Grid),
      (∀ r c, row ≤ r → r < row + count → column ≤ c → c < column + columns → P sheet r c) →
      (Inquiry.rows sheet e row column columns read count).Within P Calm := by
  induction count with
  | zero => exact fun _ _ _ => nofun
  | succ count ih =>
    intro row read h
    rw [Inquiry.rows]
    refine (row_within columns column [] fun c => h row c (by omega) (by omega)).bind fun vs hvs => ?_
    cases vs with
    | error fault => exact fun cell he => hvs cell (by rw [Except.error.inj he])
    | ok vs => exact ih (row + 1) (vs :: read) fun r c hle hlt => h r c (by omega) (by omega)

theorem grid_within {extent : Option String → Option Extent} {r : CellRange} (h : r.Covers P) :
    (grid extent r).Within P Calm := by
  refine rows_within _ _ _ fun row column _ _ _ _ => h row column ?_
  simp only [CellRange.contains, Bool.and_eq_true, decide_eq_true_eq]
  simp only [CellRange.rowCount, CellRange.columnCount] at *
  have htop := r.top_le_bottom
  have hleft := r.left_le_right
  omega

theorem cells_within {extent : Option String → Option Extent} {t : Reading α} (ht : t.Within P Q) :
    (t.cells extent).Within P Q := by
  induction t with
  | done a => exact ht
  | cell a next ih => exact ⟨ht.1, fun answer hc => ih answer (ht.2 answer hc)⟩
  | extent s next ih => exact ih (extent s) (ht.2 (extent s))
  | grid r next ih => exact (grid_within ht.1).bind fun answer hc => ih answer (ht.2 answer hc)

/-- What is replayed stays within its bounds. -/
theorem Within.replay (hknown : ∀ a answer, known a = some answer → Calm answer) {t : Inquiry α}
    (ht : t.Within P Q) {reads reads' : List CellRead} {result : α}
    (h : t.replay known reads = some (result, reads'))
    (hreads : ∀ r ∈ reads, P r.address.sheet r.address.row r.address.column) :
    Q result ∧ ∀ r ∈ reads', P r.address.sheet r.address.row r.address.column := by
  induction t generalizing reads with
  | done a =>
    cases h
    exact ⟨ht, hreads⟩
  | cell a next ih =>
    obtain ⟨answer, hanswer, h⟩ := replay_cell_eq_some.1 h
    exact ih answer (ht.2 answer (hknown a answer hanswer)) h (List.forall_mem_cons.2 ⟨ht.1, hreads⟩)

end Inquiry

/-- A computation that has been replayed has read only cells of its kind and did not fail as on a cycle. -/
theorem Readings.Within.replay {α : Type} {P : Option String → Nat → Nat → Prop} {t : Readings α}
    {extent : Option String → Option Extent} {known : Address → Option Answer} {outcome : Except FormulaError α}
    {reads : List CellRead} (ht : t.Within P) (hknown : ∀ a answer, known a = some answer → Calm answer)
    (h : (t.run.cells extent).replay known [] = some (outcome, reads)) :
    Calm outcome ∧ ∀ r ∈ reads, P r.address.sheet r.address.row r.address.column := by
  unfold Readings.Within at ht
  exact (Inquiry.cells_within ht).replay hknown h (by simp)

end Spreadsheet
