import Mathlib
import Spreadsheet.Proofs.ArrayLiterals
import Spreadsheet.Proofs.Blanks
import Spreadsheet.Proofs.Chains

/-!
# What evaluation keeps

A property of values that is kept by the single steps of evaluation is kept by all of it: if every cell that is read is
answered with a value that has it, so has the value of a formula.

* `OnSuccess` : what holds of a result, if there is one;
* `Readings.Ensures` : a property of every result that the admitted answers lead to; `Readings.Ensures.outcome` : the
  same over a source in any monad;
* `Value.Hereditary` : a property that blanks have, and grids of equal rows if their values have it;
* `Implementation.Keeps`, `Expr.Keeps` : functions, and the single nodes of an expression, that keep a property;
* `evaluate_ensures` : expressions of such nodes;
* `Registry.mem_of_get?` : what is found under a name; `Logical.ifElse_ensures` and its like : choices.
-/

namespace Spreadsheet

open Formula (Expr isRectangular)

/-! ## Results -/

/-- What holds of a result, if there is one. -/
def OnSuccess {ε α : Type} (Q : α → Prop) (x : Except ε α) : Prop := ∀ a, x = .ok a → Q a

section OnSuccess

variable {ε α β : Type} {Q R : α → Prop} {S : β → Prop}

@[simp] theorem onSuccess_ok {a : α} : OnSuccess Q (.ok a : Except ε α) ↔ Q a :=
  ⟨fun h => h a rfl, fun h _ ha => Except.ok.inj ha ▸ h⟩

@[simp] theorem onSuccess_pure {a : α} : OnSuccess Q (pure a : Except ε α) ↔ Q a := onSuccess_ok

@[simp] theorem onSuccess_error {e : ε} : OnSuccess Q (.error e : Except ε α) ↔ True := ⟨fun _ => trivial, nofun⟩

@[simp] theorem onSuccess_throw {e : ε} : OnSuccess Q (throw e : Except ε α) ↔ True := onSuccess_error

@[simp] theorem onSuccess_bind {x : Except ε α} {f : α → Except ε β} :
    OnSuccess S (x >>= f) ↔ OnSuccess (fun a => OnSuccess S (f a)) x := by
  cases x with
  | ok a => exact (onSuccess_ok (Q := fun a => OnSuccess S (f a))).symm
  | error e => exact ⟨fun _ => nofun, fun _ => nofun⟩

@[simp] theorem onSuccess_map {x : Except ε α} {f : α → β} :
    OnSuccess S (f <$> x) ↔ OnSuccess (fun a => S (f a)) x := by
  cases x with
  | ok a => exact onSuccess_ok.trans (onSuccess_ok (Q := fun a => S (f a))).symm
  | error e => exact ⟨fun _ => nofun, fun _ => nofun⟩

@[simp] theorem onSuccess_ite {c : Prop} [Decidable c] {x y : Except ε α} :
    OnSuccess Q (if c then x else y) ↔ if c then OnSuccess Q x else OnSuccess Q y := by
  split <;> rfl

@[simp] theorem onSuccess_true {x : Except ε α} : OnSuccess (fun _ => True) x ↔ True :=
  ⟨fun _ => trivial, fun _ _ _ => trivial⟩

theorem OnSuccess.imp {x : Except ε α} (h : OnSuccess Q x) (hQ : ∀ a, Q a → R a) : OnSuccess R x :=
  fun a ha => hQ a (h a ha)

theorem OnSuccess.bind {x : Except ε α} {f : α → Except ε β} (h : OnSuccess Q x) (hf : ∀ a, Q a → OnSuccess S (f a)) :
    OnSuccess S (x >>= f) := onSuccess_bind.2 (h.imp hf)

/-- What comes first need not matter. -/
theorem OnSuccess.after {x : Except ε α} {f : α → Except ε β} (hf : ∀ a, OnSuccess S (f a)) : OnSuccess S (x >>= f) :=
  onSuccess_bind.2 fun a _ => hf a

/-- What each item adds holds of all that is added. -/
theorem onSuccess_mapM {f : α → Except ε β} {xs : List α} (h : ∀ x ∈ xs, OnSuccess S (f x)) :
    OnSuccess (fun ys => ∀ y ∈ ys, S y) (xs.mapM f) := by
  induction xs with
  | nil => simp
  | cons x xs ih =>
    obtain ⟨hx, hxs⟩ := List.forall_mem_cons.1 h
    rw [List.mapM_cons]
    exact hx.bind fun y hy => (ih hxs).bind fun ys hys => onSuccess_pure.2 (List.forall_mem_cons.2 ⟨hy, hys⟩)

end OnSuccess

/-! ## Questions with admitted answers -/

namespace Inquiry

variable {α β : Type} {may : Address → Answer → Prop} {Q R : α → Prop} {S : β → Prop} {t : Inquiry α}

/-- Every end that admitted answers lead to has a property. -/
def Ensures (may : Address → Answer → Prop) (Q : α → Prop) : Inquiry α → Prop
  | done a => Q a
  | cell a next => ∀ answer, may a answer → (next answer).Ensures may Q

theorem ensures_bind {f : α → Inquiry β} : (t.bind f).Ensures may S ↔ t.Ensures may fun a => (f a).Ensures may S := by
  induction t with
  | done a => exact Iff.rfl
  | cell a next ih => exact forall_congr' fun answer => forall_congr' fun _ => ih answer

theorem Ensures.imp (h : t.Ensures may Q) (hQ : ∀ a, Q a → R a) : t.Ensures may R := by
  induction t with
  | done a => exact hQ a h
  | cell a next ih => exact fun answer hanswer => ih answer (h answer hanswer)

/-- Answers that are admitted in a monad lead to ends with the property. -/
theorem Ensures.run {m : Type → Type} [Monad m] [LawfulMonad m] {ask : Address → m Answer}
    (hask : ∀ a, SatisfiesM (may a) (ask a)) (h : t.Ensures may Q) : SatisfiesM Q (t.run ask) := by
  induction t with
  | done a => exact .pure h
  | cell a next ih => exact (hask a).bind fun answer hanswer => ih answer (h answer hanswer)

/-- With one answer to each question there is one end. -/
theorem ensures_iff_run {ask : Address → Answer} :
    t.Ensures (fun a answer => answer = ask a) Q ↔ Q (t.run (m := Id) ask) := by
  induction t with
  | done a => exact Iff.rfl
  | cell a next ih => exact forall_eq.trans (ih (ask a))

/-! ### Ranges -/

section Ranges

variable {P : Value → Prop} (hempty : P .empty) (hmay : ∀ a answer, may a answer → OnSuccess P answer)
include hempty hmay

theorem row_ensures {sheet : Option String} {e : Option Extent} {r : Nat} (count : Nat) :
    ∀ {column : Nat} {read : List Value}, (∀ v ∈ read, P v) →
      (Inquiry.row sheet e r column read count).Ensures may
        (OnSuccess fun vs => vs.length = read.length + count ∧ ∀ v ∈ vs, P v) := by
  induction count with
  | zero => exact fun hread => onSuccess_ok.2 ⟨List.length_reverse, fun v hv => hread v (List.mem_reverse.1 hv)⟩
  | succ count ih =>
    intro column read hread
    have hnext : ∀ v, P v → (Inquiry.row sheet e r (column + 1) (v :: read) count).Ensures may
        (OnSuccess fun vs => vs.length = read.length + (count + 1) ∧ ∀ v ∈ vs, P v) := by
      intro v hv
      have h := @ih (column + 1) (v :: read) (List.forall_mem_cons.2 ⟨hv, hread⟩)
      rwa [List.length_cons, Nat.add_assoc, Nat.add_comm 1] at h
    rw [Inquiry.row]
    split
    · intro answer hanswer
      cases answer with
      | error fault => exact onSuccess_error.2 trivial
      | ok v => exact hnext v (hmay _ _ hanswer v rfl)
    · exact hnext .empty hempty

theorem rows_ensures {sheet : Option String} {e : Option Extent} {column columns : Nat} (count : Nat) :
    ∀ {row : Nat} {read : Grid}, (∀ r ∈ read, r.length = columns ∧ ∀ v ∈ r, P v) →
      (Inquiry.rows sheet e row column columns read count).Ensures may
        (OnSuccess fun g => ∀ r ∈ g, r.length = columns ∧ ∀ v ∈ r, P v) := by
  induction count with
  | zero => exact fun hread => onSuccess_ok.2 fun r hr => hread r (List.mem_reverse.1 hr)
  | succ count ih =>
    intro row read hread
    rw [Inquiry.rows, ensures_bind]
    refine (row_ensures hempty hmay columns (List.forall_mem_nil _)).imp fun outcome houtcome => ?_
    cases outcome with
    | error fault => exact onSuccess_error.2 trivial
    | ok vs =>
      obtain ⟨hlength, hvs⟩ := onSuccess_ok.1 houtcome
      exact ih (List.forall_mem_cons.2 ⟨⟨by simpa using hlength, hvs⟩, hread⟩)

/-- The rows of a range are equally long, and their values are answers or blanks. -/
theorem grid_ensures (extent : Option String → Option Extent) (r : CellRange) :
    (Inquiry.grid extent r).Ensures may
      (OnSuccess fun g => ∀ row ∈ g, row.length = r.columnCount ∧ ∀ v ∈ row, P v) :=
  rows_ensures hempty hmay r.rowCount (List.forall_mem_nil _)

end Ranges

end Inquiry

/-! ## Computations -/

/-- Every result that admitted answers lead to has a property. -/
def Readings.Ensures {α : Type} (may : Address → Answer → Prop) (extent : Option String → Option Extent) (Q : α → Prop)
    (t : Readings α) : Prop := (t.cells extent).Ensures may (OnSuccess Q)

namespace Readings.Ensures

variable {α β : Type} {may : Address → Answer → Prop} {extent : Option String → Option Extent}
  {Q R : α → Prop} {S : β → Prop} {t : Readings α} {f : α → Readings β}

theorem pure {a : α} (h : Q a) : Ensures may extent Q (Pure.pure a : Readings α) := onSuccess_ok.2 h

theorem throw (fault : FormulaError) : Ensures may extent Q (MonadExcept.throw fault : Readings α) :=
  onSuccess_error.2 trivial

theorem lift {outcome : Except FormulaError Value} {P : Value → Prop} (h : OnSuccess P outcome) :
    Ensures may extent P (Function.callWith.liftExcept outcome) := h

theorem imp (h : t.Ensures may extent Q) (hQ : ∀ a, Q a → R a) : t.Ensures may extent R :=
  Inquiry.Ensures.imp h fun _ houtcome => houtcome.imp hQ

theorem bind (ht : t.Ensures may extent Q) (hf : ∀ a, Q a → (f a).Ensures may extent S) :
    (t >>= f).Ensures may extent S := by
  rw [Ensures, Readings.cells_bind, Inquiry.ensures_bind]
  refine Inquiry.Ensures.imp ht fun outcome houtcome => ?_
  cases outcome with
  | error fault => exact onSuccess_error.2 trivial
  | ok a => exact hf a (onSuccess_ok.1 houtcome)

theorem map {g : α → β} (ht : t.Ensures may extent fun a => S (g a)) : (g <$> t).Ensures may extent S :=
  ht.bind fun _ h => pure h

/-- Failing is a result of an attempt. -/
theorem attempt {P : Value → Prop} {t : Readings Value} (ht : t.Ensures may extent P) :
    (Readings.attempt t).Ensures may extent (OnSuccess P) := by
  have hcells : (Readings.attempt t).cells extent = (t.cells extent).bind fun outcome => .done (.ok outcome) :=
    Reading.cells_bind extent t.run _
  rw [Ensures, hcells, Inquiry.ensures_bind]
  exact Inquiry.Ensures.imp ht fun outcome houtcome => onSuccess_ok.2 houtcome

/-- Over a source whose answers are admitted, every result has the property. -/
theorem outcome {m : Type → Type} [Monad m] [LawfulMonad m] {src : CellSource m}
    (hsrc : ∀ a, SatisfiesM (may a) (src.cell a)) (h : t.Ensures may src.extent Q) :
    SatisfiesM Q (t.outcome src) := by
  rw [SatisfiesM_ExceptT_eq]
  suffices hrun : ∀ {γ : Type} {Q : γ → Prop} (u : Reading γ), (u.cells src.extent).Ensures may Q →
      SatisfiesM Q (u.run src) from hrun t.run h
  intro γ Q u hu
  induction u with
  | done a => exact .pure hu
  | cell a next ih => exact (hsrc a).bind fun answer hanswer => ih answer (hu answer hanswer)
  | extent sheet next ih => exact ih _ hu
  | grid r next ih =>
    rw [Reading.run, Inquiry.run_grid]
    have hgrid := Inquiry.Ensures.run hsrc (Inquiry.ensures_bind.1 hu)
    have hannounced : SatisfiesM (fun answer => ((next answer).cells src.extent).Ensures may Q)
        (src.announce r >>= fun _ => (Inquiry.grid src.extent r).run src.cell) :=
      SatisfiesM.trivial.bind fun _ _ => hgrid
    exact hannounced.bind fun answer hanswer => ih answer hanswer

/-- Over a source that only computes, it is the result that has the property. -/
theorem iff_plain {ask : Address → Answer} :
    t.Ensures (fun a answer => answer = ask a) extent Q ↔
      OnSuccess Q (t.outcome (CellSource.plain (m := Id) ask extent)).run := by
  rw [Readings.outcome_plain]
  exact Inquiry.ensures_iff_run

end Readings.Ensures

/-! ## Properties of values -/

/-- Blanks, truth values and error values have a property, and so have grids of equal rows if all values in them do,
which they do in every grid that has it. -/
structure Value.Hereditary (P : Value → Prop) : Prop where
  empty : P .empty
  boolean : ∀ b, P (.boolean b)
  error : ∀ e, P (.error e)
  array : ∀ {g : Grid}, isRectangular g → (∀ row ∈ g, ∀ v ∈ row, P v) → P (.array g)
  parts : ∀ {g : Grid}, P (.array g) → ∀ row ∈ g, ∀ v ∈ row, P v

theorem isRectangular_of_length {α : Type} {rows : List (List α)} {n : Nat} (h : ∀ row ∈ rows, row.length = n) :
    isRectangular rows := by
  cases rows with
  | nil => rfl
  | cons row rows =>
    obtain ⟨hrow, hrows⟩ := List.forall_mem_cons.1 h
    exact List.all_eq_true.2 fun r hr => beq_iff_eq.2 ((hrows r hr).trans hrow.symm)

theorem length_of_isRectangular {α : Type} {rows : List (List α)} (h : isRectangular rows) :
    ∀ row ∈ rows, row.length = (rows.head?.map List.length).getD 0 := by
  cases rows with
  | nil => exact List.forall_mem_nil _
  | cons row rows => exact List.forall_mem_cons.2 ⟨rfl, fun r hr => beq_iff_eq.1 (List.all_eq_true.1 h r hr)⟩

/-- A function keeps a property of values in given surroundings. -/
def Implementation.Keeps (s : Surroundings) (P : Value → Prop) : Implementation → Prop
  | .eager apply => ∀ values, (∀ v ∈ values, P v) → OnSuccess P (apply s values)
  | .lazy apply => ∀ may extent (arguments : List Argument),
      (∀ a ∈ arguments, (a.evaluate ()).Ensures may extent P) → (apply s arguments).Ensures may extent P

/-- A single node of an expression keeps a property of values. -/
def Formula.Expr.Keeps (env : Environment) (P : Value → Prop) : Expr → Prop
  | .number x => P (.number x)
  | .text s => P (.text s)
  | .binary op _ _ => ∀ v w, P v → P w → P (applyBinary op v w)
  | .unary op _ => ∀ v, P v → P (applyUnary op v)
  | .call function _ => ∀ f, env.registry.get? function = some f → f.implementation.Keeps env.surroundings P
  | .array rows => isRectangular rows
  | _ => True

section Evaluation

variable {may : Address → Answer → Prop} {extent : Option String → Option Extent} {P : Value → Prop} {env : Environment}
  (hP : Value.Hereditary P) (hmay : ∀ a answer, may a answer → OnSuccess P answer)
include hP hmay

theorem grid_ensures (r : CellRange) :
    (Readings.grid r).Ensures may extent fun g => P (.array g) := by
  rw [Readings.Ensures, cells_grid]
  refine (Inquiry.grid_ensures hP.empty hmay extent r).imp fun outcome houtcome => houtcome.imp fun g hg => ?_
  exact hP.array (isRectangular_of_length fun row hrow => (hg row hrow).1) fun row hrow => (hg row hrow).2

theorem usedGrid_ensures (r : CellRange) :
    (Readings.usedGrid r).Ensures may extent fun g => P (.array g) := by
  rw [Readings.Ensures, cells_usedGrid]
  split
  · exact grid_ensures hP hmay r
  · split
    · exact grid_ensures hP hmay _
    · exact onSuccess_ok.2 (hP.array rfl (List.forall_mem_nil _))

theorem argumentValues_ensures (ignoresBlanks : Bool) {es : List Expr} :
    ∀ {read : List Value}, (∀ v ∈ read, P v) → (∀ e ∈ es, (evaluate env e).Ensures may extent P) →
      (argumentValues ignoresBlanks read (argumentList env es)).Ensures may extent fun vs =>
        vs.length = read.length + es.length ∧ ∀ v ∈ vs, P v := by
  induction es with
  | nil => exact fun hread _ => .pure ⟨List.length_reverse, fun v hv => hread v (List.mem_reverse.1 hv)⟩
  | cons e es ih =>
    intro read hread hes
    obtain ⟨he, hes⟩ := List.forall_mem_cons.1 hes
    have hvalue : (Argument.value ignoresBlanks ⟨e, fun _ => evaluate env e⟩).Ensures may extent P := by
      unfold Argument.value
      split
      · split
        · exact (usedGrid_ensures hP hmay _).map
        · exact he
      · exact he
    rw [argumentList, argumentValues_cons]
    refine hvalue.bind fun v hv => (ih (List.forall_mem_cons.2 ⟨hv, hread⟩) hes).imp fun vs hvs => ⟨?_, hvs.2⟩
    rw [hvs.1, List.length_cons, List.length_cons, Nat.add_assoc, Nat.add_comm 1]

omit hP hmay in
theorem argumentList_ensures {es : List Expr} (hes : ∀ e ∈ es, (evaluate env e).Ensures may extent P) :
    ∀ a ∈ argumentList env es, (a.evaluate ()).Ensures may extent P := by
  induction es with
  | nil => exact List.forall_mem_nil _
  | cons e es ih =>
    obtain ⟨he, hes⟩ := List.forall_mem_cons.1 hes
    exact List.forall_mem_cons.2 ⟨he, ih hes⟩

theorem callFunction_ensures {function : String} {es : List Expr}
    (hkeeps : ∀ f, env.registry.get? function = some f → f.implementation.Keeps env.surroundings P)
    (hes : ∀ e ∈ es, (evaluate env e).Ensures may extent P) :
    (callFunction env function (argumentList env es)).Ensures may extent P := by
  unfold callFunction Function.callWith
  split
  · exact .throw _
  · rename_i f hf
    have hf := hkeeps f hf
    split
    · exact .throw _
    · split
      · rename_i apply himplementation
        rw [himplementation] at hf
        exact (argumentValues_ensures hP hmay f.ignoresBlanks (List.forall_mem_nil _) hes).bind fun vs hvs =>
          .lift (hf vs hvs.2)
      · rename_i apply himplementation
        rw [himplementation] at hf
        exact hf may extent _ (argumentList_ensures hes)

omit hP hmay in
theorem plainItems_ensures {es : List Expr} (hes : ∀ e ∈ es, (evaluate env e).Ensures may extent P) :
    (plainItems env es).Ensures may extent fun vs => vs.length = es.length ∧ ∀ v ∈ vs, P v := by
  induction es with
  | nil => exact .pure ⟨rfl, List.forall_mem_nil _⟩
  | cons e es ih =>
    obtain ⟨he, hes⟩ := List.forall_mem_cons.1 hes
    rw [evaluate_eq_plainValue] at he
    refine he.bind fun v hv => (ih hes).bind fun vs hvs => .pure ⟨?_, List.forall_mem_cons.2 ⟨hv, hvs.2⟩⟩
    rw [List.length_cons, List.length_cons, hvs.1]

omit hP hmay in
/-- The rows of an array literal keep their lengths. -/
theorem plainRows_ensures {rows : List (List Expr)} {n : Nat} (hlength : ∀ row ∈ rows, row.length = n)
    (hrows : ∀ e ∈ rows.flatten, (evaluate env e).Ensures may extent P) :
    (plainRows env rows).Ensures may extent fun g => ∀ row ∈ g, row.length = n ∧ ∀ v ∈ row, P v := by
  induction rows with
  | nil => exact .pure (List.forall_mem_nil _)
  | cons row rows ih =>
    obtain ⟨hrow, hlength⟩ := List.forall_mem_cons.1 hlength
    rw [List.flatten_cons, List.forall_mem_append] at hrows
    refine (plainItems_ensures hrows.1).bind fun vs hvs => (ih hlength hrows.2).bind fun g hg => .pure ?_
    exact List.forall_mem_cons.2 ⟨⟨hvs.1.trans hrow, hvs.2⟩, hg⟩

/-- A node that keeps a property has it if its parts do. -/
theorem evaluate_step {e : Expr} (hkeeps : e.Keeps env P)
    (hparts : ∀ c ∈ e.children, (evaluate env c).Ensures may extent P) : (evaluate env e).Ensures may extent P := by
  rw [evaluate_eq_plainValue]
  cases e with
  | number x => exact .pure hkeeps
  | text s => exact .pure hkeeps
  | boolean b => exact .pure (hP.boolean b)
  | error e => exact .pure (hP.error e)
  | missing => exact .pure hP.empty
  | cell a => exact fun answer hanswer => hmay a answer hanswer
  | range r => exact (grid_ensures hP hmay r).bind fun g hg => .pure hg
  | name s => exact .throw _
  | binary op left right =>
    have hleft := hparts left (by simp [Formula.Expr.children])
    have hright := hparts right (by simp [Formula.Expr.children])
    rw [evaluate_eq_plainValue] at hleft hright
    exact hleft.bind fun v hv => hright.bind fun w hw => .pure (hkeeps v w hv hw)
  | unary op operand =>
    have hoperand := hparts operand (by simp [Formula.Expr.children])
    rw [evaluate_eq_plainValue] at hoperand
    exact hoperand.bind fun v hv => .pure (hkeeps v hv)
  | call function arguments =>
    rw [plainValue, ← argumentList_eq]
    exact callFunction_ensures hP hmay hkeeps hparts
  | array rows =>
    refine (plainRows_ensures (length_of_isRectangular hkeeps) hparts).bind fun g hg => .pure ?_
    exact hP.array (isRectangular_of_length fun row hrow => (hg row hrow).1) fun row hrow => (hg row hrow).2

/-- An expression has a property if each node within keeps it, or has it anyway. -/
theorem evaluate_ensures {e : Expr}
    (h : ∀ s, e.Contains s → s.Keeps env P ∨ (evaluate env s).Ensures may extent P) :
    (evaluate env e).Ensures may extent P := by
  induction e using Formula.Expr.children_induction with
  | h e ih =>
    rcases h e .refl with hkeeps | hvalue
    · exact evaluate_step hP hmay hkeeps fun c hc => ih c hc fun s hs => h s (hs.head hc)
    · exact hvalue

end Evaluation

/-! ## Functions -/

namespace Registry

theorem mem_put {key : String} {f : Function} {entry : String × Function} :
    ∀ {entries : List (String × Function)}, entry ∈ put key f entries → entry = (key, f) ∨ entry ∈ entries
  | [], h => Or.inl (List.mem_singleton.1 h)
  | first :: rest, h => by
    rw [put] at h
    split at h
    · exact (List.mem_cons.1 h).imp_right (List.mem_cons_of_mem first)
    · rcases List.mem_cons.1 h with rfl | h
      · exact Or.inr List.mem_cons_self
      · exact (mem_put h).imp_right (List.mem_cons_of_mem first)

/-- What is found under a name is a function of that name. -/
theorem mem_of_get? {fs : List Function} {name : String} {f : Function} (h : (ofList fs).get? name = some f) :
    f ∈ fs ∧ Text.upper f.name = Text.upper name := by
  suffices hall : ∀ r : Registry, (∀ entry ∈ r.entries, entry.2 ∈ fs ∧ Text.upper entry.2.name = entry.1) →
      ∀ gs : List Function, (∀ g ∈ gs, g ∈ fs) →
        ∀ entry ∈ (gs.foldl register r).entries, entry.2 ∈ fs ∧ Text.upper entry.2.name = entry.1 by
    obtain ⟨l₁, l₂, hl, -⟩ := List.lookup_eq_some_iff.1 h
    exact hall empty (List.forall_mem_nil _) fs (fun _ hg => hg) (Text.upper name, f) (by
      change _ ∈ (ofList fs).entries
      rw [hl]
      simp)
  intro r hr gs hgs
  induction gs generalizing r with
  | nil => exact hr
  | cons g gs ih =>
    obtain ⟨hg, hgs⟩ := List.forall_mem_cons.1 hgs
    refine ih (r.register g) (fun entry hentry => ?_) hgs
    rcases mem_put hentry with rfl | hentry
    · exact ⟨hg, rfl⟩
    · exact hr entry hentry

theorem lookup_cons_entry (k : String) (entry : String × Function) (rest : List (String × Function)) :
    (entry :: rest).lookup k = if k = entry.1 then some entry.2 else rest.lookup k := by
  rw [List.lookup_cons]
  by_cases hk : k = entry.1
  · simp [hk]
  · rw [beq_eq_false_iff_ne.2 hk, if_neg hk]

theorem lookup_put (key k : String) (f : Function) (entries : List (String × Function)) :
    (put key f entries).lookup k = if k = key then some f else entries.lookup k := by
  induction entries with
  | nil => exact lookup_cons_entry k (key, f) []
  | cons entry rest ih =>
    rw [put]
    split
    · rename_i hentry
      rw [lookup_cons_entry, lookup_cons_entry, ← hentry]
      split <;> rfl
    · rename_i hentry
      rw [lookup_cons_entry, lookup_cons_entry, ih]
      by_cases hk : k = entry.1
      · rw [if_pos hk, if_neg (hk ▸ hentry), if_pos hk]
      · rw [if_neg hk, if_neg hk]

theorem get?_register (r : Registry) (f : Function) (name : String) :
    (r.register f).get? name = if Text.upper name = Text.upper f.name then some f else r.get? name :=
  lookup_put _ _ f r.entries

/-- Functions of different names are all found. -/
theorem get?_ofList {fs : List Function} (hfs : (fs.map fun f => Text.upper f.name).Nodup) {f : Function} (hf : f ∈ fs)
    {name : String} (hname : Text.upper name = Text.upper f.name) : (ofList fs).get? name = some f := by
  have hothers : ∀ (gs : List Function) (r : Registry), (∀ g ∈ gs, Text.upper name ≠ Text.upper g.name) →
      (gs.foldl register r).get? name = r.get? name := by
    intro gs
    induction gs with
    | nil => exact fun _ _ => rfl
    | cons g gs ih =>
      intro r hgs
      obtain ⟨hg, hgs⟩ := List.forall_mem_cons.1 hgs
      rw [List.foldl_cons, ih _ hgs, get?_register, if_neg hg]
  suffices hall : ∀ r : Registry, (fs.foldl register r).get? name = some f from hall empty
  induction fs with
  | nil => cases hf
  | cons g fs ih =>
    obtain ⟨hg, hfs⟩ := List.nodup_cons.1 hfs
    intro r
    rcases List.mem_cons.1 hf with rfl | hf
    · refine (hothers fs (r.register f) fun g hg' heq => hg ?_).trans ?_
      · exact List.mem_map.2 ⟨g, hg', heq.symm.trans hname⟩
      · rw [get?_register, if_pos hname]
    · exact ih hfs hf (r.register g)

end Registry

/-! ### Choices -/

namespace Logical

variable {may : Address → Answer → Prop} {extent : Option String → Option Extent} {P : Value → Prop}
  {arguments : List Argument}

theorem onCondition_ensures (hP : Value.Hereditary P) {condition : Argument} {next : Bool → Readings Value}
    (hcondition : (condition.evaluate ()).Ensures may extent P) (hnext : ∀ holds, (next holds).Ensures may extent P) :
    (onCondition condition next).Ensures may extent P := by
  refine hcondition.bind fun v _ => ?_
  cases truthOf v with
  | error e => exact .pure (hP.error e)
  | ok holds => exact hnext holds

variable (hP : Value.Hereditary P) (h : ∀ a ∈ arguments, (a.evaluate ()).Ensures may extent P)
include hP h

theorem ifElse_ensures : (ifElse arguments).Ensures may extent P := by
  match arguments with
  | [] => exact .pure (hP.error _)
  | [_] => exact .pure (hP.error _)
  | condition :: consequent :: rest =>
    refine onCondition_ensures hP (h condition (by simp)) fun holds => ?_
    cases holds with
    | true => exact h consequent (by simp)
    | false =>
      cases rest with
      | nil => exact .pure (hP.boolean false)
      | cons alternative rest => exact h alternative (by simp)

omit h in
theorem choose_ensures : ∀ {arguments : List Argument}, (∀ a ∈ arguments, (a.evaluate ()).Ensures may extent P) →
    (choose arguments).Ensures may extent P
  | [], _ => .pure (hP.error _)
  | [_], _ => .pure (hP.error _)
  | condition :: consequent :: rest, h => by
    refine onCondition_ensures hP (h condition (by simp)) fun holds => ?_
    cases holds with
    | true => exact h consequent (by simp)
    | false => exact choose_ensures fun a ha => h a (by simp [ha])

theorem ifs_ensures : (ifs arguments).Ensures may extent P := by
  unfold ifs
  split
  · exact .throw _
  · exact choose_ensures hP h

theorem ifError_ensures : (ifError arguments).Ensures may extent P := by
  match arguments with
  | [] => exact .pure (hP.error _)
  | [_] => exact .pure (hP.error _)
  | [first, fallback] =>
    have hfallback := h fallback (by simp)
    refine (h first (by simp)).attempt.bind fun outcome houtcome => ?_
    split
    · exact hfallback
    · exact hfallback
    · exact .pure (houtcome _ rfl)
  | _ :: _ :: _ :: _ => exact .pure (hP.error _)

theorem ifNotAvailable_ensures : (ifNotAvailable arguments).Ensures may extent P := by
  match arguments with
  | [] => exact .pure (hP.error _)
  | [_] => exact .pure (hP.error _)
  | [first, fallback] =>
    have hfallback := h fallback (by simp)
    refine (h first (by simp)).bind fun v hv => ?_
    split
    · exact hfallback
    · exact .pure hv
  | _ :: _ :: _ :: _ => exact .pure (hP.error _)

end Logical

end Spreadsheet
