import Spreadsheet.Proofs.Call
import Spreadsheet.Proofs.Clipping
import Spreadsheet.Proofs.Written

/-!
# Chains of operators

An expression is evaluated with what comes after its value at hand, and a chain of operators is walked in a loop. Both
come to plain recursion: the operands one after the other, from left to right, and then the operator.

* `Reading` is a lawful monad, and running over a source respects it (`Reading.run_bind`, `Readings.outcome_bind`);
* `plainValue` : the value of an expression by plain recursion; `evaluateInto_eq` : what comes after it may wait until
  it is there, so `evaluate_eq_plainValue`;
* `Expr.walk`, `chainValue` : a chain walked in a loop; `chainValue_eq` : the loop loses nothing;
* `walkingValue` : all chains walked in loops, those within operands, arguments and arrays too; `walkingValue_eq` : that
  is evaluation;
* `evaluate_binary` : all of this for an operator, with the reads over a source.
-/

namespace Spreadsheet

open Formula (Expr BinaryOp)

/-! ## One computation after another -/

section Sequencing

variable {α β γ : Type}

theorem Reading.extend_extend (t : Reading α) (f : α → Reading β) (g : β → Reading γ) :
    (t.extend f).extend g = t.extend fun a => (f a).extend g := by
  induction t with
  | done a => rfl
  | cell a next ih => exact congrArg (Reading.cell a) (funext ih)
  | extent sheet next ih => exact congrArg (Reading.extent sheet) (funext ih)
  | grid r next ih => exact congrArg (Reading.grid r) (funext ih)

theorem Reading.extend_pure (t : Reading α) : t.extend .done = t := by
  induction t with
  | done a => rfl
  | cell a next ih => exact congrArg (Reading.cell a) (funext ih)
  | extent sheet next ih => exact congrArg (Reading.extent sheet) (funext ih)
  | grid r next ih => exact congrArg (Reading.grid r) (funext ih)

theorem Reading.bind_def (t : Reading α) (f : α → Reading β) : t >>= f = t.extend f := bind_eq_extend t f

instance : LawfulMonad Reading :=
  LawfulMonad.mk' Reading
    (fun t => (Reading.bind_def t _).trans t.extend_pure)
    (fun _ _ => rfl)
    (fun t f g => by simp only [Reading.bind_def, Reading.extend_extend])

variable {m : Type → Type} [Monad m] (src : CellSource m)

@[simp] theorem Readings.outcome_pure (a : α) : (pure a : Readings α).outcome src = pure a := rfl

variable [LawfulMonad m]

theorem Reading.run_bind (t : Reading α) (f : α → Reading β) :
    (t >>= f).run src = t.run src >>= fun a => (f a).run src := by
  rw [bind_def]
  induction t with
  | done a => rw [extend_done, run, pure_bind]
  | cell a next ih => simp only [extend, run, bind_assoc, ih]
  | extent sheet next ih => exact ih _
  | grid r next ih => simp only [extend, run, bind_assoc, ih]

theorem Readings.outcome_bind (t : Readings α) (f : α → Readings β) :
    (t >>= f).outcome src = t.outcome src >>= fun a => (f a).outcome src := by
  refine ExceptT.ext ((Reading.run_bind src t.run _).trans ?_)
  rw [ExceptT.run_bind]
  refine congrArg (t.run.run src >>= ·) (funext fun outcome => ?_)
  cases outcome <;> rfl

end Sequencing

/-! ## Plain recursion -/

mutual

/-- The value of an expression: those of its parts first, from left to right, then what is made of them. -/
def plainValue (env : Environment) : Expr → Readings Value
  | .number x => return .number x
  | .text s => return .text s
  | .boolean b => return .boolean b
  | .error e => return .error e
  | .missing => return .empty
  | .cell a => Readings.cell a
  | .range r => return .array (← Readings.grid r)
  | .name s => throw (.unknownName s)
  | .binary op left right => do
    let v ← plainValue env left
    let w ← plainValue env right
    return applyBinary op v w
  | .unary op operand => return applyUnary op (← plainValue env operand)
  | .call function arguments => callFunction env function (plainArguments env arguments)
  | .array rows => return .array (← plainRows env rows)

/-- Arguments, ready to be evaluated. -/
def plainArguments (env : Environment) : List Expr → List Argument
  | [] => []
  | e :: es => ⟨e, fun _ => plainValue env e⟩ :: plainArguments env es

def plainItems (env : Environment) : List Expr → Readings (List Value)
  | [] => return []
  | e :: es => do
    let v ← plainValue env e
    return v :: (← plainItems env es)

def plainRows (env : Environment) : List (List Expr) → Readings Grid
  | [] => return []
  | row :: rows => do
    let vs ← plainItems env row
    return vs :: (← plainRows env rows)

end

section Plain

variable (env : Environment)

mutual

/-- What comes after a value may wait until the value is there. -/
theorem evaluateInto_eq : ∀ (e : Expr) (next : Value → Readings Value),
    evaluateInto env e next = plainValue env e >>= next
  | .number _, _ | .text _, _ | .boolean _, _ | .error _, _ | .missing, _ => (pure_bind _ _).symm
  | .cell _, _ => rfl
  | .range r, next => by simp only [evaluateInto, plainValue, bind_assoc, pure_bind]
  | .name _, _ => rfl
  | .binary op left right, next => by
    rw [evaluateInto, evaluateInto_eq left, plainValue, bind_assoc]
    refine congrArg (plainValue env left >>= ·) (funext fun v => ?_)
    rw [evaluateInto_eq right, bind_assoc]
    exact congrArg (plainValue env right >>= ·) (funext fun w => (pure_bind _ _).symm)
  | .unary op operand, next => by
    rw [evaluateInto, evaluateInto_eq operand, plainValue, bind_assoc]
    exact congrArg (plainValue env operand >>= ·) (funext fun v => (pure_bind _ _).symm)
  | .call function arguments, next => by rw [evaluateInto, argumentList_eq arguments, plainValue]
  | .array rows, next => by simp only [evaluateInto, plainValue, rowValues_eq rows, bind_assoc, pure_bind]

theorem argumentList_eq : ∀ es : List Expr, argumentList env es = plainArguments env es
  | [] => rfl
  | e :: es => by
    have hvalue : evaluateInto env e pure = plainValue env e := (evaluateInto_eq e pure).trans (bind_pure _)
    rw [argumentList, plainArguments, hvalue, argumentList_eq es]

theorem itemValues_eq : ∀ es : List Expr, itemValues env es = plainItems env es
  | [] => rfl
  | e :: es => by rw [itemValues, plainItems, evaluateInto_eq e pure, bind_pure, itemValues_eq es]

theorem rowValues_eq : ∀ rows : List (List Expr), rowValues env rows = plainRows env rows
  | [] => rfl
  | row :: rows => by rw [rowValues, plainRows, itemValues_eq row, rowValues_eq rows]

end

theorem plainArguments_eq (es : List Expr) :
    plainArguments env es = es.map fun e => ⟨e, fun _ => plainValue env e⟩ := by
  induction es with
  | nil => rfl
  | cons e es ih => rw [plainArguments, ih, List.map_cons]

theorem plainItems_eq (es : List Expr) : plainItems env es = es.mapM (plainValue env) := by
  induction es with
  | nil => rfl
  | cons e es ih => rw [plainItems, ih, List.mapM_cons]

theorem plainRows_eq (rows : List (List Expr)) : plainRows env rows = rows.mapM (List.mapM (plainValue env)) := by
  induction rows with
  | nil => rfl
  | cons row rows ih => rw [plainRows, ih, plainItems_eq, List.mapM_cons]

theorem evaluate_eq_plainValue (e : Expr) : evaluate env e = plainValue env e :=
  (evaluateInto_eq env e pure).trans (bind_pure _)

end Plain

/-! ## Chains -/

/-- The operand that a chain begins with, and its operators with their right operands in the order in which they are
applied, in front of `links`. -/
def Formula.Expr.walk (links : List (BinaryOp × Expr)) : Expr → Expr × List (BinaryOp × Expr)
  | .binary op left right => left.walk ((op, right) :: links)
  | e => (e, links)

/-- Applies an operator with its right operand, which is evaluated now. -/
def applyLink (value : Expr → Readings Value) (v : Value) (link : BinaryOp × Expr) : Readings Value := do
  return applyBinary link.1 v (← value link.2)

/-- The value of a chain, from its first operand along its operators. -/
def chainValue (value : Expr → Readings Value) (e : Expr) : Readings Value := do
  let (first, links) := e.walk []
  let v ← value first
  links.foldlM (applyLink value) v

/-- Walking a chain, with more of it to come, is evaluating its expression and going on. -/
theorem foldlM_walk (env : Environment) (links : List (BinaryOp × Expr)) (e : Expr) :
    plainValue env (e.walk links).1 >>= (e.walk links).2.foldlM (applyLink (plainValue env))
      = plainValue env e >>= links.foldlM (applyLink (plainValue env)) := by
  fun_induction Formula.Expr.walk links e with
  | case1 links op left right ih =>
    rw [ih, plainValue, bind_assoc]
    refine congrArg (plainValue env left >>= ·) (funext fun v => ?_)
    simp only [List.foldlM_cons, applyLink, bind_assoc, pure_bind]
  | case2 => rfl

theorem chainValue_plainValue (env : Environment) (e : Expr) : chainValue (plainValue env) e = plainValue env e :=
  (foldlM_walk env [] e).trans (bind_pure _)

theorem chainValue_eq (env : Environment) (e : Expr) : chainValue (evaluate env) e = evaluate env e := by
  have hevaluate : evaluate env = plainValue env := funext (evaluate_eq_plainValue env)
  rw [hevaluate, chainValue_plainValue]

/-! ## Chains within chains -/

theorem sizeOf_walk (links : List (BinaryOp × Expr)) (e : Expr) :
    sizeOf (e.walk links).1 ≤ sizeOf e ∧ ∀ link ∈ (e.walk links).2, link ∈ links ∨ sizeOf link.2 < sizeOf e := by
  fun_induction Formula.Expr.walk links e with
  | case1 links op left right ih =>
    obtain ⟨hfirst, hlinks⟩ := ih
    rw [Expr.binary.sizeOf_spec]
    refine ⟨by omega, fun link hlink => ?_⟩
    rcases hlinks link hlink with hlink | hsize
    · rcases List.mem_cons.1 hlink with rfl | hlink
      · exact .inr (by dsimp only; omega)
      · exact .inl hlink
    · exact .inr (by omega)
  | case2 => exact ⟨Nat.le_refl _, fun link hlink => .inl hlink⟩

/-- The operands of a chain are parts of it. -/
theorem sizeOf_walk_binary {op : BinaryOp} {left right : Expr} :
    sizeOf (left.walk [(op, right)]).1 < sizeOf (Expr.binary op left right) ∧
      ∀ link ∈ (left.walk [(op, right)]).2, sizeOf link.2 < sizeOf (Expr.binary op left right) := by
  obtain ⟨hfirst, hlinks⟩ := sizeOf_walk [(op, right)] left
  rw [Expr.binary.sizeOf_spec]
  refine ⟨by omega, fun link hlink => ?_⟩
  rcases hlinks link hlink with hlink | hsize
  · obtain rfl := List.mem_singleton.1 hlink
    dsimp only
    omega
  · omega

/-- The value of an expression, where every chain of operators is walked in a loop: the operators are collected down to
the first operand, and then applied one after the other. -/
def walkingValue (env : Environment) : Expr → Readings Value
  | .number x => return .number x
  | .text s => return .text s
  | .boolean b => return .boolean b
  | .error e => return .error e
  | .missing => return .empty
  | .cell a => Readings.cell a
  | .range r => return .array (← Readings.grid r)
  | .name s => throw (.unknownName s)
  | .binary op left right => do
    let v ← walkingValue env (left.walk [(op, right)]).1
    (left.walk [(op, right)]).2.attach.foldlM (fun v link => do
      return applyBinary link.1.1 v (← walkingValue env link.1.2)) v
  | .unary op operand => return applyUnary op (← walkingValue env operand)
  | .call function arguments =>
    callFunction env function (arguments.attach.map fun e => ⟨e.1, fun _ => walkingValue env e.1⟩)
  | .array rows => return .array (← rows.attach.mapM fun row => row.1.attach.mapM fun e => walkingValue env e.1)
termination_by e => sizeOf e
decreasing_by
  · exact sizeOf_walk_binary.1
  · exact sizeOf_walk_binary.2 _ link.2
  · exact Expr.sizeOf_children (.head _)
  · exact Expr.sizeOf_children e.2
  · exact Expr.sizeOf_children (List.mem_flatten_of_mem row.2 e.2)

/-- Walking all chains in loops is evaluation. -/
theorem walkingValue_eq (env : Environment) (e : Expr) : walkingValue env e = evaluate env e := by
  rw [evaluate_eq_plainValue]
  fun_induction walkingValue env e with
  | case9 op left right ihfirst ihlinks =>
    simp only [ihfirst, ihlinks]
    refine Eq.trans (congrArg (plainValue env _ >>= ·) (funext fun v => ?_))
      (chainValue_plainValue env (.binary op left right))
    rw [List.foldlM_subtype (g := applyLink (plainValue env)) fun _ _ _ => rfl, List.unattach_attach]
  | case10 op operand ih => rw [ih, plainValue]
  | case11 function arguments ih =>
    simp only [ih, plainValue, plainArguments_eq]
    rw [List.map_subtype (g := fun e => ⟨e, fun _ => plainValue env e⟩) fun _ _ => rfl, List.unattach_attach]
  | case12 rows ih =>
    simp only [ih, plainValue, plainRows_eq]
    have hrow : ∀ row ∈ rows, row.attach.mapM (fun e => plainValue env e.1) = row.mapM (plainValue env) :=
      fun row _ => by rw [List.mapM_subtype (g := plainValue env) fun _ _ => rfl, List.unattach_attach]
    rw [List.mapM_subtype hrow, List.unattach_attach]
  | _ => rfl

/-- An operator, with however long a chain to its left and with chains inside it, is evaluated as by plain recursion:
the left operand, the right one, and then the operator. It is the same computation, so a source is asked the same in
the same order, up to the same failure. -/
theorem evaluate_binary (env : Environment) (op : BinaryOp) (left right : Expr) {m : Type → Type} [Monad m]
    [LawfulMonad m] (src : CellSource m) :
    walkingValue env (.binary op left right) = evaluate env (.binary op left right) ∧
    chainValue (evaluate env) (.binary op left right) = evaluate env (.binary op left right) ∧
    evaluate env (.binary op left right) = (do
      let v ← plainValue env left
      let w ← plainValue env right
      return applyBinary op v w) ∧
    (evaluate env (.binary op left right)).outcome src.noting = (do
      let v ← (plainValue env left).outcome src.noting
      let w ← (plainValue env right).outcome src.noting
      return applyBinary op v w) := by
  have hplain : evaluate env (.binary op left right) = (do
      let v ← plainValue env left
      let w ← plainValue env right
      return applyBinary op v w) := by
    rw [evaluate_eq_plainValue, plainValue]
  refine ⟨walkingValue_eq env _, chainValue_eq env _, hplain, ?_⟩
  rw [hplain]
  simp only [Readings.outcome_bind, Readings.outcome_pure]

/-- Two operators, of which the second one has an operand on a sheet that is gone. -/
def brokenChain : Expr :=
  .binary .concat (.binary .concat (.cell { row := 0, column := 0 }) (.text "-"))
    (.cell { row := 0, column := 0, sheet := some "Gone" })

def nextCell : Expr := .cell { row := 1, column := 0 }

/-- Counts the requests for cells, and has the cells of one sheet. -/
def countingSource : CellSource (StateM Nat) :=
  .plain (fun a => do
    modify (· + 1)
    return if a.sheet.isSome then .error (.unknownName "Gone") else .ok (.boolean true)) fun _ => none

theorem evaluate_binary_brokenChain :
    walkingValue .plain (.binary .concat brokenChain nextCell)
        = evaluate .plain (.binary .concat brokenChain nextCell) ∧
      (evaluate .plain (.binary .concat brokenChain nextCell)).outcome countingSource.noting = (do
        let v ← (plainValue .plain brokenChain).outcome countingSource.noting
        let w ← (plainValue .plain nextCell).outcome countingSource.noting
        return applyBinary .concat v w) :=
  have h := evaluate_binary .plain .concat brokenChain nextCell countingSource
  ⟨h.1, h.2.2.2⟩

/-- The second cell fails, so the third one is not read. -/
example : ((evaluate .plain (.binary .concat brokenChain nextCell)).outcome countingSource).run.run 0
    = (.error (.unknownName "Gone"), 2) := rfl

end Spreadsheet
