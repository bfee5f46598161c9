import Mathlib.Data.List.Forall2
import Spreadsheet.Evaluation.Evaluate
import Spreadsheet.Proofs.Call
import Spreadsheet.Proofs.Clipping

/-!
# Functions that ignore blanks

A function that ignores blanks is given only the part of a range that holds data. This makes no difference to it.

* `Value.UpToBlanks` : values that differ in blanks only;
* `SkipsBlanks` : blanks make no difference to what is computed with values; `map_mapM_filled` : so it is for whatever
  is put together from what single values add, if blanks add nothing;
* `honest_builtin` : so it is for all built-in functions that are said to ignore blanks;
* `callWith_clipped` : calls.
-/

namespace Spreadsheet

/-- The same value, or grids of which the cells are the same but for blanks. -/
inductive Value.UpToBlanks : Value → Value → Prop where
  | same (v : Value) : UpToBlanks v v
  | grids {g h : Grid} (hg : filled g.flatten = filled h.flatten) : UpToBlanks (.array g) (.array h)

/-! ## Functions -/

/-- A function of values to which blanks inside grids make no difference. -/
def SkipsBlanks {α : Type} (f : List Value → α) : Prop :=
  ∀ vs ws, List.Forall₂ Value.UpToBlanks vs ws → f vs = f ws

section Gathering

variable {β γ : Type}

/-- What blanks add to the whole is nothing, so they can as well be left out. -/
theorem map_mapM_filled {adds : Value → Outcome β} {whole : List β → γ} {op : β → γ → γ} {unit : β}
    (hcons : ∀ b bs, whole (b :: bs) = op b (whole bs)) (hunit : ∀ c, op unit c = c) (hblank : adds .empty = .ok unit)
    (vs : List Value) : whole <$> (filled vs).mapM adds = whole <$> vs.mapM adds := by
  have hstep : ∀ v vs, whole <$> (v :: vs).mapM adds = adds v >>= fun b => op b <$> whole <$> vs.mapM adds := by
    intro v vs
    simp only [List.mapM_cons, hcons, map_eq_pure_bind, bind_assoc, pure_bind]
  induction vs with
  | nil => rfl
  | cons v vs ih =>
    by_cases hv : v.isEmpty
    · cases v with
      | empty =>
        have hop : op unit = id := funext hunit
        rw [filled_empty_cons, ih, hstep, hblank]
        change _ = op unit <$> whole <$> vs.mapM adds
        rw [hop, id_map]
      | _ => cases hv
    · rw [filled, List.filter_cons_of_pos (by simpa using hv), ← filled, hstep, hstep, ih]

theorem flatten_mapM_filled {adds : Value → Outcome (List β)} (hblank : adds .empty = .ok []) (vs : List Value) :
    List.flatten <$> (filled vs).mapM adds = List.flatten <$> vs.mapM adds :=
  map_mapM_filled (fun _ _ => List.flatten_cons) List.nil_append hblank vs

/-- Whole grids can be compared by what their values add. -/
theorem flatten_mapM_congr (adds : Value → Outcome (List β)) (hblank : adds .empty = .ok []) {vs ws : List Value}
    (h : filled vs = filled ws) : List.flatten <$> vs.mapM adds = List.flatten <$> ws.mapM adds := by
  rw [← flatten_mapM_filled hblank, h, flatten_mapM_filled hblank]

theorem countP_filled {p : Value → Bool} (hp : p .empty = false) (vs : List Value) :
    vs.countP p = (filled vs).countP p := by
  rw [filled, List.countP_filter]
  refine List.countP_congr fun v _ => ?_
  cases v <;> simp [hp, Value.isEmpty]

theorem mapM_congr_forall₂ {R : Value → Value → Prop} {f : Value → Outcome β} (hf : ∀ v w, R v w → f v = f w)
    {vs ws : List Value} (h : List.Forall₂ R vs ws) : vs.mapM f = ws.mapM f := by
  induction h with
  | nil => rfl
  | cons hvw _ ih => rw [List.mapM_cons, List.mapM_cons, hf _ _ hvw, ih]

end Gathering

open Value (UpToBlanks)

theorem filled_scalars {vs ws : List Value} (h : List.Forall₂ UpToBlanks vs ws) :
    filled (scalars vs) = filled (scalars ws) := by
  induction h with
  | nil => rfl
  | cons hvw _ ih =>
    rw [scalars, scalars, List.flatMap_cons, List.flatMap_cons, ← scalars, ← scalars, filled_append, filled_append, ih]
    cases hvw with
    | same v => rfl
    | grids hg => rw [cellsOf, cellsOf, hg]

theorem skipsBlanks_collectNumbers : SkipsBlanks collectNumbers := by
  intro vs ws h
  have hargument : ∀ v w, UpToBlanks v w → argumentNumbers v = argumentNumbers w := by
    intro v w hvw
    cases hvw with
    | same v => rfl
    | grids hg => exact flatten_mapM_congr cellNumbers rfl hg
  exact congrArg (List.flatten <$> ·) (mapM_congr_forall₂ hargument h)

open Statistical in
theorem skipsBlanks_ofNumbers (f : List Binary64.Number → Outcome Binary64.Number) : SkipsBlanks (ofNumbers f) :=
  fun vs ws h => by rw [ofNumbers, ofNumbers, skipsBlanks_collectNumbers vs ws h]

open Statistical in
theorem skipsBlanks_count : SkipsBlanks count := by
  have hargument : ∀ v w, UpToBlanks v w → numberCount v = numberCount w := by
    intro v w hvw
    cases hvw with
    | same v => rfl
    | grids hg =>
      rw [numberCount, numberCount, countP_filled rfl, hg, ← countP_filled rfl]
  have hfold : ∀ vs ws, List.Forall₂ UpToBlanks vs ws → ∀ n : Nat,
      vs.foldl (fun n v => n + numberCount v) n = ws.foldl (fun n v => n + numberCount v) n := by
    intro vs ws h
    induction h with
    | nil => exact fun _ => rfl
    | cons hvw _ ih =>
      intro n
      rw [List.foldl_cons, List.foldl_cons, hargument _ _ hvw, ih]
  intro vs ws h
  rw [count, count, hfold vs ws h 0]

open Statistical in
theorem skipsBlanks_countFilled : SkipsBlanks countFilled := by
  intro vs ws h
  rw [countFilled, countFilled, List.countP_eq_length_filter, List.countP_eq_length_filter]
  exact congrArg (fun vs : List Value => Except.ok (countOf vs.length)) (filled_scalars h)

open TextFunction in
theorem skipsBlanks_concat : SkipsBlanks concat := by
  intro vs ws h
  have hjoin : ∀ vs : List Value, String.join <$> (filled vs).mapM textOf = String.join <$> vs.mapM textOf :=
    map_mapM_filled (fun _ _ => String.join_cons) (fun _ => String.empty_append) rfl
  have hconcat : ∀ vs, concat vs = Value.text <$> String.join <$> (filled (scalars vs)).mapM textOf := fun vs => by
    rw [hjoin, concat, concatenate, bind_pure_comp, Functor.map_map]
  rw [hconcat, hconcat, filled_scalars h]

open Logical in
theorem skipsBlanks_truthValues : SkipsBlanks truthValues := by
  intro vs ws h
  have hargument : ∀ v w, UpToBlanks v w → argumentTruths v = argumentTruths w := by
    intro v w hvw
    cases hvw with
    | same v => rfl
    | grids hg => exact flatten_mapM_congr cellTruth rfl hg
  rw [truthValues, truthValues, mapM_congr_forall₂ hargument h]

/-- Blanks make no difference to the outcome of a function, which is given the values of its arguments. -/
def Function.SkipsBlanks (f : Function) : Prop :=
  match f.implementation with
  | .eager apply => ∀ surroundings, Spreadsheet.SkipsBlanks (apply surroundings)
  | .lazy _ => False

theorem Function.skipsBlanks_ofValues {f : List Value → Outcome Value} (h : Spreadsheet.SkipsBlanks f)
    (category : Category) (name : String) (least : Nat) (most : Option Nat) :
    (Function.ofValues category name least most f).ignoringBlanks.SkipsBlanks :=
  fun _ vs ws hvw => congrArg (fun outcome => Except.ok (Outcome.toValue outcome)) (h vs ws hvw)

section Builtin

/-- A function that is said to ignore blanks does so. -/
structure Function.Honest (f : Function) : Prop where
  skipsBlanks : f.ignoresBlanks → f.SkipsBlanks

theorem honest_of_all {fs : List Function} (h : fs.all fun f => !f.ignoresBlanks) : ∀ f ∈ fs, f.Honest := by
  refine fun f hf => ⟨fun hblanks => ?_⟩
  have hnot := List.all_eq_true.1 h f hf
  rw [hblanks] at hnot
  cases hnot

open Statistical in
theorem honest_statistical [RegexLibrary] : ∀ f ∈ statisticalFunctions, f.Honest := by
  have haggregate : ∀ {f} name, SkipsBlanks f → (aggregate name f).Honest := fun name h =>
    ⟨fun _ => Function.skipsBlanks_ofValues h .statistical name 1 none⟩
  have hnumbers : ∀ name f, (aggregate name (ofNumbers f)).Honest := fun name f =>
    haggregate name (skipsBlanks_ofNumbers f)
  have hother : ∀ name least most f, (function name least most f).Honest := fun _ _ _ _ => ⟨nofun⟩
  simp only [statisticalFunctions, List.forall_mem_cons]
  exact ⟨hnumbers .., hnumbers .., hnumbers .., hnumbers .., haggregate _ skipsBlanks_count,
    haggregate _ skipsBlanks_countFilled, hother .., hnumbers .., hnumbers .., hnumbers .., hnumbers .., hnumbers ..,
    hnumbers .., hnumbers .., hother .., hother .., hother .., hother .., hother .., hother .., hother .., hother ..,
    hother .., List.forall_mem_nil _⟩

open Logical in
theorem honest_logical : ∀ f ∈ logicalFunctions, f.Honest := by
  have hchoice : ∀ name least most f, (choice name least most f).Honest := fun _ _ _ _ => ⟨nofun⟩
  have hconnective : ∀ name f, (connective name f).Honest := fun name f => ⟨fun _ =>
    Function.skipsBlanks_ofValues (fun vs ws h => by simp only [skipsBlanks_truthValues vs ws h]) .logical name 1 none⟩
  have hother : ∀ name least most f, (Function.ofValues .logical name least most f).Honest := fun _ _ _ _ => ⟨nofun⟩
  simp only [logicalFunctions, List.forall_mem_cons]
  exact ⟨hchoice .., hchoice .., hchoice .., hchoice .., hconnective .., hconnective .., hconnective .., hother ..,
    hother .., hother .., List.forall_mem_nil _⟩

open TextFunction in
theorem honest_text [RegexLibrary] : ∀ f ∈ textFunctions, f.Honest := by
  have hconcat : (Function.ofValues .text "CONCAT" 1 none concat).ignoringBlanks.Honest :=
    ⟨fun _ => Function.skipsBlanks_ofValues skipsBlanks_concat .text "CONCAT" 1 none⟩
  have hother : ∀ name least most f, (function name least most f).Honest := fun _ _ _ _ => ⟨nofun⟩
  simp only [textFunctions, List.forall_mem_cons]
  exact ⟨hother .., hother .., hother .., hother .., hother .., hother .., hother .., hother .., hother .., hother ..,
    hother .., hother .., ⟨nofun⟩, hconcat, hother .., hother .., ⟨nofun⟩, hother .., List.forall_mem_nil _⟩

/-- Blanks make no difference to any built-in function that ignores them. -/
theorem honest_builtin [RegexLibrary] {f : Function} (hf : f ∈ builtinFunctions) : f.Honest := by
  simp only [builtinFunctions, List.mem_append] at hf
  rcases hf with (((((hf | hf) | hf) | hf) | hf) | hf) | hf
  · exact honest_statistical f hf
  · exact honest_of_all rfl f hf
  · exact honest_logical f hf
  · exact honest_text f hf
  · exact honest_of_all rfl f hf
  · exact honest_of_all rfl f hf
  · exact honest_of_all rfl f hf

end Builtin

/-! ## Calls -/

/-- The value of an argument. -/
def Argument.value (clipped : Bool) (a : Argument) : Readings Value :=
  match a.expr with
  | .range r => if clipped then Value.array <$> Readings.usedGrid r else a.evaluate ()
  | _ => a.evaluate ()

theorem argumentValues_cons (clipped : Bool) (read : List Value) (a : Argument) (rest : List Argument) :
    argumentValues clipped read (a :: rest)
      = a.value clipped >>= fun v => argumentValues clipped (v :: read) rest := by
  rw [argumentValues, Argument.value]
  cases a.expr with
  | range r => cases clipped <;> rfl
  | _ => rfl

section Calls

variable (env : Environment) (extent : Option String → Option Extent)

/-- Whatever is not a bare range is evaluated in the same way. -/
theorem value_clipped (e : Formula.Expr) :
    (((⟨e, fun _ => evaluateInto env e pure⟩ : Argument).value true).cells extent).InStep (BothEnd UpToBlanks)
      (((⟨e, fun _ => evaluateInto env e pure⟩ : Argument).value false).cells extent) := by
  have hsame : ∀ t : Readings Value, (t.cells extent).InStep (BothEnd UpToBlanks) (t.cells extent) := fun t =>
    .refl (fun outcome => by
      cases outcome with
      | error fault => exact .failed fault
      | ok v => exact .ok (.same v)) _
  cases e with
  | range r =>
    have hused : Argument.value true ⟨.range r, fun _ => evaluateInto env (.range r) pure⟩
        = Readings.usedGrid r >>= fun g => pure (.array g) := rfl
    have hwhole : Argument.value false ⟨.range r, fun _ => evaluateInto env (.range r) pure⟩
        = Readings.grid r >>= fun g => pure (.array g) := by
      change evaluateInto env (.range r) pure = _
      rw [evaluateInto]
    rw [hused, hwhole]
    exact Readings.inStep_bind (grid_clipped r) fun g h hg => .done (.ok (.grids hg))
  | _ => exact hsame _

theorem argumentValues_clipped (es : List Formula.Expr) : ∀ {read read' : List Value},
    List.Forall₂ UpToBlanks read read' →
    ((argumentValues true read (argumentList env es)).cells extent).InStep (BothEnd (List.Forall₂ UpToBlanks))
      ((argumentValues false read' (argumentList env es)).cells extent) := by
  induction es with
  | nil =>
    intro read read' hread
    rw [argumentList]
    exact .done (.ok (List.rel_reverse hread))
  | cons e es ih =>
    intro read read' hread
    rw [argumentList, argumentValues_cons, argumentValues_cons]
    exact Readings.inStep_bind (value_clipped env extent e) fun v w hvw => ih (.cons hvw hread)

/-- The same questions are asked, and the call comes to the same. -/
theorem callWith_inStep {f : Function} (hf : f.SkipsBlanks) (es : List Formula.Expr) :
    ((f.callWith true env (argumentList env es)).cells extent).InStep Eq
      ((f.callWith false env (argumentList env es)).cells extent) := by
  unfold Function.callWith
  cases f.arityError? (argumentList env es).length with
  | some fault => exact .refl (fun _ => rfl) _
  | none =>
    unfold Function.SkipsBlanks at hf
    cases himplementation : f.implementation with
    | lazy apply => exact .refl (fun _ => rfl) _
    | eager apply =>
      rw [himplementation] at hf
      have hvalues := Readings.inStep_bind (S := Eq) (argumentValues_clipped env extent es .nil)
        (f := fun vs => Function.callWith.liftExcept (apply env.surroundings vs))
        (g := fun ws => Function.callWith.liftExcept (apply env.surroundings ws)) fun vs ws h => by
          rw [hf env.surroundings vs ws h]
          exact .refl (fun outcome => by cases outcome <;> constructor; rfl) _
      refine hvalues.mono fun _ _ h => ?_
      cases h with
      | failed fault => rfl
      | ok h => rw [h]

end Calls

/-- A function that ignores blanks is told nothing new by the rest of a range. It has the same value, or fails in the
same way, after the same requests for cells. Those for a range are for its cells within the extent, each of them once
and row by row, up to the first that fails. -/
theorem callWith_clipped [RegexLibrary] (env : Environment) (f : Function) (hf : f ∈ builtinFunctions)
    (hblanks : f.ignoresBlanks) (es : List Formula.Expr) {m : Type → Type} [Monad m] [LawfulMonad m]
    (ask : Address → m Answer)
    (extent : Option String → Option Extent) :
    (f.callWith true env (argumentList env es)).outcome (.plain ask extent)
        = (f.callWith false env (argumentList env es)).outcome (.plain ask extent) ∧
      ∀ r : CellRange, ∃ cells : List Address, cells.Pairwise CellRange.Precedes ∧
        (∀ a, a ∈ cells ↔ ∃ row column, a = { row, column, sheet := r.sheet } ∧ r.contains row column ∧
          (extent r.sheet).all fun e => e.holds row column) ∧
        discard ((Readings.usedGrid r).outcome (.plain ask extent))
          = (forM cells fun a => discard (ExceptT.mk (ask a)) : ExceptT FormulaError m Unit) ∧
        discard ((Readings.grid r).outcome (.plain ask extent))
          = (forM cells fun a => discard (ExceptT.mk (ask a)) : ExceptT FormulaError m Unit) := by
  refine ⟨?_, fun r => ⟨r.within (extent r.sheet), r.pairwise_within _, fun a => CellRange.mem_within, ?_, ?_⟩⟩
  · have heq := (callWith_inStep env extent ((honest_builtin hf).skipsBlanks hblanks) es).eq
    rw [Readings.outcome_plain, Readings.outcome_plain, heq]
  · exact (discard_usedGrid extent ask r).trans (discard_grid extent ask r)
  · exact discard_grid extent ask r

/-- `SUM` over a range that is written from its last corner and reaches beyond the data, with a list of what is read. -/
def sumFunction : Function := Statistical.aggregate "SUM" (Statistical.ofNumbers fun xs => .ok (sum xs))

def reversedRange : CellRange := .ofCorners { row := 9, column := 1, sheet := some "Data" } { row := 0, column := 0 }

def notedCell (a : Address) : StateM (List Address) Answer := do
  modify (a :: ·)
  return .ok (.boolean true)

theorem callWith_clipped_sum :
    sumFunction ∈ builtinFunctions ∧ sumFunction.ignoresBlanks ∧
    (sumFunction.callWith true .plain (argumentList .plain [.range reversedRange])).outcome
        (.plain notedCell fun _ => some ⟨2, 5⟩)
      = (sumFunction.callWith false .plain (argumentList .plain [.range reversedRange])).outcome
        (.plain notedCell fun _ => some ⟨2, 5⟩) := by
  have hmem : sumFunction ∈ builtinFunctions := List.mem_of_getElem? (i := 0) rfl
  exact ⟨hmem, rfl, (callWith_clipped .plain sumFunction hmem rfl [.range reversedRange] notedCell _).1⟩

end Spreadsheet
