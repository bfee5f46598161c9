import Spreadsheet.Proofs.ArrayLiterals
import Spreadsheet.Proofs.BuiltinCalls
import Spreadsheet.Proofs.Call
import Spreadsheet.Proofs.Counts

/-!
# Overflow

Operators and most functions give an error value where a result is not a finite number. Sums, products and averages do
not look, and texts may be read as infinity. So all depends on the parts of a formula that leak numbers or make texts:
if their values have finite numbers, so has the value of the formula, unless it leaks numbers itself.

* `Expr.isLeaking`, `Expr.isUnguarded` : those parts; `Expr.handed` : the values that a call hands to its function;
* `evaluate_isFinite_step`, `evaluate_isFinite` : all other nodes keep values finite, and so do expressions of them;
* `evaluateFormula_isFinite` : finite literals, finite cells and finite values of the parts make finite numbers;
* `evaluateFormula_sumOverflow` : a sum of finite literals that is infinite;
* `evaluateFormula_isFinite_of_guarded` : formulas without such parts.
-/

namespace Spreadsheet

open Binary64 (Number)
open Formula (Expr parseFormula)

/-! ## Nodes -/

namespace Formula.Expr

/-- Number literals are to be finite, and text literals not to be read as infinity or no number. -/
def isFiniteLiteral : Expr → Bool
  | number x => x.isFinite
  | text s => (Decimal.trimmedNumber? s).all fun x => x.float.isFinite
  | _ => true

/-- A call of a function that does not look at the number it gives. -/
def isLeaking : Expr → Bool
  | call function _ => leaking.contains (Text.upper function)
  | _ => false

/-- What may give an infinite number, or a text that is read as one, even if all that it is given is finite. -/
def isUnguarded : Expr → Bool
  | binary .concat _ _ => true
  | call function _ => (leaking ++ textMaking).contains (Text.upper function)
  | _ => false

/-- A call of a function that counts. -/
def isCounting : Expr → Bool
  | call function _ => counting.contains (Text.upper function)
  | _ => false

/-- The values that a call hands to its function. -/
def handed (env : Environment) : Expr → Readings (List Value)
  | call function arguments => match env.registry.get? function with
    | some f => argumentValues f.ignoresBlanks [] (argumentList env arguments)
    | none => return []
  | _ => return []

end Formula.Expr

/-- Whether the answer is a finite number, or a text that is not read as any other number. -/
def Answer.isFinite : Answer → Bool
  | .ok (.number x) => x.float.isFinite
  | .ok (.text s) => (Decimal.trimmedNumber? s).all fun x => x.float.isFinite
  | _ => false

theorem Answer.onSuccess_isFinite {answer : Answer} (h : answer.isFinite) : OnSuccess Value.IsFinite answer := by
  unfold Answer.isFinite at h
  split at h
  · exact onSuccess_ok.2 (.number h)
  · exact onSuccess_ok.2 (.text fun x hx => (Option.all_eq_true _ _).1 h x hx)
  · cases h

/-- The number that is the answer. -/
def Answer.number? : Answer → Option Number
  | .ok (.number x) => some x
  | _ => none

theorem Answer.number?_eq_some {answer : Answer} {x : Number} : answer.number? = some x ↔ answer = .ok (.number x) := by
  constructor
  · intro h
    unfold Answer.number? at h
    split at h
    · cases h
      rfl
    · cases h
  · rintro rfl
    rfl

/-- A function that yields something for what it is handed makes a call do so. -/
theorem callFunction_yields {env : Environment} {function : String} {es : List Expr} {may : Address → Answer → Prop}
    {extent : Option String → Option Extent} {Q : List Value → Prop} {P : Value → Prop}
    (hyields : ∀ f, env.registry.get? function = some f → f.implementation.Yields env.surroundings Q P)
    (hhanded : ((Expr.call function es).handed env).Ensures may extent Q) :
    (callFunction env function (argumentList env es)).Ensures may extent P := by
  unfold callFunction
  cases hf : env.registry.get? function with
  | none => exact .throw _
  | some f =>
    have hyields := hyields f hf
    simp only [Formula.Expr.handed, hf] at hhanded
    dsimp only
    unfold Function.callWith
    split
    · exact .throw _
    · split
      · rename_i apply himplementation
        rw [himplementation] at hyields
        exact hhanded.bind fun vs hvs => .lift (hyields vs hvs)
      · rename_i apply himplementation
        rw [himplementation] at hyields
        exact hyields.elim

theorem applyBinary_concat_shows (v w : Value) : (applyBinary .concat v w).ShowsFinite := by
  unfold applyBinary
  split
  · exact .inl (.error _)
  · exact .inl (.error _)
  · exact .inl (.error _)
  · exact .inl (.error _)
  · exact .inr ⟨_, rfl⟩

section Formulas

variable [RegexLibrary] {m : Type → Type} [Monad m] [LawfulMonad m] {env : Environment} {formula : String} {e s : Expr}
  {src : CellSource m} {may : Address → Answer → Prop} {extent : Option String → Option Extent}

section Nodes

variable (hregistry : env.registry = .builtin) (hclock : env.surroundings.clock.seconds < Calendar.secondsPerDay)
include hregistry

theorem name_of_get? {function : String} {f : Function} (hf : env.registry.get? function = some f) :
    f ∈ builtinFunctions ∧ f.name = Text.upper function := by
  rw [hregistry] at hf
  obtain ⟨hbuiltin, hname⟩ := Registry.mem_of_get? hf
  exact ⟨hbuiltin, (upper_builtin f hbuiltin).symm.trans hname⟩

include hclock

theorem keeps_isFinite (hparse : parseFormula formula = .ok e) (hs : e.Contains s) (hliteral : s.isFiniteLiteral)
    (hguarded : s.isUnguarded = false) (hcounting : s.isCounting = false) : s.Keeps env Value.IsFinite := by
  cases s with
  | number x => exact .number hliteral
  | text s => exact .text fun x hx => (Option.all_eq_true _ _).1 hliteral x hx
  | array rows => exact Formula.isEven_of_parseFormula hparse hs
  | binary op left right =>
    refine fun v w _ _ => applyBinary_isFinite (fun hop => ?_) v w
    rw [hop] at hguarded
    cases hguarded
  | unary op operand => exact fun v hv => applyUnary_isFinite hv
  | call function arguments =>
    intro f hf
    obtain ⟨hbuiltin, hname⟩ := name_of_get? hregistry hf
    refine builtin_guarded hclock f hbuiltin fun hmem => ?_
    rw [hname] at hmem
    rcases List.mem_append.1 hmem with hmem | hmem
    · rw [Expr.isUnguarded, List.contains_iff_mem.2 hmem] at hguarded
      cases hguarded
    · rw [Expr.isCounting, List.contains_iff_mem.2 hmem] at hcounting
      cases hcounting
  | _ => trivial

/-- A node that does not leak numbers or make texts has a finite value if its parts have; one that counts has it as long
as what it counts fits in memory. -/
theorem evaluate_isFinite_step (hmay : ∀ a answer, may a answer → OnSuccess Value.IsFinite answer)
    (hparse : parseFormula formula = .ok e) (hs : e.Contains s) (hliteral : s.isFiniteLiteral)
    (hsize : s.isCounting → (s.handed env).Ensures may extent InMemory) (hguarded : s.isUnguarded = false)
    (hchildren : ∀ c ∈ s.children, (evaluate env c).Ensures may extent Value.IsFinite) :
    (evaluate env s).Ensures may extent Value.IsFinite := by
  cases hcounting : s.isCounting with
  | false =>
    have hkeeps := keeps_isFinite hregistry hclock hparse hs hliteral hguarded hcounting
    exact evaluate_step Value.IsFinite.hereditary hmay hkeeps hchildren
  | true =>
    cases s with
    | call function arguments =>
      rw [evaluate_eq_plainValue, plainValue, ← argumentList_eq]
      refine callFunction_yields (fun f hf => ?_) (hsize hcounting)
      obtain ⟨hbuiltin, hname⟩ := name_of_get? hregistry hf
      exact counting_yields f hbuiltin (hname ▸ List.contains_iff_mem.1 hcounting)
    | _ => cases hcounting

theorem evaluate_isFinite (hmay : ∀ a answer, may a answer → OnSuccess Value.IsFinite answer) {root : Expr}
    (hparse : parseFormula formula = .ok root) (hroot : root.Contains e)
    (hliterals : ∀ s, e.Contains s → s.isFiniteLiteral)
    (hsizes : ∀ s, e.Contains s → s.isCounting → (s.handed env).Ensures may extent InMemory)
    (hparts : ∀ s, e.Contains s → s.isUnguarded → (evaluate env s).Ensures may extent Value.IsFinite) :
    (evaluate env e).Ensures may extent Value.IsFinite := by
  induction e using Formula.Expr.children_induction with
  | h e ih =>
    cases hguarded : e.isUnguarded with
    | true => exact hparts e .refl hguarded
    | false =>
      refine evaluate_isFinite_step hregistry hclock hmay hparse hroot (hliterals e .refl) (hsizes e .refl) hguarded
        fun c hc => ?_
      exact ih c hc (hroot.tail hc) (fun s hs => hliterals s (hs.head hc))
        (fun s hs => hsizes s (hs.head hc)) fun s hs => hparts s (hs.head hc)

end Nodes

/-- Over cells with finite numbers, a formula that does not leak numbers itself shows only finite ones, if its literals
are finite, and the values of its parts that leak numbers or make texts. What is counted has to fit in memory. -/
theorem evaluateFormula_isFinite (hregistry : env.registry = .builtin)
    (hclock : env.surroundings.clock.seconds < Calendar.secondsPerDay) (hparse : parseFormula formula = .ok e)
    (hliterals : ∀ s, e.Contains s → s.isFiniteLiteral)
    (hmay : ∀ a answer, may a answer → OnSuccess Value.IsFinite answer)
    (hcells : ∀ a, SatisfiesM (may a) (src.cell a))
    (hsizes : ∀ s, e.Contains s → s.isCounting → (s.handed env).Ensures may src.extent InMemory)
    (hleaking : e.isLeaking = false)
    (hparts : ∀ c ∈ e.children, ∀ s, c.Contains s → s.isUnguarded →
      (evaluate env s).Ensures may src.extent Value.IsFinite) :
    SatisfiesM Value.ShowsFinite ((evaluateFormula env formula).outcome src) := by
  have hchildren : ∀ c ∈ e.children, (evaluate env c).Ensures may src.extent Value.IsFinite := fun c hc =>
    evaluate_isFinite hregistry hclock hmay hparse (.single hc) (fun s hs => hliterals s (hs.head hc))
      (fun s hs => hsizes s (hs.head hc)) (hparts c hc)
  suffices hroot : (evaluate env e).Ensures may src.extent Value.ShowsFinite by
    rw [evaluateFormula, hparse]
    exact hroot.outcome hcells
  cases hguarded : e.isUnguarded with
  | false =>
    exact (evaluate_isFinite_step hregistry hclock hmay hparse .refl (hliterals e .refl) (hsizes e .refl) hguarded
      hchildren).imp fun _ => .inl
  | true =>
    -- what is not guarded and leaks no numbers makes a text
    cases e with
    | binary op left right =>
      cases op with
      | concat =>
        have hleft := hchildren left (by simp [Expr.children])
        have hright := hchildren right (by simp [Expr.children])
        rw [evaluate_eq_plainValue] at hleft hright ⊢
        exact hleft.bind fun v _ => hright.bind fun w _ => .pure (applyBinary_concat_shows v w)
      | _ => cases hguarded
    | call function arguments =>
      have hmem : Text.upper function ∈ textMaking := by
        rw [Expr.isUnguarded, List.contains_iff_mem, List.mem_append] at hguarded
        rw [Expr.isLeaking, ← Bool.not_eq_true, List.contains_iff_mem] at hleaking
        exact hguarded.resolve_left hleaking
      rw [evaluate_eq_plainValue, plainValue, ← argumentList_eq]
      refine callFunction_yields (Q := fun _ => True) (fun f hf => ?_) ?_
      · obtain ⟨hbuiltin, hname⟩ := name_of_get? hregistry hf
        exact textMaking_yields f hbuiltin (hname ▸ hmem)
      · rw [Formula.Expr.handed]
        split
        · exact (argumentValues_ensures Value.IsFinite.hereditary hmay _ (List.forall_mem_nil _) hchildren).imp
            fun _ _ => trivial
        · exact .pure trivial
    | _ => cases hguarded

end Formulas

/-- A product that is too large, and a sum that is not; before that, a text is put together, and counted. -/
def guardedSum : String := "=IF(LEN(A1&B1)>2,LARGE(A1:B2,1)*1E308,SUM(A1:B2,PI(),-A2%))"

def threes (a : Address) : Answer := .ok (if a.column = 0 then .number (3.0 : Float) else .text "three")

def threesSource : CellSource Id := .plain threes fun _ => none

/-- Finite literals, counts of what fits in memory, and finite values elsewhere. -/
def isFiniteOverThrees (s : Expr) : Bool :=
  s.isFiniteLiteral &&
  (!s.isCounting || decide (OnSuccess InMemory ((s.handed .plain).outcome threesSource).run)) &&
  (!s.isUnguarded || Answer.isFinite ((evaluate .plain s).outcome threesSource).run)

theorem evaluateFormula_isFinite_guardedSum :
    ∃ e, parseFormula guardedSum = .ok e ∧ e.isLeaking = false ∧ (∀ s, e.Contains s → isFiniteOverThrees s) ∧
      SatisfiesM Value.ShowsFinite ((evaluateFormula .plain guardedSum).outcome threesSource) := by
  have hread : (parseFormula guardedSum).toOption.any fun e => e.every isFiniteOverThrees := by decide +kernel
  obtain ⟨e, hparse, he⟩ := Formula.exists_every hread
  have hleaking : (parseFormula guardedSum).toOption.any fun e => !e.isLeaking := by decide +kernel
  rw [hparse] at hleaking
  replace hleaking : (!e.isLeaking) = true := hleaking
  rw [Bool.not_eq_true'] at hleaking
  have hthree : Decimal.trimmedNumber? "three" = none := by decide +kernel
  have hthrees : ∀ a answer, answer = threes a → OnSuccess Value.IsFinite answer := by
    rintro a _ rfl
    refine onSuccess_ok.2 ?_
    split
    · exact .number (by decide +kernel)
    · exact .text fun x hx => nomatch hthree.symm.trans hx
  have hnode : ∀ s, e.Contains s → (s.isFiniteLiteral ∧
      (s.isCounting → OnSuccess InMemory ((s.handed .plain).outcome threesSource).run)) ∧
      (s.isUnguarded → Answer.isFinite ((evaluate .plain s).outcome threesSource).run) := by
    intro s hs
    have hs := he s hs
    simpa only [isFiniteOverThrees, Bool.and_eq_true, Bool.or_eq_true, Bool.not_eq_true', decide_eq_true_eq,
      ← Bool.not_eq_true, ← imp_iff_not_or] using hs
  refine ⟨e, hparse, hleaking, he, ?_⟩
  refine evaluateFormula_isFinite rfl (by decide) hparse (fun s hs => (hnode s hs).1.1) hthrees (fun a => .pure rfl)
    (fun s hs hcounting => ?_) hleaking fun c hc s hs hunguarded => ?_
  · exact Readings.Ensures.iff_plain.2 ((hnode s hs).1.2 hcounting)
  · exact Readings.Ensures.iff_plain.2 (Answer.onSuccess_isFinite ((hnode s (hs.head hc)).2 hunguarded))

def overflowingSum : String := "=SUM(1E308,1E308)"

theorem evaluateFormula_sumOverflow :
    ∃ e x, parseFormula overflowingSum = .ok e ∧ (∀ s, e.Contains s → s.isFiniteLiteral) ∧
      (∀ a, SatisfiesM (OnSuccess Value.IsFinite) ((CellSource.blank (m := Id)).cell a)) ∧
      ((evaluateFormula .plain overflowingSum).outcome (CellSource.blank (m := Id))).run = .ok (.number x) ∧
      x.float.isFinite = false := by
  have hread : (parseFormula overflowingSum).toOption.any fun e => e.every Formula.Expr.isFiniteLiteral := by
    decide +kernel
  obtain ⟨e, hparse, he⟩ := Formula.exists_every hread
  have hoverflow : (Answer.number? ((evaluateFormula .plain overflowingSum).outcome
      (CellSource.blank (m := Id))).run).any fun x => !x.float.isFinite := by decide +kernel
  obtain ⟨x, hx, hinfinite⟩ := (Option.any_eq_true _ _).1 hoverflow
  refine ⟨e, x, hparse, he, fun a => .pure (onSuccess_ok.2 .empty), Answer.number?_eq_some.1 hx, ?_⟩
  rwa [Bool.not_eq_true'] at hinfinite

/-- A formula without parts that leak numbers or make texts never has an infinite value over cells with finite
numbers. -/
theorem evaluateFormula_isFinite_of_guarded [RegexLibrary] {m : Type → Type} [Monad m] [LawfulMonad m]
    {env : Environment} {formula : String} {e : Expr} {src : CellSource m} (hregistry : env.registry = .builtin)
    (hclock : env.surroundings.clock.seconds < Calendar.secondsPerDay) (hparse : parseFormula formula = .ok e)
    (hnodes : ∀ s, e.Contains s → s.isFiniteLiteral ∧ s.isUnguarded = false)
    (hsizes : ∀ s, e.Contains s → s.isCounting →
      (s.handed env).Ensures (fun _ => OnSuccess Value.IsFinite) src.extent InMemory)
    (hcells : ∀ a, SatisfiesM (OnSuccess Value.IsFinite) (src.cell a)) :
    SatisfiesM Value.IsFinite ((evaluateFormula env formula).outcome src) := by
  rw [evaluateFormula, hparse]
  refine Readings.Ensures.outcome hcells ?_
  refine evaluate_isFinite hregistry hclock (fun _ _ h => h) hparse .refl (fun s hs => (hnodes s hs).1) hsizes
    fun s hs h => ?_
  rw [(hnodes s hs).2] at h
  cases h

end Spreadsheet
