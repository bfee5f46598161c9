import Mathlib.Logic.Relation
import Spreadsheet.Proofs.Depth
import Spreadsheet.Proofs.Written

/-!
# What formulas are made of

The grammar puts expressions together from parts it has read, and takes an array literal only if its rows are equally
long. So a property of expressions that is handed on from the parts to the whole holds of whatever a formula writes.

* `Expr.Contains` : an expression within another one; `Expr.every.of_contains` : a test that all within pass;
* `Expr.isEven` : no array with rows of different lengths;
* `signedOperand_made`, `parseFormula_made` : such properties hold of signed operands, and of whole formulas;
* `isEven_of_parseFormula` : all array literals of a formula are even.
-/

namespace Spreadsheet.Formula

/-- An expression holds another one: itself, or one that a part of it holds. -/
def Expr.Contains : Expr → Expr → Prop := Relation.ReflTransGen fun e c => c ∈ e.children

theorem Expr.every.of_contains {p : Expr → Bool} {e s : Expr} (h : e.every p) (hs : e.Contains s) : p s := by
  have hevery : s.every p := by
    induction hs with
    | refl => exact h
    | tail _ hc ih => exact (every_iff.1 ih).2 _ hc
  exact (every_iff.1 hevery).1

/-- What a formula is read as, if all nodes of it pass a test. -/
theorem exists_every {formula : String} {p : Expr → Bool} (h : (parseFormula formula).toOption.any fun e => e.every p) :
    ∃ e, parseFormula formula = .ok e ∧ ∀ s, e.Contains s → p s := by
  cases hparse : parseFormula formula with
  | error fault =>
    rw [hparse] at h
    cases h
  | ok e =>
    rw [hparse] at h
    exact ⟨e, rfl, fun s hs => Expr.every.of_contains h hs⟩

/-- Whether an expression is no array with rows of different lengths. -/
def Expr.isEven : Expr → Bool
  | .array rows => isRectangular rows
  | _ => true

section Made

variable {Q : Expr → Prop} (hQ : ∀ e : Expr, e.isEven → (∀ c ∈ e.children, Q c) → Q e)
  {operand item : TokenParser Expr} {ops : OperatorLevel}
include hQ

/-- What has no parts has the property. -/
theorem made_leaf {e : Expr} (heven : e.isEven) (h : e.children = []) : Q e :=
  hQ e heven (by rw [h]; exact List.forall_mem_nil _)

theorem made_binary {op : BinaryOp} {left right : Expr} (hleft : Q left) (hright : Q right) :
    Q (.binary op left right) :=
  hQ _ rfl (List.forall_mem_cons.2 ⟨hleft, List.forall_mem_singleton.2 hright⟩)

theorem made_unary {op : UnaryOp} {operand : Expr} (h : Q operand) : Q (.unary op operand) :=
  hQ _ rfl (List.forall_mem_singleton.2 h)

theorem chainRest_made (h : Yields operand Q) (rounds : Nat) :
    ∀ {left : Expr}, Q left → Yields (chainRest ops operand left rounds) Q := by
  induction rounds with
  | zero => exact fun hleft => .pure hleft
  | succ rounds ih =>
    intro left hleft
    refine .after fun token => ?_
    cases ops token with
    | none => exact .pure hleft
    | some op => exact .after fun _ => h.bind fun right hright => ih (made_binary hQ hleft hright)

theorem chain_made (h : Yields operand Q) : Yields (chain ops operand) Q := by
  refine h.bind fun left hleft => .after fun token => ?_
  split
  · exact .after fun s => chainRest_made hQ h _ hleft
  · exact .pure hleft

theorem expressionOf_made (h : Yields operand Q) : Yields (expressionOf operand) Q :=
  chain_made hQ (chain_made hQ (chain_made hQ (chain_made hQ h)))

omit hQ in
theorem arrayRest_made (h : Yields item Q) (rounds : Nat) :
    ∀ {rows : List (List Expr)} {row : List Expr}, (∀ row ∈ rows, ∀ e ∈ row, Q e) → (∀ e ∈ row, Q e) →
      Yields (arrayRest item rows row rounds) fun rows => ∀ row ∈ rows, ∀ e ∈ row, Q e := by
  induction rounds with
  | zero => exact fun _ _ => .failParse _
  | succ rounds ih =>
    intro rows row hrows hrow
    have hrows' : ∀ r ∈ row.reverse :: rows, ∀ e ∈ r, Q e :=
      List.forall_mem_cons.2 ⟨fun e he => hrow e (List.mem_reverse.1 he), hrows⟩
    refine .after fun token => ?_
    split
    · exact .after fun _ => h.bind fun e he => ih hrows (List.forall_mem_cons.2 ⟨he, hrow⟩)
    · exact .after fun _ => h.bind fun e he => ih hrows' (List.forall_mem_singleton.2 he)
    · exact .pure fun r hr => hrows' r (List.mem_reverse.1 hr)
    · exact .failParse _

/-- Arrays are checked before they are taken. -/
theorem arrayLiteral_made (h : Yields item Q) : Yields (arrayLiteral item) Q := by
  have hend : ∀ rows : List (List Expr), (∀ row ∈ rows, ∀ e ∈ row, Q e) →
      Yields (do
        if !isRectangular rows then failParse .arrayRagged
        expect .rightBrace
        return Expr.array rows) Q := by
    intro rows hrows
    dsimp only
    split
    · exact (Yields.failParse (P := fun _ => False) _).bind nofun
    · rename_i heven
      refine .after fun _ => .pure (hQ _ (by simpa [Expr.isEven] using heven) fun c hc => ?_)
      obtain ⟨row, hrow, hc⟩ := List.mem_flatten.1 hc
      exact hrows row hrow c hc
  refine .after fun _ => .after fun token => ?_
  dsimp only
  split
  · exact hend [] (List.forall_mem_nil _)
  · refine h.bind fun e he => .after fun s => (arrayRest_made h _ (List.forall_mem_nil _) ?_).bind hend
    exact List.forall_mem_singleton.2 he

theorem argument_made (h : Yields item Q) : Yields (argument item) Q := by
  refine .after fun token => ?_
  split
  · exact .pure (made_leaf hQ rfl rfl)
  · exact .pure (made_leaf hQ rfl rfl)
  · exact h

theorem argumentsRest_made (h : Yields item Q) (rounds : Nat) : ∀ {read : List Expr}, (∀ e ∈ read, Q e) →
    Yields (argumentsRest item read rounds) fun es => ∀ e ∈ es, Q e := by
  induction rounds with
  | zero => exact fun hread => .pure fun e he => hread e (List.mem_reverse.1 he)
  | succ rounds ih =>
    intro read hread
    refine .after fun token => ?_
    split
    · exact .after fun _ => (argument_made hQ h).bind fun e he => ih (List.forall_mem_cons.2 ⟨he, hread⟩)
    · exact .pure fun e he => hread e (List.mem_reverse.1 he)

theorem callArguments_made (h : Yields item Q) : Yields (callArguments item) fun es => ∀ e ∈ es, Q e := by
  refine .after fun _ => .after fun token => ?_
  dsimp only
  split
  · exact (Yields.pure (List.forall_mem_nil _)).bind fun es hes => .after fun _ => .pure hes
  · refine (argument_made hQ h).bind fun e he => .after fun s => ?_
    exact (argumentsRest_made hQ h _ (List.forall_mem_singleton.2 he)).bind fun es hes => .after fun _ => .pure hes

theorem primary_made (h : Yields item Q) : Yields (primary item) Q := by
  refine .after fun token => ?_
  split
  · exact .after fun _ => .pure (made_leaf hQ rfl rfl)
  · exact .after fun _ => .pure (made_leaf hQ rfl rfl)
  · exact .after fun _ => .pure (made_leaf hQ rfl rfl)
  · exact .after fun _ => .pure (made_leaf hQ rfl rfl)
  · exact .after fun _ => h.bind fun e he => .after fun _ => .pure he
  · exact arrayLiteral_made hQ h
  · exact .after fun _ => .after fun _ => .pure (made_leaf hQ rfl rfl)
  · exact .after fun _ => .after fun _ => .pure (made_leaf hQ rfl rfl)
  · refine .after fun _ => .after fun token => ?_
    split
    · exact (callArguments_made hQ h).bind fun es hes => .pure (hQ _ rfl hes)
    · exact .pure (made_leaf hQ rfl rfl)
  · exact .failParse _

theorem rangeOperand_made (h : Yields item Q) : Yields (rangeOperand item) Q := by
  refine (primary_made hQ h).bind fun left hleft => .after fun token => ?_
  split
  · refine .after fun _ => ?_
    split
    · exact .after fun _ => .pure (made_leaf hQ rfl rfl)
    · exact .failReference _
  · exact .pure hleft

theorem percents_made (left : Nat) : ∀ {e : Expr}, Q e → Yields (percents e left) Q := by
  induction left with
  | zero =>
    intro e he
    refine .after fun token => ?_
    split
    · exact .failParse _
    · exact .pure he
  | succ left ih =>
    intro e he
    refine .after fun token => ?_
    split
    · exact .after fun _ => ih (made_unary hQ he)
    · exact .pure he

theorem signedOperand_made (levels : Nat) : Yields (signedOperand levels) Q := by
  induction levels with
  | zero => exact .failParse _
  | succ levels ih =>
    refine .after fun token => ?_
    split
    · exact .after fun _ => ih.bind fun e he => .pure (made_unary hQ he)
    · exact .after fun _ => ih
    · have hbase : Yields (percentOperand (expressionOf (signedOperand levels))) Q :=
        (rangeOperand_made hQ (expressionOf_made hQ ih)).bind fun e he => percents_made hQ maxNesting he
      refine hbase.bind fun base hbase => .after fun token => ?_
      split
      · exact .after fun _ => ih.bind fun right hright => .pure (made_binary hQ hbase hright)
      · exact .pure hbase

/-- What is handed on from the parts of even expressions to the whole holds of whatever a formula writes. -/
theorem parseFormula_made {formula : String} {e : Expr} (h : parseFormula formula = .ok e) : Q e := by
  have hwhole : Yields wholeFormula Q := by
    refine .after fun _ => (expressionOf_made hQ (signedOperand_made hQ maxNesting)).bind fun e he =>
      .after fun token => ?_
    split
    · exact .pure he
    · exact .failParse _
  unfold parseFormula at h
  dsimp only at h
  split at h
  · cases h
  · rw [StateT.run'_eq] at h
    cases hrun : wholeFormula.run (TokenStream.ofText (formulaBody formula)) with
    | error _ =>
      rw [hrun] at h
      cases h
    | ok r =>
      rw [hrun] at h
      cases h
      exact hwhole _ _ _ hrun

end Made

theorem isEven_of_parseFormula {formula : String} {e : Expr} (h : parseFormula formula = .ok e) {s : Expr}
    (hs : e.Contains s) : s.isEven := by
  refine parseFormula_made (Q := fun e => ∀ s, e.Contains s → s.isEven) (fun e heven hparts s hs => ?_) h s hs
  rcases hs.cases_head with rfl | ⟨c, hc, hs⟩
  · exact heven
  · exact hparts c hc s hs

end Spreadsheet.Formula
