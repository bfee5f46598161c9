import Spreadsheet.Formula.Grammar

/-!
# How deep formulas nest

The depth of the expression that a formula writes has a bound that does not depend on the length of the formula. Every
level of signed operands adds a bounded number of levels to the tree: one for each of the four levels of chains, one for
a call or an array, one for every percent sign of a run, and one for a power or a sign.

* `Yields` : all that a parser reads has a property;
* `chain_depth`, `primary_depth`, `percents_depth` : what the rules of the grammar add to the depth of their operands;
* `signedOperand_depth` : signed operands, by induction on the levels;
* `depth_of_parseFormula` : whole formulas.
-/

namespace Spreadsheet.Formula

/-- All that a parser reads has a property, if it reads anything. -/
def Yields {α : Type} (p : TokenParser α) (Q : α → Prop) : Prop :=
  ∀ s a s', p.run s = .ok (a, s') → Q a

namespace Yields

variable {α β : Type} {p : TokenParser α} {f : α → TokenParser β} {P : α → Prop} {Q : β → Prop}

theorem pure {a : α} (h : P a) : Yields (Pure.pure a) P := by
  intro s b s' hrun
  cases hrun
  exact h

theorem bind (hp : Yields p P) (hf : ∀ a, P a → Yields (f a) Q) : Yields (p >>= f) Q := by
  intro s b s' hrun
  rw [StateT.run_bind] at hrun
  cases hfirst : p.run s with
  | error _ =>
    rw [hfirst] at hrun
    cases hrun
  | ok r =>
    rw [hfirst] at hrun
    exact hf r.1 (hp s r.1 r.2 hfirst) r.2 b s' hrun

/-- What is read first need not matter. -/
theorem after (hf : ∀ a, Yields (f a) Q) : Yields (p >>= f) Q :=
  bind (P := fun _ => True) (fun _ _ _ _ => trivial) fun a _ => hf a

theorem mono {P' : α → Prop} (h : Yields p P) (hP : ∀ a, P a → P' a) : Yields p P' :=
  fun s a s' hrun => hP a (h s a s' hrun)

theorem failParse (fault : ParseFault) : Yields (Formula.failParse fault) P := by
  intro s b s' hrun
  cases hrun

theorem failReference (problem : ReferenceProblem) : Yields (Formula.failReference problem) P := by
  intro s b s' hrun
  cases hrun

end Yields

/-! ## Depth -/

namespace Expr

theorem chainDepth_le_depth (e : Expr) : e.chainDepth ≤ e.depth := by
  cases e <;> simp [depth, chainDepth]

theorem depth_le_chainDepth (e : Expr) : e.depth ≤ e.chainDepth + 1 := by
  cases e <;> simp [depth, chainDepth]

theorem listDepth_le {n : Nat} {es : List Expr} : listDepth es ≤ n ↔ ∀ e ∈ es, e.depth ≤ n := by
  induction es with
  | nil => simp [listDepth]
  | cons e es ih => rw [listDepth, Nat.max_le, ih, List.forall_mem_cons]

theorem rowsDepth_le {n : Nat} {rows : List (List Expr)} :
    rowsDepth rows ≤ n ↔ ∀ row ∈ rows, ∀ e ∈ row, e.depth ≤ n := by
  induction rows with
  | nil => simp [rowsDepth]
  | cons row rows ih => rw [rowsDepth, Nat.max_le, ih, listDepth_le, List.forall_mem_cons]

end Expr

/-! ## Chains -/

variable {n : Nat} {operand item : TokenParser Expr} {ops : OperatorLevel}

theorem chainRest_depth {k : Nat} (h : Yields operand fun e => e.depth + k < n) (rounds : Nat) :
    ∀ {left : Expr}, left.chainDepth + k < n →
      Yields (chainRest ops operand left rounds) fun e => e.chainDepth + k < n := by
  induction rounds with
  | zero => exact fun hleft => .pure hleft
  | succ rounds ih =>
    intro left hleft
    refine .after fun token => ?_
    cases ops token with
    | none => exact .pure hleft
    | some op =>
      refine .after fun _ => h.bind fun right hright => ih ?_
      rw [Expr.chainDepth]
      omega

/-- A chain is at most one level deeper than its operands. -/
theorem chain_depth {k : Nat} (h : Yields operand fun e => e.depth + (k + 1) ≤ n) :
    Yields (chain ops operand) fun e => e.depth + k ≤ n := by
  refine h.bind fun left hleft => .after fun token => ?_
  split
  · refine .after fun s => (chainRest_depth h _ (Nat.le_trans ?_ hleft)).mono fun e he => ?_
    · exact Nat.add_le_add_right left.chainDepth_le_depth (k + 1)
    · exact Nat.le_trans (Nat.add_le_add_right e.depth_le_chainDepth k) (by omega)
  · exact .pure (Nat.le_of_succ_le hleft)

theorem expressionOf_depth (h : Yields operand fun e => e.depth + 4 ≤ n) :
    Yields (expressionOf operand) fun e => e.depth ≤ n :=
  chain_depth (chain_depth (chain_depth (chain_depth h)))

/-! ## Operands -/

theorem arrayRest_depth (h : Yields item fun e => e.depth ≤ n) (rounds : Nat) :
    ∀ {rows : List (List Expr)} {row : List Expr}, (∀ row ∈ rows, ∀ e ∈ row, e.depth ≤ n) →
      (∀ e ∈ row, e.depth ≤ n) →
      Yields (arrayRest item rows row rounds) fun rows => ∀ row ∈ rows, ∀ e ∈ row, e.depth ≤ n := by
  induction rounds with
  | zero => exact fun _ _ => .failParse _
  | succ rounds ih =>
    intro rows row hrows hrow
    have hrows' : ∀ r ∈ row.reverse :: rows, ∀ e ∈ r, e.depth ≤ n :=
      List.forall_mem_cons.2 ⟨fun e he => hrow e (List.mem_reverse.1 he), hrows⟩
    refine .after fun token => ?_
    split
    · exact .after fun _ => h.bind fun e he => ih hrows (List.forall_mem_cons.2 ⟨he, hrow⟩)
    · exact .after fun _ => h.bind fun e he => ih hrows' (List.forall_mem_singleton.2 he)
    · exact .pure fun r hr => hrows' r (List.mem_reverse.1 hr)
    · exact .failParse _

theorem arrayLiteral_depth (h : Yields item fun e => e.depth ≤ n) :
    Yields (arrayLiteral item) fun e => e.depth ≤ n + 1 := by
  have hend : ∀ rows : List (List Expr), (∀ row ∈ rows, ∀ e ∈ row, e.depth ≤ n) →
      Yields (do
        if !isRectangular rows then failParse .arrayRagged
        expect .rightBrace
        return Expr.array rows) fun e => e.depth ≤ n + 1 := by
    intro rows hrows
    dsimp only
    split
    · exact (Yields.failParse (P := fun _ => False) _).bind nofun
    · exact .after fun _ => .pure (Nat.succ_le_succ (Expr.rowsDepth_le.2 hrows))
  refine .after fun _ => .after fun token => ?_
  dsimp only
  split
  · exact hend [] (List.forall_mem_nil _)
  · refine h.bind fun e he => .after fun s => (arrayRest_depth h _ (List.forall_mem_nil _) ?_).bind hend
    exact List.forall_mem_singleton.2 he

theorem argument_depth (h : Yields item fun e => e.depth ≤ n) : Yields (argument item) fun e => e.depth ≤ max n 1 := by
  refine .after fun token => ?_
  split
  · exact .pure (Nat.le_max_right n 1)
  · exact .pure (Nat.le_max_right n 1)
  · exact h.mono fun e he => Nat.le_trans he (Nat.le_max_left n 1)

theorem argumentsRest_depth (h : Yields item fun e => e.depth ≤ n) (rounds : Nat) :
    ∀ {read : List Expr}, (∀ e ∈ read, e.depth ≤ max n 1) →
      Yields (argumentsRest item read rounds) fun es => ∀ e ∈ es, e.depth ≤ max n 1 := by
  induction rounds with
  | zero => exact fun hread => .pure fun e he => hread e (List.mem_reverse.1 he)
  | succ rounds ih =>
    intro read hread
    refine .after fun token => ?_
    split
    · exact .after fun _ => (argument_depth h).bind fun e he => ih (List.forall_mem_cons.2 ⟨he, hread⟩)
    · exact .pure fun e he => hread e (List.mem_reverse.1 he)

theorem callArguments_depth (h : Yields item fun e => e.depth ≤ n) :
    Yields (callArguments item) fun es => ∀ e ∈ es, e.depth ≤ max n 1 := by
  refine .after fun _ => .after fun token => ?_
  dsimp only
  split
  · exact (Yields.pure (List.forall_mem_nil _)).bind fun es hes => .after fun _ => .pure hes
  · refine (argument_depth h).bind fun e he => .after fun s => ?_
    exact (argumentsRest_depth h _ (List.forall_mem_singleton.2 he)).bind fun es hes => .after fun _ => .pure hes

/-- Parentheses add nothing, and calls and arrays one level. Arguments that are left out count as leaves. -/
theorem primary_depth (h : Yields item fun e => e.depth ≤ n) :
    Yields (primary item) fun e => e.depth ≤ max n 1 + 1 := by
  have hitem : Yields item fun e => e.depth ≤ max n 1 + 1 :=
    h.mono fun e he => Nat.le_succ_of_le (Nat.le_trans he (Nat.le_max_left n 1))
  refine .after fun token => ?_
  split
  · exact .after fun _ => .pure (Nat.le_add_left 1 _)
  · exact .after fun _ => .pure (Nat.le_add_left 1 _)
  · exact .after fun _ => .pure (Nat.le_add_left 1 _)
  · exact .after fun _ => .pure (Nat.le_add_left 1 _)
  · exact .after fun _ => hitem.bind fun e he => .after fun _ => .pure he
  · exact (arrayLiteral_depth h).mono fun e he => Nat.le_trans he (Nat.succ_le_succ (Nat.le_max_left n 1))
  · exact .after fun _ => .after fun _ => .pure (Nat.le_add_left 1 _)
  · exact .after fun _ => .after fun _ => .pure (Nat.le_add_left 1 _)
  · refine .after fun _ => .after fun token => ?_
    split
    · exact (callArguments_depth h).bind fun es hes => .pure (Nat.succ_le_succ (Expr.listDepth_le.2 hes))
    · exact .pure (Nat.le_add_left 1 _)
  · exact .failParse _

theorem rangeOperand_depth (h : Yields item fun e => e.depth ≤ n) :
    Yields (rangeOperand item) fun e => e.depth ≤ max n 1 + 1 := by
  refine (primary_depth h).bind fun left hleft => .after fun token => ?_
  split
  · refine .after fun _ => ?_
    split
    · exact .after fun _ => .pure (Nat.le_add_left 1 _)
    · exact .failReference _
  · exact .pure hleft

theorem percents_depth (left : Nat) :
    ∀ {e : Expr}, e.depth ≤ n → Yields (percents e left) fun e => e.depth ≤ n + left := by
  induction left generalizing n with
  | zero =>
    intro e he
    refine .after fun token => ?_
    split
    · exact .failParse _
    · exact .pure he
  | succ left ih =>
    intro e he
    refine .after fun token => ?_
    split
    · refine .after fun _ => (ih (e := .unary .percent e) (Nat.succ_le_succ he)).mono fun e he => ?_
      exact Nat.le_trans he (Nat.le_of_eq (by omega))
    · exact .pure (Nat.le_trans he (Nat.le_add_right n _))

theorem percentOperand_depth (h : Yields item fun e => e.depth ≤ n) :
    Yields (percentOperand item) fun e => e.depth ≤ max n 1 + 1 + maxNesting :=
  (rangeOperand_depth h).bind fun _ he => percents_depth maxNesting he

/-! ## Formulas -/

/-- Four levels are kept for the chains around a signed operand. -/
theorem signedOperand_depth (levels : Nat) : Yields (signedOperand levels) fun e => e.depth + 4 ≤ 106 * levels := by
  induction levels with
  | zero => exact .failParse _
  | succ levels ih =>
    have hitem : Yields (expressionOf (signedOperand levels)) fun e => e.depth ≤ 106 * levels := expressionOf_depth ih
    refine .after fun token => ?_
    split
    · exact .after fun _ => ih.bind fun e he => .pure (by rw [Expr.depth]; omega)
    · exact .after fun _ => ih.mono fun e he => by omega
    · refine (percentOperand_depth hitem).bind fun base hbase => .after fun token => ?_
      have hchain := base.chainDepth_le_depth
      rw [maxNesting] at hbase
      split
      · -- an exponent can only be read if there are levels left, so the base is no deeper than they allow
        refine .after fun _ => ih.bind fun right hright => .pure ?_
        rw [Expr.depth]
        omega
      · exact .pure (by omega)

/-- The expression of a formula is not deeper than the nesting that the grammar allows, however long the formula is. -/
theorem depth_of_parseFormula {formula : String} {e : Expr} (h : parseFormula formula = .ok e) :
    e.depth ≤ 106 * maxNesting := by
  have hwhole : Yields wholeFormula fun e => e.depth ≤ 106 * maxNesting := by
    refine .after fun _ => (expressionOf_depth (signedOperand_depth maxNesting)).bind fun e he => .after fun token => ?_
    split
    · exact .pure he
    · exact .failParse _
  unfold parseFormula at h
  dsimp only at h
  split at h
  · cases h
  · rw [StateT.run'_eq] at h
    cases hrun : wholeFormula.run (TokenStream.ofText (formulaBody formula)) with
    | error _ =>
      rw [hrun] at h
      cases h
    | ok r =>
      rw [hrun] at h
      cases h
      exact hwhole _ _ _ hrun

theorem depth_of_parseFormula_mixed :
    ∃ e, parseFormula "=1+2*-(3-4%%)^SUM(A1:B2,\x7b5,6\x7d)-7-8" = .ok e ∧ e.depth ≤ 106 * maxNesting := by
  have hread : (parseFormula "=1+2*-(3-4%%)^SUM(A1:B2,\x7b5,6\x7d)-7-8").isOk := by decide +kernel
  cases hparse : parseFormula "=1+2*-(3-4%%)^SUM(A1:B2,\x7b5,6\x7d)-7-8" with
  | error fault =>
    rw [hparse] at hread
    cases hread
  | ok e => exact ⟨e, rfl, depth_of_parseFormula hparse⟩

end Spreadsheet.Formula
