import Spreadsheet.Proofs.Written

/-!
# What parsers read

Every parser of the grammar reads the expressions of its level before whatever binds less. A chain reads its left
operands one after another, and arguments and the items of arrays are read up to the mark that closes them.

* `Takes` : a parser reads tokens as a value before what binds less than a level;
* `Parses` : a parser reads all expressions of a level, as far as they nest;
* `chain_spine`, `chain_parses` : chains of operators;
* `run_primary_cell`, `run_rangeOperand_range` : references;
* `run_callArguments`, `run_arrayLiteral` : arguments, and arrays.
-/

namespace Spreadsheet.Formula

/-! ## Running parsers -/

section Runs

variable {α β : Type}

theorem run_bind {p : TokenParser α} {f : α → TokenParser β} {s s' : TokenStream} {a : α}
    (h : p.run s = .ok (a, s')) : (p >>= f).run s = (f a).run s' := by
  rw [StateT.run_bind, h]
  rfl

theorem run_current_bind (f : Token → TokenParser β) (ts : List Token) (fault : Option ParseFault) :
    (current >>= f).run ⟨ts, fault⟩ = (f (ts.headD .finish)).run ⟨ts, fault⟩ :=
  run_bind (by cases ts <;> rfl)

theorem run_get_bind (f : TokenStream → TokenParser β) (s : TokenStream) : (get >>= f).run s = (f s).run s := rfl

theorem run_advance_bind (f : Token → TokenParser β) (t : Token) (ts : List Token) :
    (advance >>= f).run ⟨t :: ts, none⟩ = (f t).run ⟨ts, none⟩ :=
  run_bind (by cases ts <;> rfl)

theorem run_discard_bind (f : Unit → TokenParser β) (t : Token) (ts : List Token) :
    (discard advance >>= f).run ⟨t :: ts, none⟩ = (f ()).run ⟨ts, none⟩ :=
  run_bind (by cases ts <;> rfl)

theorem run_expect_bind (f : Unit → TokenParser β) (m : Mark) (ts : List Token) :
    (expect m >>= f).run ⟨.mark m :: ts, none⟩ = (f ()).run ⟨ts, none⟩ := by
  refine run_bind ?_
  rw [expect, run_current_bind, List.headD_cons, if_pos rfl]
  cases ts <;> rfl

end Runs

/-! ## Levels of tokens -/

/-- How tightly a token binds to the operand before it. -/
def Token.binding : Token → Nat
  | .mark .leftParen => 9
  | .mark .colon => 8
  | .mark .percent => 7
  | .mark .caret => 6
  | .mark .star | .mark .slash => 4
  | .mark .plus | .mark .minus => 3
  | .mark .ampersand => 2
  | .mark .equal | .mark .notEqual | .mark .less | .mark .lessEqual | .mark .greater | .mark .greaterEqual => 1
  | _ => 0

/-- How tightly the first of the tokens binds. -/
def binding (ts : List Token) : Nat := (ts.headD .finish).binding

theorem binding_mark (op : BinaryOp) : (Token.mark op.mark).binding = op.level := by
  cases op <;> rfl

theorem head_ne_of_binding {m : Mark} {ts : List Token} (h : binding ts < (Token.mark m).binding) :
    ts.headD .finish ≠ .mark m := by
  intro heq
  rw [binding, heq] at h
  exact Nat.lt_irrefl _ h

/-- The operators of a chain are those of its level. -/
structure Handles (ops : OperatorLevel) (level : Nat) : Prop where
  mark : ∀ op : BinaryOp, op.level = level → ops (.mark op.mark) = some op
  other : ∀ t : Token, t.binding < level → ops t = none

theorem handles_comparison : Handles comparisonOps 1 where
  mark op h := by cases op <;> first | rfl | cases h
  other t h := by
    unfold comparisonOps
    split <;> first | rfl | (exact absurd h (by decide))

theorem handles_concat : Handles concatOps 2 where
  mark op h := by cases op <;> first | rfl | cases h
  other t h := by
    unfold concatOps
    split <;> first | rfl | (exact absurd h (by decide))

theorem handles_additive : Handles additiveOps 3 where
  mark op h := by cases op <;> first | rfl | cases h
  other t h := by
    unfold additiveOps
    split <;> first | rfl | (exact absurd h (by decide))

theorem handles_multiplicative : Handles multiplicativeOps 4 where
  mark op h := by cases op <;> first | rfl | cases h
  other t h := by
    unfold multiplicativeOps
    split <;> first | rfl | (exact absurd h (by decide))

/-! ## What parsers read -/

/-- A parser reads tokens as a value before whatever binds less than a level. -/
def Takes {α : Type} (p : TokenParser α) (ts : List Token) (level : Nat) (a : α) : Prop :=
  ∀ rest, binding rest < level → p.run ⟨ts ++ rest, none⟩ = .ok (a, ⟨rest, none⟩)

/-- A parser reads the expressions of a level, and those in parentheses, as far as they nest. -/
def Parses (style : Style) (p : TokenParser Expr) (level levels : Nat) : Prop :=
  ∀ (e : Expr) (b : Bool), style.Suits e → (b = true ∨ level ≤ e.level) → style.nesting b e ≤ levels →
    Takes p (style.text b e) level e

variable {style : Style} {operand item : TokenParser Expr} {ops : OperatorLevel} {level levels : Nat}

theorem Style.Admissible.tight (hstyle : style.Admissible) {need : Nat} (hneed : need ≤ 8) (hpower : need ≠ 6)
    (e : Expr) : style.parens need e = true ∨ need ≤ e.level := by
  by_cases h : style.parens need e = true
  · exact Or.inl h
  · rcases hstyle.level (by simpa using h) hneed with hlevel | hlevel
    · exact Or.inr hlevel
    · exact absurd hlevel.1 hpower

/-- The exponent of a power may be signed. -/
theorem Style.Admissible.exponent (hstyle : style.Admissible) (e : Expr) :
    style.parens 6 e = true ∨ 5 ≤ e.level := by
  by_cases h : style.parens 6 e = true
  · exact Or.inl h
  · rcases hstyle.level (by simpa using h) (by decide) with hlevel | hlevel
    · exact Or.inr (Nat.le_of_succ_le hlevel)
    · exact Or.inr (Nat.le_of_eq hlevel.2.symm)

/-- The expression is read where its level is asked for. -/
theorem Parses.textAt (hp : Parses style item level levels) (hstyle : style.Admissible) (hneed : level ≤ 8)
    (hpower : level ≠ 6) {e : Expr} (h : style.Suits e) (hn : style.nestingAt level e ≤ levels) :
    Takes item (style.textAt level e) level e :=
  hp e _ h (hstyle.tight hneed hpower e) hn

/-! ## Chains -/

theorem run_chainRest_end (e : Expr) (rounds : Nat) {rest : List Token} (h : ops (rest.headD .finish) = none) :
    (chainRest ops operand e rounds).run ⟨rest, none⟩ = .ok (e, ⟨rest, none⟩) := by
  cases rounds with
  | zero => rfl
  | succ rounds =>
    rw [chainRest, run_current_bind, h]
    rfl

theorem run_chainRest_step {t : Token} {op : BinaryOp} {left right : Expr} {ts rest : List Token} (rounds : Nat)
    (hop : ops t = some op) (hright : operand.run ⟨ts, none⟩ = .ok (right, ⟨rest, none⟩)) :
    (chainRest ops operand left (rounds + 1)).run ⟨t :: ts, none⟩ =
      (chainRest ops operand (.binary op left right) rounds).run ⟨rest, none⟩ := by
  rw [chainRest, run_current_bind, List.headD_cons, hop]
  dsimp only
  rw [run_discard_bind, run_bind hright]

/-- A chain goes on after its first operand as if it had been asked to. -/
theorem run_chain {left : Expr} {ts rest : List Token} (h : operand.run ⟨ts, none⟩ = .ok (left, ⟨rest, none⟩)) :
    (chain ops operand).run ⟨ts, none⟩ = (chainRest ops operand left rest.length).run ⟨rest, none⟩ := by
  rw [chain, run_bind h, run_current_bind]
  cases hop : ops (rest.headD .finish) with
  | none =>
    rw [run_chainRest_end _ _ hop]
    rfl
  | some op => rfl

/-- Below the level of signs there are only chains. -/
theorem exists_binary_of_level {e : Expr} (h : e.level ≤ 4) : ∃ op left right, e = .binary op left right := by
  cases e with
  | binary op left right => exact ⟨op, left, right, rfl⟩
  | unary op operand => cases op <;> exact absurd h (by simp [Expr.level])
  | _ => exact absurd h (by simp [Expr.level])

theorem BinaryOp.sides {op : BinaryOp} (h : op.level ≤ 4) :
    op.leftLevel = op.level ∧ op.rightLevel = op.level + 1 := by
  cases op <;> first | exact ⟨rfl, rfl⟩ | exact absurd h (by decide)

theorem Style.nesting_binary (style : Style) {op : BinaryOp} (h : op.level ≤ 4) (left right : Expr) :
    style.nesting false (.binary op left right) =
      max (style.nestingAt op.leftLevel left) (style.nestingAt op.rightLevel right) := by
  cases op <;> first | rfl | exact absurd h (by decide)

/-- The left operands of a chain are read one after another, and rounds are left for what follows. -/
theorem chain_spine (hstyle : style.Admissible) (hlevel : level ≤ 4) (hops : Handles ops level)
    (hoperand : Parses style operand (level + 1) levels) {e : Expr} {b : Bool} (h : style.Suits e)
    (hb : b = true ∨ level ≤ e.level) (hn : style.nesting b e ≤ levels) {rest : List Token}
    (hrest : binding rest ≤ level) : ∃ rounds, rest.length ≤ rounds ∧
      (chain ops operand).run ⟨style.text b e ++ rest, none⟩ = (chainRest ops operand e rounds).run ⟨rest, none⟩ := by
  induction e using Expr.children_induction generalizing b rest with
  | h e ih =>
    by_cases htight : b = true ∨ level + 1 ≤ e.level
    · exact ⟨rest.length, Nat.le_refl _, run_chain (hoperand e b h htight hn rest (Nat.lt_succ_of_le hrest))⟩
    · rw [not_or, Bool.not_eq_true] at htight
      obtain ⟨rfl, hloose⟩ := htight
      have hsame : e.level = level := by
        have := hb.resolve_left (by decide)
        omega
      obtain ⟨op, left, right, rfl⟩ := exists_binary_of_level (hsame.trans_le hlevel)
      change op.level = level at hsame
      obtain ⟨hleft, hright⟩ := h.operands
      obtain ⟨hleftLevel, hrightLevel⟩ := BinaryOp.sides (hsame.trans_le hlevel)
      rw [style.nesting_binary (hsame.trans_le hlevel), Nat.max_le, hleftLevel, hrightLevel, hsame] at hn
      have htext : style.text false (.binary op left right) ++ rest =
          style.textAt level left ++ (.mark op.mark :: (style.textAt (level + 1) right ++ rest)) := by
        show (style.textAt op.leftLevel left ++ .mark op.mark :: style.textAt op.rightLevel right) ++ rest = _
        rw [hleftLevel, hrightLevel, hsame, List.append_assoc, List.cons_append]
      have hop : binding (.mark op.mark :: (style.textAt (level + 1) right ++ rest)) ≤ level :=
        Nat.le_of_eq ((binding_mark op).trans hsame)
      obtain ⟨rounds, hrounds, hrun⟩ := ih left (by simp [Expr.children]) hleft
        (hstyle.tight (by omega) (by omega) left) hn.1 hop
      cases rounds with
      | zero => simp at hrounds
      | succ rounds =>
        have hread := hoperand.textAt hstyle (by omega) (by omega) hright hn.2 rest (Nat.lt_succ_of_le hrest)
        refine ⟨rounds, ?_, ?_⟩
        · simp only [List.length_cons, List.length_append] at hrounds
          omega
        · rw [htext, Style.textAt, hrun, run_chainRest_step rounds (hops.mark op hsame) hread]

theorem chain_parses (hstyle : style.Admissible) (hlevel : level ≤ 4) (hops : Handles ops level)
    (hoperand : Parses style operand (level + 1) levels) : Parses style (chain ops operand) level levels := by
  intro e b h hb hn rest hrest
  obtain ⟨rounds, -, hrun⟩ := chain_spine hstyle hlevel hops hoperand h hb hn (Nat.le_of_lt hrest)
  rw [hrun, run_chainRest_end e rounds (hops.other _ hrest)]

theorem expressionOf_parses (hstyle : style.Admissible) (hoperand : Parses style operand 5 levels) :
    Parses style (expressionOf operand) 1 levels :=
  chain_parses hstyle (by decide) handles_comparison <| chain_parses hstyle (by decide) handles_concat <|
    chain_parses hstyle (by decide) handles_additive <| chain_parses hstyle (by decide) handles_multiplicative hoperand

/-! ## Cells and ranges -/

theorem run_readCell (sheet : Option String) {a : Address} (ha : a.InBounds) (s : TokenStream) :
    (readCell sheet a.writeCoordinates).run s = .ok ({ a with sheet }, s) := by
  rw [readCell, a.read_writeCoordinates ha]
  rfl

theorem run_cellOnSheet (sheet : String) {a : Address} (ha : a.InBounds) (rest : List Token) :
    (cellOnSheet sheet).run ⟨.cell a.writeCoordinates :: rest, none⟩ =
      .ok ({ a with sheet := some sheet }, ⟨rest, none⟩) := by
  rw [cellOnSheet, run_advance_bind, run_readCell _ ha]

theorem run_primary_cell {a : Address} (ha : a.InBounds) (rest : List Token) :
    (primary item).run ⟨cellTokens a ++ rest, none⟩ = .ok (.cell a, ⟨rest, none⟩) := by
  unfold cellTokens
  split
  · rename_i sheet hsheet
    show (primary item).run ⟨.sheet sheet :: .cell a.writeCoordinates :: rest, none⟩ = _
    rw [primary, run_current_bind]
    show (discard advance >>= fun _ => _).run _ = _
    rw [run_discard_bind, run_bind (run_cellOnSheet sheet ha rest), ← hsheet]
    rfl
  · rename_i hsheet
    show (primary item).run ⟨.cell a.writeCoordinates :: rest, none⟩ = _
    rw [primary, run_current_bind]
    show (discard advance >>= fun _ => _).run _ = _
    rw [run_discard_bind, run_bind (run_readCell none ha _), ← hsheet]
    rfl

/-- An end without a sheet takes that of the start, and so the range is the one that was written. -/
theorem run_rangeEnd (style : Style) {r : CellRange} (hr : r.finish.InBounds)
    (hcorners : CellRange.ofCorners r.start r.finish = r) (rest : List Token) : ∃ finish,
    rangeEnd.run ⟨style.endTokens r ++ rest, none⟩ = .ok (finish, ⟨rest, none⟩) ∧
      CellRange.ofCorners r.start finish = r := by
  unfold Style.endTokens
  split
  · refine ⟨r.finish, ?_, hcorners⟩
    unfold cellTokens
    split
    · rename_i sheet hsheet
      show rangeEnd.run ⟨.sheet sheet :: .cell r.finish.writeCoordinates :: rest, none⟩ = _
      rw [rangeEnd, run_advance_bind]
      show (cellOnSheet sheet).run _ = _
      rw [run_cellOnSheet sheet hr, ← hsheet]
    · rename_i hsheet
      show rangeEnd.run ⟨.cell r.finish.writeCoordinates :: rest, none⟩ = _
      rw [rangeEnd, run_advance_bind]
      show (readCell none _).run _ = _
      rw [run_readCell none hr, ← hsheet]
  · rename_i hsheet
    rw [not_or, not_not] at hsheet
    refine ⟨{ r.finish with sheet := none }, ?_, ?_⟩
    · show rangeEnd.run ⟨.cell r.finish.writeCoordinates :: rest, none⟩ = _
      rw [rangeEnd, run_advance_bind]
      show (readCell none _).run _ = _
      rw [run_readCell none hr]
    · show CellRange.mk r.start { r.finish with sheet := r.start.sheet } = r
      rw [← hsheet.2]

theorem run_rangeOperand_range {r : CellRange} (h : (Expr.range r).isSound) (rest : List Token) :
    (rangeOperand item).run ⟨style.bare (.range r) ++ rest, none⟩ = .ok (.range r, ⟨rest, none⟩) := by
  simp only [Expr.isSound, decide_eq_true_eq] at h
  obtain ⟨hstart, hfinish, hcorners⟩ := h
  obtain ⟨finish, hend, heq⟩ := run_rangeEnd style hfinish hcorners rest
  rw [Style.bare, List.append_assoc, rangeOperand, run_bind (run_primary_cell hstart _), run_current_bind,
    List.cons_append]
  show (discard advance >>= fun _ => _).run _ = _
  rw [run_discard_bind]
  show (rangeEnd >>= fun finish => _).run _ = _
  rw [run_bind hend, heq]
  rfl

/-! ## Arguments and items -/

/-- Expressions that nest no deeper than what is left. -/
def Style.Fits (style : Style) (levels : Nat) (e : Expr) : Prop := style.Suits e ∧ style.nestingAt 1 e ≤ levels

/-- Arguments may be left out. -/
def Style.FitsAsArgument (style : Style) (levels : Nat) (e : Expr) : Prop := e = .missing ∨ style.Fits levels e

/-- No expression starts with one of these. -/
theorem text_head (hstyle : style.Admissible) {e : Expr} (h : style.Suits e) (b : Bool) {m : Mark}
    (hm : m ∈ [.comma, .rightParen, .rightBrace, .equal]) (rest : List Token) :
    (style.text b e ++ rest).headD .finish ≠ .mark m := by
  obtain ⟨t, ts, htext, ht⟩ := text_begins hstyle h b
  rw [htext]
  rintro (rfl : t = .mark m)
  simp only [List.mem_cons, List.not_mem_nil, or_false] at hm
  rcases hm with rfl | rfl | rfl | rfl <;> simp [Token.begins] at ht

theorem textAt_head (hstyle : style.Admissible) {e : Expr} (h : style.Suits e) (need : Nat) {m : Mark}
    (hm : m ∈ [.comma, .rightParen, .rightBrace, .equal]) (rest : List Token) :
    (style.textAt need e ++ rest).headD .finish ≠ .mark m := text_head hstyle h _ hm rest

theorem textAt_missing (hstyle : style.Admissible) : style.textAt 1 .missing = [] := by
  rw [Style.textAt, hstyle.missing]
  rfl

/-- What comes after an argument is the next comma or the parenthesis. -/
theorem exists_mark_of_arguments (tss : List (List Token)) (rest : List Token) : ∃ m after,
    (m = .comma ∨ m = .rightParen) ∧
      tss.flatMap (.mark .comma :: ·) ++ .mark .rightParen :: rest = .mark m :: after := by
  cases tss with
  | nil => exact ⟨_, _, Or.inr rfl, rfl⟩
  | cons ts tss => exact ⟨_, _, Or.inl rfl, rfl⟩

/-- Neither the marks between items nor those between rows bind to what is before them. -/
theorem binding_flatMap {m : Mark} (hm : (Token.mark m).binding = 0) (tss : List (List Token)) {rest : List Token}
    (hrest : binding rest < 1) : binding (tss.flatMap (.mark m :: ·) ++ rest) < 1 := by
  cases tss with
  | nil => exact hrest
  | cons ts tss => exact hm.trans_lt Nat.one_pos

theorem length_le_flatMap (m : Mark) (tss : List (List Token)) : tss.length ≤ (tss.flatMap (.mark m :: ·)).length := by
  induction tss with
  | nil => exact Nat.le_refl _
  | cons ts tss ih =>
    rw [List.flatMap_cons, List.length_append, List.length_cons, List.length_cons]
    omega

theorem length_flatten_le (style : Style) {rows : List (List Expr)} (h : ∀ row ∈ rows, row ≠ []) :
    rows.flatten.length ≤ ((rows.map style.rowText).flatMap (.mark .semicolon :: ·)).length := by
  induction rows with
  | nil => exact Nat.le_refl _
  | cons row rows ih =>
    obtain ⟨hne, hrows⟩ := List.forall_mem_cons.1 h
    obtain ⟨e, es, rfl⟩ := List.exists_cons_of_ne_nil hne
    have hes := length_le_flatMap .comma (es.map (style.textAt 1))
    rw [List.length_map] at hes
    have hlater := ih hrows
    simp only [List.flatten_cons, List.map_cons, List.flatMap_cons, style.rowText_cons, List.length_append,
      List.length_cons]
    omega

section Items

variable (hstyle : style.Admissible) (hitem : Parses style item 1 levels)

include hstyle hitem

/-! ### Arguments -/

theorem run_argument {e : Expr} (h : style.FitsAsArgument levels e) {m : Mark} (hm : m = .comma ∨ m = .rightParen)
    (rest : List Token) :
    (argument item).run ⟨style.textAt 1 e ++ .mark m :: rest, none⟩ = .ok (e, ⟨.mark m :: rest, none⟩) := by
  rw [argument, run_current_bind]
  rcases h with rfl | ⟨hsuits, hn⟩
  · rw [textAt_missing hstyle]
    rcases hm with rfl | rfl <;> rfl
  · split
    · rename_i heq
      exact absurd heq (textAt_head hstyle hsuits 1 (by simp) _)
    · rename_i heq
      exact absurd heq (textAt_head hstyle hsuits 1 (by simp) _)
    · exact hitem.textAt hstyle (by decide) (by decide) hsuits hn _ (by rcases hm with rfl | rfl <;> exact Nat.one_pos)

/-- Arguments are read up to the parenthesis. -/
theorem run_argumentsRest {es : List Expr} (h : ∀ e ∈ es, style.FitsAsArgument levels e) (read : List Expr)
    {rounds : Nat} (hrounds : es.length ≤ rounds) (rest : List Token) : (argumentsRest item read rounds).run
      ⟨(es.map (style.textAt 1)).flatMap (.mark .comma :: ·) ++ .mark .rightParen :: rest, none⟩ =
      .ok (read.reverse ++ es, ⟨.mark .rightParen :: rest, none⟩) := by
  induction es generalizing read rounds with
  | nil =>
    rw [List.append_nil]
    cases rounds with
    | zero => rfl
    | succ rounds => rfl
  | cons e es ih =>
    obtain ⟨he, hes⟩ := List.forall_mem_cons.1 h
    cases rounds with
    | zero => simp at hrounds
    | succ rounds =>
      obtain ⟨m, after, hm, hafter⟩ := exists_mark_of_arguments (es.map (style.textAt 1)) rest
      have hread := run_argument hstyle hitem he hm after
      rw [← hafter] at hread
      rw [List.map_cons, List.flatMap_cons, List.append_assoc, List.cons_append, argumentsRest,
        run_current_bind, List.headD_cons, if_pos rfl, run_discard_bind, run_bind hread,
        ih hes (e :: read) (Nat.le_of_succ_le_succ hrounds)]
      simp

theorem run_callArguments {es : List Expr} (h : ∀ e ∈ es, style.FitsAsArgument levels e) (hone : es ≠ [.missing])
    (rest : List Token) :
    (callArguments item).run ⟨.mark .leftParen :: (separated .comma (es.map (style.textAt 1)) ++
      .mark .rightParen :: rest), none⟩ = .ok (es, ⟨rest, none⟩) := by
  rw [callArguments, run_expect_bind, run_current_bind]
  cases es with
  | nil =>
    show (expect .rightParen >>= fun _ => pure []).run ⟨.mark .rightParen :: rest, none⟩ = _
    rw [run_expect_bind]
    rfl
  | cons e es =>
    obtain ⟨he, hes⟩ := List.forall_mem_cons.1 h
    obtain ⟨m, after, hm, hafter⟩ := exists_mark_of_arguments (es.map (style.textAt 1)) rest
    have hread := run_argument hstyle hitem he hm after
    rw [← hafter] at hread
    rw [List.map_cons, separated, List.append_assoc]
    have hhead : (style.textAt 1 e ++ ((es.map (style.textAt 1)).flatMap (.mark .comma :: ·) ++
        .mark .rightParen :: rest)).headD .finish ≠ .mark .rightParen := by
      rcases he with rfl | he
      · rw [textAt_missing hstyle]
        cases es with
        | nil => exact absurd rfl hone
        | cons e es => exact nofun
      · exact textAt_head hstyle he.1 1 (by simp) _
    have hrounds : es.length ≤ ((es.map (style.textAt 1)).flatMap (.mark .comma :: ·) ++
        .mark .rightParen :: rest).length := by
      have hle := length_le_flatMap .comma (es.map (style.textAt 1))
      rw [List.length_map] at hle
      rw [List.length_append]
      omega
    dsimp only
    rw [if_neg hhead, run_bind hread, run_get_bind,
      run_bind (run_argumentsRest hstyle hitem hes [e] hrounds rest), run_expect_bind]
    rfl

/-! ### Arrays -/

/-- The further items of a row are read before a mark that binds nothing. -/
theorem run_arrayRest_row {es : List Expr} (h : ∀ e ∈ es, style.Fits levels e) (rows : List (List Expr))
    (row : List Expr) (rounds : Nat) {rest : List Token} (hrest : binding rest < 1) :
    (arrayRest item rows row (es.length + rounds)).run
      ⟨(es.map (style.textAt 1)).flatMap (.mark .comma :: ·) ++ rest, none⟩ =
      (arrayRest item rows (es.reverse ++ row) rounds).run ⟨rest, none⟩ := by
  induction es generalizing row with
  | nil => rw [List.length_nil, Nat.zero_add]; rfl
  | cons e es ih =>
    obtain ⟨he, hes⟩ := List.forall_mem_cons.1 h
    have hnext := binding_flatMap rfl (m := .comma) (es.map (style.textAt 1)) hrest
    rw [List.map_cons, List.flatMap_cons, List.append_assoc, List.cons_append, List.length_cons,
      Nat.add_right_comm, arrayRest, run_current_bind]
    show (discard advance >>= fun _ => item >>= fun e => arrayRest item rows (e :: row) (es.length + rounds)).run _ = _
    rw [run_discard_bind, run_bind (hitem.textAt hstyle (by decide) (by decide) he.1 he.2 _ hnext),
      ih hes (e :: row)]
    simp

/-- The further rows are read up to the brace. -/
theorem run_arrayRest_rows {later : List (List Expr)} (h : ∀ row ∈ later, row ≠ [] ∧ ∀ e ∈ row, style.Fits levels e)
    (rows : List (List Expr)) (row : List Expr) {rounds : Nat} (hrounds : later.flatten.length < rounds)
    (rest : List Token) : (arrayRest item rows row rounds).run
      ⟨(later.map style.rowText).flatMap (.mark .semicolon :: ·) ++ .mark .rightBrace :: rest, none⟩ =
      .ok ((row.reverse :: rows).reverse ++ later, ⟨.mark .rightBrace :: rest, none⟩) := by
  induction later generalizing rows row rounds with
  | nil =>
    rw [List.append_nil]
    cases rounds with
    | zero => simp at hrounds
    | succ rounds => rfl
  | cons next later ih =>
    obtain ⟨⟨hne, hnext⟩, hlater⟩ := List.forall_mem_cons.1 h
    obtain ⟨e, es, rfl⟩ := List.exists_cons_of_ne_nil hne
    obtain ⟨he, hes⟩ := List.forall_mem_cons.1 hnext
    obtain ⟨k, rfl, hk⟩ : ∃ k, rounds = es.length + k + 1 ∧ later.flatten.length < k := by
      simp only [List.flatten_cons, List.length_append, List.length_cons] at hrounds
      exact ⟨rounds - (es.length + 1), by omega, by omega⟩
    have hrow : binding ((later.map style.rowText).flatMap (.mark .semicolon :: ·) ++ .mark .rightBrace :: rest) < 1 :=
      binding_flatMap rfl _ Nat.one_pos
    have hitems := binding_flatMap rfl (m := .comma) (es.map (style.textAt 1)) hrow
    rw [List.map_cons, List.flatMap_cons, List.append_assoc, List.cons_append, style.rowText_cons,
      List.append_assoc, arrayRest, run_current_bind]
    show (discard advance >>= fun _ => item >>= fun e =>
      arrayRest item (row.reverse :: rows) [e] (es.length + k)).run _ = _
    rw [run_discard_bind, run_bind (hitem.textAt hstyle (by decide) (by decide) he.1 he.2 _ hitems),
      run_arrayRest_row hstyle hitem hes _ _ _ hrow, ih hlater _ _ hk]
    simp

theorem run_arrayLiteral {rows : List (List Expr)} (hrect : isRectangular rows)
    (h : ∀ row ∈ rows, row ≠ [] ∧ ∀ e ∈ row, style.Fits levels e) (rest : List Token) :
    (arrayLiteral item).run ⟨.mark .leftBrace :: (separated .semicolon (rows.map style.rowText) ++
      .mark .rightBrace :: rest), none⟩ = .ok (.array rows, ⟨rest, none⟩) := by
  rw [arrayLiteral, run_expect_bind, run_current_bind]
  cases rows with
  | nil =>
    show (expect .rightBrace >>= fun _ => pure (Expr.array [])).run ⟨.mark .rightBrace :: rest, none⟩ = _
    rw [run_expect_bind]
    rfl
  | cons row later =>
    obtain ⟨⟨hne, hrow⟩, hlater⟩ := List.forall_mem_cons.1 h
    obtain ⟨e, es, rfl⟩ := List.exists_cons_of_ne_nil hne
    obtain ⟨he, hes⟩ := List.forall_mem_cons.1 hrow
    have hrows : binding ((later.map style.rowText).flatMap (.mark .semicolon :: ·) ++ .mark .rightBrace :: rest) < 1 :=
      binding_flatMap rfl _ Nat.one_pos
    have hitems := binding_flatMap rfl (m := .comma) (es.map (style.textAt 1)) hrows
    obtain ⟨k, hk, hrounds⟩ : ∃ k, later.flatten.length < k ∧ ((es.map (style.textAt 1)).flatMap (.mark .comma :: ·) ++
        ((later.map style.rowText).flatMap (.mark .semicolon :: ·) ++ .mark .rightBrace :: rest)).length + 1 =
        es.length + k := by
      have hes := length_le_flatMap .comma (es.map (style.textAt 1))
      have hlater := length_flatten_le style fun row hrow => (hlater row hrow).1
      rw [List.length_map] at hes
      simp only [List.length_append, List.length_cons]
      exact ⟨_, by omega, (Nat.add_sub_of_le (by omega)).symm⟩
    have hread := run_arrayRest_row hstyle hitem hes [] [e] k hrows
    rw [run_arrayRest_rows hstyle hitem hlater [] _ hk rest,
      show [(es.reverse ++ [e]).reverse].reverse ++ later = (e :: es) :: later by simp] at hread
    rw [List.map_cons, separated, style.rowText_cons, List.append_assoc, List.append_assoc]
    dsimp only
    rw [if_neg (textAt_head hstyle he.1 1 (by simp) _),
      run_bind (hitem.textAt hstyle (by decide) (by decide) he.1 he.2 _ hitems), run_get_bind, hrounds,
      run_bind hread, hrect]
    show (expect .rightBrace >>= fun _ => pure (Expr.array ((e :: es) :: later))).run _ = _
    rw [run_expect_bind]
    rfl

end Items

end Spreadsheet.Formula
