import Spreadsheet.Formula.Grammar
import Spreadsheet.Proofs.Spelling

/-!
# Written expressions

Every expression is written as tokens, with parentheses around those of its operands that bind less than their place
asks for, and perhaps around more.

* `Expr.level` : how tightly an expression binds;
* `Style`, `Style.Admissible` : where parentheses stand, and where they have to;
* `Style.full`, `Style.sparing`, `Style.signed` : around every operation, where the levels ask for them, and the same
  but for the sign of an exponent;
* `Style.text`, `Style.nesting` : the tokens of an expression, and how many levels they nest;
* `Expr.writable` : expressions that can be written;
* `Style.legible_text` : the tokens are not taken for others.
-/

namespace Spreadsheet.Formula

/-! ## Levels -/

namespace BinaryOp

def mark : BinaryOp → Mark
  | add => .plus
  | subtract => .minus
  | multiply => .star
  | divide => .slash
  | power => .caret
  | equal => .equal
  | notEqual => .notEqual
  | less => .less
  | lessEqual => .lessEqual
  | greater => .greater
  | greaterEqual => .greaterEqual
  | concat => .ampersand

/-- From comparisons, the loosest, to powers; signs are at level five. -/
def level : BinaryOp → Nat
  | equal | notEqual | less | lessEqual | greater | greaterEqual => 1
  | concat => 2
  | add | subtract => 3
  | multiply | divide => 4
  | power => 6

/-- The level of a left operand. Powers group to the right. -/
def leftLevel (op : BinaryOp) : Nat := if op = power then 7 else op.level

/-- The level of a right operand. All but powers group to the left. -/
def rightLevel (op : BinaryOp) : Nat := if op = power then 6 else op.level + 1

end BinaryOp

namespace Expr

/-- How tightly an expression binds; what holds together by itself is at level eight. -/
def level : Expr → Nat
  | binary op _ _ => op.level
  | unary .negate _ => 5
  | unary .percent _ => 7
  | _ => 8

def isMissing : Expr → Bool
  | missing => true
  | _ => false

/-! ## Parts -/

/-- The operands, arguments or items of an expression. -/
def children : Expr → List Expr
  | binary _ left right => [left, right]
  | unary _ operand => [operand]
  | call _ arguments => arguments
  | array rows => rows.flatten
  | _ => []

theorem sizeOf_children {e c : Expr} (h : c ∈ e.children) : sizeOf c < sizeOf e := by
  cases e with
  | binary op left right =>
    simp only [children, List.mem_cons, List.not_mem_nil, or_false] at h
    rw [binary.sizeOf_spec]
    rcases h with rfl | rfl <;> omega
  | unary op operand =>
    obtain rfl := List.mem_singleton.1 h
    rw [unary.sizeOf_spec]
    omega
  | call f arguments =>
    have : sizeOf c < sizeOf arguments := List.sizeOf_lt_of_mem h
    rw [call.sizeOf_spec]
    omega
  | array rows =>
    obtain ⟨row, hrow, hc⟩ := List.mem_flatten.1 h
    have := List.sizeOf_lt_of_mem hrow
    have := List.sizeOf_lt_of_mem hc
    rw [array.sizeOf_spec]
    omega
  | _ => cases h

/-- What holds of an expression whenever it holds of its operands, arguments and items holds of all expressions. -/
theorem children_induction {motive : Expr → Prop} (h : ∀ e, (∀ c ∈ e.children, motive c) → motive e) (e : Expr) :
    motive e :=
  h e fun c _hc => children_induction h c
termination_by sizeOf e
decreasing_by exact sizeOf_children _hc

mutual

/-- Whether an expression and all within it have a property. -/
def every (p : Expr → Bool) : Expr → Bool
  | binary op left right => p (binary op left right) && (every p left && every p right)
  | unary op operand => p (unary op operand) && every p operand
  | call f arguments => p (call f arguments) && everyOf p arguments
  | array rows => p (array rows) && everyIn p rows
  | e => p e

def everyOf (p : Expr → Bool) : List Expr → Bool
  | [] => true
  | e :: es => every p e && everyOf p es

def everyIn (p : Expr → Bool) : List (List Expr) → Bool
  | [] => true
  | row :: rows => everyOf p row && everyIn p rows

end

theorem everyOf_iff {p : Expr → Bool} {es : List Expr} : everyOf p es ↔ ∀ e ∈ es, e.every p := by
  induction es with
  | nil => simp [everyOf]
  | cons e es ih => simp [everyOf, ih]

theorem everyIn_iff {p : Expr → Bool} {rows : List (List Expr)} : everyIn p rows ↔ ∀ e ∈ rows.flatten, e.every p := by
  induction rows with
  | nil => simp [everyIn]
  | cons row rows ih =>
    rw [everyIn, Bool.and_eq_true, everyOf_iff, ih, List.flatten_cons]
    simp only [List.mem_append, or_imp, forall_and]

theorem every_iff {p : Expr → Bool} {e : Expr} : e.every p ↔ p e ∧ ∀ c ∈ e.children, c.every p := by
  cases e with
  | call f arguments => rw [every, Bool.and_eq_true, everyOf_iff, children]
  | array rows => rw [every, Bool.and_eq_true, everyIn_iff, children]
  | _ => simp [every, children]

/-- What a formula can write, apart from operands: cells that a sheet can hold, ranges whose ends have their sheets,
names that are not taken for something else, functions in upper case, arrays with rows of one length. An argument may be
left out unless it is the only one. -/
def isSound : Expr → Bool
  | cell a => a.InBounds
  | range r => r.start.InBounds ∧ r.finish.InBounds ∧ CellRange.ofCorners r.start r.finish = r
  | name s => isName s && !isReserved s
  | binary _ left right => !left.isMissing && !right.isMissing
  | unary _ operand => !operand.isMissing
  | call f arguments => isName f && Text.upper f == f && !(arguments matches [missing])
  | array rows => isRectangular rows && rows.all fun row => !row.isEmpty && row.all fun e => !e.isMissing
  | _ => true

end Expr

/-! ## Styles -/

/-- What is free in writing an expression. -/
structure Style where
  /-- Whether an expression stands in parentheses where a level is asked for. -/
  parens : Nat → Expr → Bool
  /-- Whether the end of a range repeats the sheet of its start. -/
  repeats : CellRange → Bool

namespace Style

/-- Parentheses stand around what binds less than its place asks for, except for the sign of an exponent. An argument
that is left out has none. -/
structure Admissible (style : Style) : Prop where
  level : ∀ {need e}, style.parens need e = false → need ≤ 8 → need ≤ e.level ∨ need = 6 ∧ e.level = 5
  missing : style.parens 1 .missing = false

/-- Parentheses around every operation. -/
def full (repeats : CellRange → Bool) : Style := ⟨fun _ e => e.level < 8, repeats⟩

/-- Parentheses only where the levels ask for them. -/
def sparing (repeats : CellRange → Bool) : Style := ⟨fun need e => e.level < need, repeats⟩

/-- The same, but none around the sign of an exponent. -/
def signed (repeats : CellRange → Bool) : Style :=
  ⟨fun need e => e.level < need && !(need == 6 && e.level == 5), repeats⟩

theorem Admissible.full (repeats : CellRange → Bool) : (Style.full repeats).Admissible where
  level h hneed := by
    simp only [Style.full, decide_eq_false_iff_not] at h
    omega
  missing := rfl

theorem Admissible.sparing (repeats : CellRange → Bool) : (Style.sparing repeats).Admissible where
  level h _ := by
    simp only [Style.sparing, decide_eq_false_iff_not] at h
    omega
  missing := rfl

theorem Admissible.signed (repeats : CellRange → Bool) : (Style.signed repeats).Admissible where
  level h _ := by
    simp [Style.signed] at h
    omega
  missing := rfl

end Style

/-! ## Texts -/

/-- Tokens in parentheses, or as they are. -/
def enclosed (parens : Bool) (ts : List Token) : List Token :=
  if parens then .mark .leftParen :: (ts ++ [.mark .rightParen]) else ts

/-- Texts with a mark between them. -/
def separated (m : Mark) : List (List Token) → List Token
  | [] => []
  | ts :: rest => ts ++ rest.flatMap (.mark m :: ·)

/-- A cell, after the name of its sheet if it has one. -/
def cellTokens (a : Address) : List Token :=
  match a.sheet with
  | some s => [.sheet s, .cell a.writeCoordinates]
  | none => [.cell a.writeCoordinates]

namespace Style

variable (style : Style)

/-- The end of a range needs its sheet only where it is not that of the start. -/
def endTokens (r : CellRange) : List Token :=
  if style.repeats r ∨ r.finish.sheet ≠ r.start.sheet then cellTokens r.finish
  else [.cell r.finish.writeCoordinates]

mutual

/-- The tokens of an expression without parentheses around it. -/
def bare : Expr → List Token
  | .number x => [.number x]
  | .text s => [.text s]
  | .boolean b => [.boolean b]
  | .error e => [.error e]
  | .missing => []
  | .cell a => cellTokens a
  | .range r => cellTokens r.start ++ .mark .colon :: style.endTokens r
  | .name s => [.name s]
  | .binary op left right => enclosed (style.parens op.leftLevel left) (bare left) ++
      .mark op.mark :: enclosed (style.parens op.rightLevel right) (bare right)
  | .unary .negate operand => .mark .minus :: enclosed (style.parens 5 operand) (bare operand)
  | .unary .percent operand => enclosed (style.parens 7 operand) (bare operand) ++ [.mark .percent]
  | .call f arguments => .name f :: .mark .leftParen :: (separated .comma (bareItems arguments) ++ [.mark .rightParen])
  | .array rows => .mark .leftBrace :: (separated .semicolon (bareRows rows) ++ [.mark .rightBrace])

def bareItems : List Expr → List (List Token)
  | [] => []
  | e :: es => enclosed (style.parens 1 e) (bare e) :: bareItems es

def bareRows : List (List Expr) → List (List Token)
  | [] => []
  | row :: rows => separated .comma (bareItems row) :: bareRows rows

end

/-- The tokens of an expression, in parentheses or not. -/
def text (parens : Bool) (e : Expr) : List Token := enclosed parens (style.bare e)

/-- The tokens of an expression where a level is asked for. -/
def textAt (need : Nat) (e : Expr) : List Token := style.text (style.parens need e) e

mutual

/-- How many levels the tokens of an expression nest: parentheses, arguments, items, operands of signs and exponents are
a level deeper than what they are part of. -/
def bareNesting : Expr → Nat
  | .binary .power left right => max (bareNesting left + (style.parens 7 left).toNat)
      (bareNesting right + (style.parens 6 right).toNat + 1)
  | .binary op left right => max (bareNesting left + (style.parens op.leftLevel left).toNat)
      (bareNesting right + (style.parens op.rightLevel right).toNat)
  | .unary .negate operand => bareNesting operand + (style.parens 5 operand).toNat + 1
  | .unary .percent operand => bareNesting operand + (style.parens 7 operand).toNat
  | .call _ arguments => itemsNesting arguments + 1
  | .array rows => rowsNesting rows + 1
  | .missing => 0
  | _ => 1

def itemsNesting : List Expr → Nat
  | [] => 0
  | e :: es => max (bareNesting e + (style.parens 1 e).toNat) (itemsNesting es)

def rowsNesting : List (List Expr) → Nat
  | [] => 0
  | row :: rows => max (itemsNesting row) (rowsNesting rows)

end

def nesting (parens : Bool) (e : Expr) : Nat := style.bareNesting e + parens.toNat

def nestingAt (need : Nat) (e : Expr) : Nat := style.nesting (style.parens need e) e

/-- The percent signs in a row at the end of an expression. -/
def percentRun : Expr → Nat
  | .unary .percent operand => (if style.parens 7 operand then 0 else percentRun operand) + 1
  | _ => 0

theorem bareItems_eq (es : List Expr) : style.bareItems es = es.map (style.textAt 1) := by
  induction es with
  | nil => rfl
  | cons e es ih => rw [bareItems, ih, List.map_cons, textAt, text]

/-- The tokens of a row of items. -/
def rowText (row : List Expr) : List Token := separated .comma (row.map (style.textAt 1))

theorem rowText_cons (e : Expr) (es : List Expr) :
    style.rowText (e :: es) = style.textAt 1 e ++ (es.map (style.textAt 1)).flatMap (.mark .comma :: ·) := rfl

theorem bareRows_eq (rows : List (List Expr)) : style.bareRows rows = rows.map style.rowText := by
  induction rows with
  | nil => rfl
  | cons row rows ih => rw [bareRows, ih, List.map_cons, bareItems_eq, rowText]

theorem bare_call (f : String) (arguments : List Expr) : style.bare (.call f arguments) =
    .name f :: .mark .leftParen :: (separated .comma (arguments.map (style.textAt 1)) ++ [.mark .rightParen]) := by
  rw [bare, bareItems_eq]

theorem bare_array (rows : List (List Expr)) : style.bare (.array rows) =
    .mark .leftBrace :: (separated .semicolon (rows.map style.rowText) ++ [.mark .rightBrace]) := by
  rw [bare, bareRows_eq]

theorem itemsNesting_le {n : Nat} {es : List Expr} : style.itemsNesting es ≤ n ↔ ∀ e ∈ es, style.nestingAt 1 e ≤ n := by
  induction es with
  | nil => simp [itemsNesting]
  | cons e es ih => rw [itemsNesting, Nat.max_le, ih, List.forall_mem_cons, nestingAt, nesting]

theorem rowsNesting_le {n : Nat} {rows : List (List Expr)} :
    style.rowsNesting rows ≤ n ↔ ∀ e ∈ rows.flatten, style.nestingAt 1 e ≤ n := by
  induction rows with
  | nil => simp [rowsNesting]
  | cons row rows ih =>
    rw [rowsNesting, Nat.max_le, ih, itemsNesting_le, List.flatten_cons]
    simp only [List.mem_append, or_imp, forall_and]

/-- An expression that can be written, without too many percent signs in a row. -/
structure Suits (e : Expr) : Prop where
  present : e.isMissing = false
  sound : e.every Expr.isSound
  runs : e.every fun part => style.percentRun part ≤ maxNesting

variable {style} {e : Expr}

theorem Suits.child (h : style.Suits e) {c : Expr} (hc : c ∈ e.children) (hpresent : c.isMissing = false) :
    style.Suits c where
  present := hpresent
  sound := (Expr.every_iff.1 h.sound).2 c hc
  runs := (Expr.every_iff.1 h.runs).2 c hc

theorem Suits.isSound (h : style.Suits e) : e.isSound := (Expr.every_iff.1 h.sound).1

theorem Suits.percentRun_le (h : style.Suits e) : style.percentRun e ≤ maxNesting := by
  simpa using (Expr.every_iff.1 h.runs).1

theorem Suits.operands {op : BinaryOp} {left right : Expr} (h : style.Suits (.binary op left right)) :
    style.Suits left ∧ style.Suits right := by
  have hsound := h.isSound
  simp only [Expr.isSound, Bool.and_eq_true, Bool.not_eq_true'] at hsound
  exact ⟨h.child (by simp [Expr.children]) hsound.1, h.child (by simp [Expr.children]) hsound.2⟩

theorem Suits.operand {op : UnaryOp} {operand : Expr} (h : style.Suits (.unary op operand)) : style.Suits operand := by
  have hsound := h.isSound
  simp only [Expr.isSound, Bool.not_eq_true'] at hsound
  exact h.child (by simp [Expr.children]) hsound

theorem Suits.item {rows : List (List Expr)} (h : style.Suits (.array rows)) {c : Expr} (hc : c ∈ rows.flatten) :
    style.Suits c := by
  have hsound := h.isSound
  simp only [Expr.isSound, Bool.and_eq_true, List.all_eq_true, Bool.not_eq_true'] at hsound
  obtain ⟨row, hrow, hmem⟩ := List.mem_flatten.1 hc
  exact h.child hc ((hsound.2 row hrow).2 c hmem)

end Style

/-! ## First tokens -/

/-- What an operand without a sign starts with. -/
def Token.begins : Token → Bool
  | .mark .leftParen | .mark .leftBrace => true
  | .mark _ | .finish => false
  | _ => true

theorem cellTokens_begins (a : Address) : ∃ t ts, cellTokens a = t :: ts ∧ t.begins := by
  unfold cellTokens
  split <;> exact ⟨_, _, rfl, rfl⟩

variable {style : Style} {e : Expr}

/-- Only signs, and what starts with one, start with a minus. -/
theorem text_begins (hstyle : style.Admissible) (h : style.Suits e) (b : Bool) :
    ∃ t ts, style.text b e = t :: ts ∧ (t.begins ∨ t = .mark .minus ∧ b = false ∧ e.level ≤ 5) := by
  induction e using Expr.children_induction generalizing b with
  | h e ih =>
    cases b with
    | true => exact ⟨_, _, rfl, Or.inl rfl⟩
    | false =>
      cases e with
      | missing => cases h.present
      | cell a =>
        obtain ⟨t, ts, ha, ht⟩ := cellTokens_begins a
        exact ⟨t, ts, ha, Or.inl ht⟩
      | range r =>
        obtain ⟨t, ts, hr, ht⟩ := cellTokens_begins r.start
        refine ⟨t, ts ++ .mark .colon :: style.endTokens r, ?_, Or.inl ht⟩
        show cellTokens r.start ++ _ = _
        rw [hr, List.cons_append]
      | binary op left right =>
        obtain ⟨t, ts, hleft, ht⟩ := ih left (by simp [Expr.children]) h.operands.1 (style.parens op.leftLevel left)
        refine ⟨t, ts ++ .mark op.mark :: style.textAt op.rightLevel right, ?_, ht.imp_right ?_⟩
        · show style.text (style.parens op.leftLevel left) left ++ _ = _
          rw [hleft, List.cons_append]
          rfl
        · -- a base of a power that starts with a sign stands in parentheses
          rintro ⟨hminus, hbare, hlevel⟩
          refine ⟨hminus, rfl, ?_⟩
          show op.level ≤ 5
          by_cases hop : op = .power
          · subst hop
            have hneed : 7 ≤ left.level ∨ 7 = 6 ∧ left.level = 5 := hstyle.level hbare (by decide)
            omega
          · cases op <;> first | decide | exact absurd rfl hop
      | unary op operand =>
        cases op with
        | negate => exact ⟨_, _, rfl, Or.inr ⟨rfl, rfl, Nat.le_refl 5⟩⟩
        | percent =>
          obtain ⟨t, ts, hoperand, ht⟩ := ih operand (by simp [Expr.children]) h.operand (style.parens 7 operand)
          refine ⟨t, ts ++ [.mark .percent], ?_, Or.inl (ht.resolve_right ?_)⟩
          · show style.text (style.parens 7 operand) operand ++ _ = _
            rw [hoperand, List.cons_append]
          · rintro ⟨-, hbare, hlevel⟩
            have hneed := hstyle.level hbare (by decide)
            omega
      | _ => exact ⟨_, _, rfl, Or.inl rfl⟩

/-! ## Legible texts -/

/-- Tokens that are legible before all that opens no parenthesis. -/
def Clear (ts : List Token) : Prop := ∀ rest, Legible rest → opens rest = false → Legible (ts ++ rest)

variable {ts us : List Token}

theorem Clear.mark {m : Mark} (hm : m ≠ .leftParen) (hts : Clear ts) (hus : Clear us) :
    Clear (ts ++ .mark m :: us) := by
  intro rest hrest hopens
  rw [List.append_assoc]
  refine hts _ ⟨trivial, hus rest hrest hopens⟩ ?_
  cases m <;> first | rfl | exact absurd rfl hm

theorem Clear.afterMark (m : Mark) (hts : Clear ts) : Clear (.mark m :: ts) :=
  fun _ hrest hopens => ⟨trivial, hts _ hrest hopens⟩

theorem clear_nil : Clear [] := fun _ hrest _ => hrest

theorem Clear.enclosed (hts : Clear ts) (b : Bool) : Clear (enclosed b ts) := by
  cases b with
  | true => exact .afterMark .leftParen (.mark (by decide) hts clear_nil)
  | false => exact hts

theorem Clear.separated {m : Mark} (hm : m ≠ .leftParen) {tss : List (List Token)} (h : ∀ ts ∈ tss, Clear ts) :
    Clear (separated m tss) := by
  cases tss with
  | nil => exact clear_nil
  | cons ts tss =>
    have hrest : Clear ts → Clear (ts ++ tss.flatMap (.mark m :: ·)) := by
      have hmore := (List.forall_mem_cons.1 h).2
      clear h
      induction tss generalizing ts with
      | nil => simp
      | cons us tss ih =>
        intro hts
        obtain ⟨hus, hmore⟩ := List.forall_mem_cons.1 hmore
        rw [List.flatMap_cons]
        exact .mark hm hts (ih us hmore hus)
    exact hrest (h ts (List.mem_cons_self ..))

theorem clear_cell {a : Address} (ha : a.InBounds) : Clear [.cell a.writeCoordinates] :=
  fun _ hrest hopens => ⟨⟨hopens, a, ha, rfl⟩, hrest⟩

theorem clear_cellTokens {a : Address} (ha : a.InBounds) : Clear (cellTokens a) := by
  unfold cellTokens
  split
  · exact fun rest hrest hopens => ⟨trivial, clear_cell ha rest hrest hopens⟩
  · exact clear_cell ha

theorem clear_bare (h : e.every Expr.isSound) : Clear (style.bare e) := by
  induction e using Expr.children_induction with
  | h e ih =>
    obtain ⟨hsound, hparts⟩ := Expr.every_iff.1 h
    replace ih := fun c hc => ih c hc (hparts c hc)
    have hitems : ∀ es : List Expr, (∀ c ∈ es, c ∈ e.children) → ∀ ts ∈ es.map (style.textAt 1), Clear ts := by
      intro es hes ts hts
      obtain ⟨c, hc, rfl⟩ := List.mem_map.1 hts
      exact (ih c (hes c hc)).enclosed _
    cases e with
    | missing => exact clear_nil
    | boolean b => exact fun rest hrest hopens => ⟨hopens, hrest⟩
    | cell a => exact clear_cellTokens (by simpa [Expr.isSound] using hsound)
    | range r =>
      simp only [Expr.isSound, decide_eq_true_eq] at hsound
      refine .mark (by decide) (clear_cellTokens hsound.1) ?_
      unfold Style.endTokens
      split
      · exact clear_cellTokens hsound.2.1
      · exact clear_cell hsound.2.1
    | name s =>
      simp only [Expr.isSound, Bool.and_eq_true, Bool.not_eq_true'] at hsound
      exact fun rest hrest _ => ⟨⟨hsound.1, Or.inr hsound.2⟩, hrest⟩
    | binary op left right =>
      have hleft := (ih left (by simp [Expr.children])).enclosed (style.parens op.leftLevel left)
      have hright := (ih right (by simp [Expr.children])).enclosed (style.parens op.rightLevel right)
      exact .mark (by cases op <;> decide) hleft hright
    | unary op operand =>
      cases op with
      | negate => exact .afterMark .minus ((ih operand (by simp [Expr.children])).enclosed _)
      | percent => exact .mark (by decide) ((ih operand (by simp [Expr.children])).enclosed _) clear_nil
    | call f arguments =>
      simp only [Expr.isSound, Bool.and_eq_true] at hsound
      have harguments : Clear (separated .comma (arguments.map (style.textAt 1)) ++ [.mark .rightParen]) :=
        .mark (by decide) (.separated (by decide) (hitems arguments fun _ hc => hc)) clear_nil
      rw [style.bare_call]
      exact fun rest hrest hopens => ⟨⟨hsound.1.1, Or.inl rfl⟩, trivial, harguments rest hrest hopens⟩
    | array rows =>
      have hrows : Clear (separated .semicolon (rows.map style.rowText) ++ [.mark .rightBrace]) := by
        refine .mark (by decide) (.separated (by decide) fun ts hts => ?_) clear_nil
        obtain ⟨row, hrow, rfl⟩ := List.mem_map.1 hts
        exact .separated (by decide) (hitems row fun c hc => List.mem_flatten.2 ⟨row, hrow, hc⟩)
      rw [style.bare_array]
      exact .afterMark .leftBrace hrows
    | _ => exact fun rest hrest _ => ⟨trivial, hrest⟩

/-- The tokens of an expression are not taken for others. -/
theorem legible_text (h : e.every Expr.isSound) (b : Bool) : Legible (style.text b e) := by
  have htext : Legible (style.text b e ++ []) := (clear_bare h).enclosed b [] trivial rfl
  rwa [List.append_nil] at htext

end Spreadsheet.Formula
