import Spreadsheet.Proofs.Grammar

/-!
# Written formulas are read back

The tokens of an expression in any admissible style are read as that expression. The proof goes up the levels of the
grammar from the tightest, and by induction on the nesting that is left: what an expression encloses has one level less.

* `rangeOperand_parses`, `percentOperand_parses`, `signedOperand_parses`, `expression_parses` : the levels;
* `parseFormula_text` : a text with spaces between its tokens, in any admissible style;
* `parseFormula_written` : with parentheses around every operation, or only where the levels ask for them.
-/

namespace Spreadsheet.Formula

open Text (isBlank)

variable {style : Style} {item : TokenParser Expr} {levels : Nat}

/-! ## Primaries -/

theorem one_le_level (e : Expr) : 1 ≤ e.level := by
  cases e with
  | binary op _ _ => cases op <;> simp [Expr.level, BinaryOp.level]
  | unary op _ => cases op <;> simp [Expr.level]
  | _ => simp [Expr.level]

theorem run_primary_parens (hitem : Parses style item 1 levels) {e : Expr} (h : style.Suits e)
    (hn : style.nesting true e ≤ levels + 1) (rest : List Token) :
    (primary item).run ⟨style.text true e ++ rest, none⟩ = .ok (e, ⟨rest, none⟩) := by
  have hread := hitem e false h (Or.inr (one_le_level e)) (Nat.le_of_succ_le_succ hn) (.mark .rightParen :: rest)
    Nat.one_pos
  have htext : style.text true e ++ rest = .mark .leftParen :: (style.text false e ++ .mark .rightParen :: rest) :=
    congrArg _ (List.append_assoc ..)
  rw [htext, primary, run_current_bind]
  show (discard advance >>= fun _ => item >>= fun e => expect .rightParen >>= fun _ => pure e).run _ = _
  rw [run_discard_bind, run_bind hread, run_expect_bind]
  rfl

theorem fitsAsArgument {f : String} {arguments : List Expr} (h : style.Suits (.call f arguments))
    (hn : style.nesting false (.call f arguments) ≤ levels + 1) {e : Expr} (he : e ∈ arguments) :
    style.FitsAsArgument levels e := by
  by_cases hmissing : e.isMissing = true
  · cases e with
    | missing => exact Or.inl rfl
    | _ => cases hmissing
  · exact Or.inr ⟨h.child he (by simpa using hmissing), style.itemsNesting_le.1 (Nat.le_of_succ_le_succ hn) e he⟩

theorem fits_of_array {rows : List (List Expr)} (h : style.Suits (.array rows))
    (hn : style.nesting false (.array rows) ≤ levels + 1) {row : List Expr} (hrow : row ∈ rows) :
    row ≠ [] ∧ ∀ e ∈ row, style.Fits levels e := by
  have hsound := h.isSound
  simp only [Expr.isSound, Bool.and_eq_true, List.all_eq_true] at hsound
  refine ⟨by simpa using (hsound.2 row hrow).1, fun e he => ?_⟩
  have hmem : e ∈ rows.flatten := List.mem_flatten.2 ⟨row, hrow, he⟩
  exact ⟨h.item hmem, style.rowsNesting_le.1 (Nat.le_of_succ_le_succ hn) e hmem⟩

theorem run_primary_bare (hstyle : style.Admissible) (hitem : Parses style item 1 levels) {e : Expr}
    (h : style.Suits e) (hlevel : 8 ≤ e.level) (hn : style.nesting false e ≤ levels + 1) (hrange : ∀ r, e ≠ .range r)
    {rest : List Token} (hrest : binding rest < 9) :
    (primary item).run ⟨style.bare e ++ rest, none⟩ = .ok (e, ⟨rest, none⟩) := by
  have hsound := h.isSound
  cases e with
  | missing => cases h.present
  | range r => exact absurd rfl (hrange r)
  | binary op _ _ => cases op <;> exact absurd hlevel (by simp [Expr.level, BinaryOp.level])
  | unary op _ => cases op <;> exact absurd hlevel (by simp [Expr.level])
  | cell a => exact run_primary_cell (by simpa [Expr.isSound] using hsound) rest
  | name s =>
    have hnext : rest.headD .finish ≠ .mark .leftParen := head_ne_of_binding hrest
    show (primary item).run ⟨.name s :: rest, none⟩ = _
    rw [primary, run_current_bind]
    show (discard advance >>= fun _ => _).run _ = _
    rw [run_discard_bind, run_current_bind, if_neg hnext]
    rfl
  | call f arguments =>
    simp only [Expr.isSound, Bool.and_eq_true, beq_iff_eq] at hsound
    have hone : arguments ≠ [.missing] := by
      rintro rfl
      cases hsound.2
    have hread := run_callArguments hstyle hitem (fun e => fitsAsArgument h hn) hone rest
    rw [style.bare_call, List.cons_append, List.cons_append, List.append_assoc, List.singleton_append, primary,
      run_current_bind]
    show (discard advance >>= fun _ => _).run _ = _
    rw [run_discard_bind, run_current_bind, List.headD_cons, if_pos rfl]
    show (callArguments item >>= fun es => pure (Expr.call (Text.upper f) es)).run _ = _
    rw [run_bind hread, hsound.1.2]
    rfl
  | array rows =>
    simp only [Expr.isSound, Bool.and_eq_true] at hsound
    have hread := run_arrayLiteral hstyle hitem hsound.1 (fun row => fits_of_array h hn) rest
    rw [style.bare_array, List.cons_append, List.append_assoc, List.singleton_append, primary,
      run_current_bind]
    exact hread
  | _ =>
    show (primary item).run ⟨_ :: rest, none⟩ = _
    rw [primary, run_current_bind]
    show (discard advance >>= fun _ => pure _).run _ = _
    rw [run_discard_bind]
    rfl

theorem rangeOperand_parses (hstyle : style.Admissible) (hitem : Parses style item 1 levels) :
    Parses style (rangeOperand item) 8 (levels + 1) := by
  intro e b h hb hn rest hrest
  -- apart from ranges, an operand is a primary that no colon follows
  have hprimary : (primary item).run ⟨style.text b e ++ rest, none⟩ = .ok (e, ⟨rest, none⟩) →
      (rangeOperand item).run ⟨style.text b e ++ rest, none⟩ = .ok (e, ⟨rest, none⟩) := by
    intro hread
    have hnext : rest.headD .finish ≠ .mark .colon := head_ne_of_binding hrest
    rw [rangeOperand, run_bind hread, run_current_bind, if_neg hnext]
    rfl
  cases b with
  | true => exact hprimary (run_primary_parens hitem h hn rest)
  | false =>
    by_cases hrange : ∃ r, e = .range r
    · obtain ⟨r, rfl⟩ := hrange
      exact run_rangeOperand_range h.isSound rest
    · refine hprimary (run_primary_bare hstyle hitem h (hb.resolve_left (by decide)) hn (fun r hr => hrange ⟨r, hr⟩) ?_)
      exact Nat.lt_succ_of_lt hrest

/-! ## Percent signs -/

theorem run_percents_end (e : Expr) (left : Nat) {rest : List Token} (h : rest.headD .finish ≠ .mark .percent) :
    (percents e left).run ⟨rest, none⟩ = .ok (e, ⟨rest, none⟩) := by
  cases left with
  | zero =>
    rw [percents, run_current_bind, if_neg h]
    rfl
  | succ left =>
    rw [percents, run_current_bind, if_neg h]
    rfl

theorem run_percents_step (e : Expr) (left : Nat) (rest : List Token) :
    (percents e (left + 1)).run ⟨.mark .percent :: rest, none⟩ =
      (percents (.unary .percent e) left).run ⟨rest, none⟩ := by
  rw [percents, run_current_bind, List.headD_cons, if_pos rfl, run_discard_bind]

/-- The percent signs at the end of an expression, if it is not in parentheses. -/
def Style.trailing (style : Style) (b : Bool) (e : Expr) : Nat := if b then 0 else style.percentRun e

/-- Percent signs are taken off what may still come. -/
theorem percent_spine (hstyle : style.Admissible) (hitem : Parses style item 1 levels) {e : Expr} {b : Bool}
    (h : style.Suits e) (hb : b = true ∨ 7 ≤ e.level) (hn : style.nesting b e ≤ levels + 1) {rest : List Token}
    (hrest : binding rest ≤ 7) : (percentOperand item).run ⟨style.text b e ++ rest, none⟩ =
      (percents e (maxNesting - style.trailing b e)).run ⟨rest, none⟩ := by
  induction e using Expr.children_induction generalizing b rest with
  | h e ih =>
    by_cases htight : b = true ∨ 8 ≤ e.level
    · have hnone : style.trailing b e = 0 := by
        rcases htight with rfl | hlevel
        · rfl
        · unfold Style.trailing Style.percentRun
          split
          · rfl
          · split
            · exact absurd hlevel (by simp [Expr.level])
            · rfl
      have hread := rangeOperand_parses hstyle hitem e b h htight hn rest (Nat.lt_succ_of_le hrest)
      rw [percentOperand, run_bind hread, hnone]
      rfl
    · rw [not_or, Bool.not_eq_true] at htight
      obtain ⟨rfl, hloose⟩ := htight
      have hlevel := hb.resolve_left (by decide)
      obtain ⟨operand, rfl⟩ : ∃ operand, e = .unary .percent operand := by
        cases e with
        | unary op operand =>
          cases op with
          | negate => exact absurd hlevel (by simp [Expr.level])
          | percent => exact ⟨operand, rfl⟩
        | binary op _ _ => cases op <;> exact absurd hlevel (by simp [Expr.level, BinaryOp.level])
        | _ => exact absurd (Nat.le_refl 8) hloose
      have hruns := h.percentRun_le
      have htrailing : style.trailing false (.unary .percent operand) =
          style.trailing (style.parens 7 operand) operand + 1 := rfl
      have hread : (percentOperand item).run ⟨style.textAt 7 operand ++ .mark .percent :: rest, none⟩ = _ :=
        ih operand (by simp [Expr.children]) h.operand (hstyle.tight (by decide) (by decide) operand) hn (Nat.le_refl 7)
      have htext : style.text false (.unary .percent operand) ++ rest =
          style.textAt 7 operand ++ .mark .percent :: rest := List.append_assoc ..
      have hleft : maxNesting - style.trailing (style.parens 7 operand) operand =
          maxNesting - style.trailing false (.unary .percent operand) + 1 := by
        change style.trailing false (.unary .percent operand) ≤ maxNesting at hruns
        omega
      rw [htext, hread, hleft, run_percents_step]

theorem percentOperand_parses (hstyle : style.Admissible) (hitem : Parses style item 1 levels) :
    Parses style (percentOperand item) 7 (levels + 1) := by
  intro e b h hb hn rest hrest
  have hnext : rest.headD .finish ≠ .mark .percent := head_ne_of_binding hrest
  rw [percent_spine hstyle hitem h hb hn (Nat.le_of_lt hrest), run_percents_end e _ hnext]

/-! ## Signs and powers -/

theorem Style.nestingAt_left_le (style : Style) (op : BinaryOp) (left right : Expr) :
    style.nestingAt op.leftLevel left ≤ style.bareNesting (.binary op left right) := by
  cases op <;> exact Nat.le_max_left _ _

/-- Even an operand that encloses nothing takes a level. -/
theorem Style.Suits.one_le_nesting {e : Expr} (h : style.Suits e) (b : Bool) : 1 ≤ style.nesting b e := by
  induction e using Expr.children_induction generalizing b with
  | h e ih =>
    refine Nat.le_add_right_of_le ?_
    cases e with
    | missing => cases h.present
    | binary op left right =>
      exact (ih left (by simp [Expr.children]) h.operands.1 _).trans (style.nestingAt_left_le op left right)
    | unary op operand =>
      cases op with
      | negate => exact Nat.le_add_left 1 _
      | percent => exact ih operand (by simp [Expr.children]) h.operand (style.parens 7 operand)
    | call f arguments => exact Nat.le_add_left 1 _
    | array rows => exact Nat.le_add_left 1 _
    | _ => exact Nat.le_refl 1

/-- Signs aside, an operand does not start with one. -/
theorem text_head_begins (hstyle : style.Admissible) {e : Expr} {b : Bool} (h : style.Suits e)
    (hb : b = true ∨ 6 ≤ e.level) (rest : List Token) : ((style.text b e ++ rest).headD .finish).begins := by
  obtain ⟨t, ts, htext, ht⟩ := text_begins hstyle h b
  rw [htext]
  refine ht.resolve_right ?_
  rintro ⟨-, rfl, hlevel⟩
  have := hb.resolve_left (by decide)
  omega

theorem run_signedOperand {ts rest : List Token} {base : Expr} (hts : (ts.headD .finish).begins)
    (hbase : (percentOperand (expressionOf (signedOperand levels))).run ⟨ts, none⟩ = .ok (base, ⟨rest, none⟩)) :
    (signedOperand (levels + 1)).run ⟨ts, none⟩ = (do
      if (← current) = .mark .caret then
        discard advance
        return .binary .power base (← signedOperand levels)
      else return base : TokenParser Expr).run ⟨rest, none⟩ := by
  rw [signedOperand, run_current_bind]
  split
  · rename_i heq
    rw [heq] at hts
    cases hts
  · rename_i heq
    rw [heq] at hts
    cases hts
  · rw [run_bind hbase]

/-- With the levels that are left, by induction on them: what an expression encloses has one level less. -/
theorem signedOperand_parses (hstyle : style.Admissible) (levels : Nat) :
    Parses style (signedOperand levels) 5 levels := by
  induction levels with
  | zero =>
    intro e b h _ hn
    have := h.one_le_nesting b
    omega
  | succ levels ih =>
    intro e b h hb hn rest hrest
    have hitem := expressionOf_parses hstyle ih
    have hnext : rest.headD .finish ≠ .mark .caret := head_ne_of_binding (hrest.trans (by decide))
    by_cases htight : b = true ∨ 7 ≤ e.level
    · have hbase := percentOperand_parses hstyle hitem e b h htight hn rest (by omega)
      rw [run_signedOperand (text_head_begins hstyle h (htight.imp_right Nat.le_of_succ_le) rest) hbase,
        run_current_bind, if_neg hnext]
      rfl
    · rw [not_or, Bool.not_eq_true] at htight
      obtain ⟨rfl, hloose⟩ := htight
      have hlevel := hb.resolve_left (by decide)
      cases e with
      | unary op operand =>
        cases op with
        | percent => exact absurd (Nat.le_refl 7) hloose
        | negate =>
          have hread := ih.textAt hstyle (by decide) (by decide) h.operand (Nat.le_of_succ_le_succ hn) rest hrest
          show (signedOperand (levels + 1)).run ⟨.mark .minus :: (style.textAt 5 operand ++ rest), none⟩ = _
          rw [signedOperand, run_current_bind]
          show (discard advance >>= fun _ => signedOperand levels >>= fun e => pure (Expr.unary .negate e)).run _ = _
          rw [run_discard_bind, run_bind hread]
          rfl
      | binary op base exponent =>
        obtain rfl : op = .power := by
          cases op <;> first | rfl | exact absurd hlevel (by simp [Expr.level, BinaryOp.level])
        obtain ⟨hbase, hexponent⟩ := h.operands
        obtain ⟨hnbase, hnexponent⟩ := Nat.max_le.1 hn
        have htext : style.text false (.binary .power base exponent) ++ rest =
            style.textAt 7 base ++ .mark .caret :: (style.textAt 6 exponent ++ rest) := List.append_assoc ..
        have hleft : (percentOperand (expressionOf (signedOperand levels))).run
            ⟨style.textAt 7 base ++ .mark .caret :: (style.textAt 6 exponent ++ rest), none⟩ = _ :=
          (percentOperand_parses hstyle hitem).textAt hstyle (by decide) (by decide) hbase hnbase _ (Nat.le_refl 7)
        have hright : (signedOperand levels).run ⟨style.textAt 6 exponent ++ rest, none⟩ = _ :=
          ih exponent _ hexponent (hstyle.exponent exponent) (Nat.le_of_succ_le_succ hnexponent) rest hrest
        have hbegins : ((style.textAt 7 base ++ .mark .caret :: (style.textAt 6 exponent ++ rest)).headD
            .finish).begins :=
          text_head_begins hstyle hbase ((hstyle.tight (by decide) (by decide) base).imp_right Nat.le_of_succ_le) _
        rw [htext, run_signedOperand hbegins hleft, run_current_bind, List.headD_cons, if_pos rfl,
          run_discard_bind, run_bind hright]
        rfl
      | _ => exact absurd (by decide : 7 ≤ 8) hloose

theorem expression_parses (hstyle : style.Admissible) : Parses style expression 1 maxNesting :=
  expressionOf_parses hstyle (signedOperand_parses hstyle maxNesting)

/-! ## Formulas -/

/-- The sign of equality before a text that no blank ends is dropped, and nothing else. -/
theorem formulaBody_equal {cs : List Char} (hend : ∀ c ∈ cs.getLast?, isBlank c = false) :
    formulaBody (String.ofList ('=' :: cs)) = cs := by
  have htrim : Text.trim (String.ofList ('=' :: cs)) = String.ofList ('=' :: cs) := by
    refine Text.trim_of_ends (fun c hc => ?_) fun c hc => ?_
    · rw [String.toList_ofList, List.head?_cons] at hc
      obtain rfl := Option.some.inj hc
      decide
    · rw [String.toList_ofList] at hc
      cases cs with
      | nil =>
        obtain rfl := Option.some.inj hc
        decide
      | cons d cs => exact hend c (by rwa [List.getLast?_cons_cons] at hc)
  rw [formulaBody, htrim, String.toList_ofList]
  rfl

/-- Nothing is trimmed off a text that starts and ends with no blank, and the sign of equality before it is dropped. -/
theorem formulaBody_of_ends {c : Char} {tail : List Char} (hblank : isBlank c = false) (hc : c ≠ '=')
    (hend : ∀ d ∈ (c :: tail).getLast?, isBlank d = false) :
    formulaBody (String.ofList (c :: tail)) = c :: tail ∧
      formulaBody (String.ofList ('=' :: c :: tail)) = c :: tail := by
  refine ⟨?_, formulaBody_equal hend⟩
  rw [formulaBody, Text.trim_of_ends (by simpa using hblank) (by simpa using hend), String.toList_ofList]
  split
  · rename_i heq
    exact absurd (List.cons.inj heq).1 hc
  · rfl

theorem formulaBody_writes {ts : List Token} {cs : List Char} (h : Writes ts cs) (hts : Legible ts)
    (hequal : ts.headD .finish ≠ .mark .equal) :
    formulaBody (String.ofList cs) = cs ∧ formulaBody (String.ofList ('=' :: cs)) = cs := by
  have hlast := h.lastChar hts
  obtain ⟨t, later, c, tail, rfl, rfl, hblank, hmark, -⟩ := h.firstChar hts
  refine formulaBody_of_ends hblank ?_ hlast
  rintro rfl
  exact hequal (hmark .equal rfl)

/-- A formula is read from its tokens. -/
theorem parseFormula_of_body {formula : String} {c : Char} {tail : List Char} (hbody : formulaBody formula = c :: tail)
    (hblank : isBlank c = false) :
    parseFormula formula = (wholeFormula.run' (TokenStream.ofText (c :: tail))).mapError Rejection.fault := by
  rw [parseFormula, hbody, if_neg (by simp [hblank])]

theorem wholeFormula_parses (hstyle : style.Admissible) {e : Expr} (h : style.Suits e) {b : Bool}
    (hn : style.nesting b e ≤ maxNesting) :
    wholeFormula.run ⟨style.text b e, none⟩ = .ok (e, ⟨[], none⟩) := by
  have hexpression := expression_parses hstyle e b h (Or.inr (one_le_level e)) hn [] Nat.one_pos
  have hreadable : checkReadable.run ⟨style.text b e ++ [], none⟩ = .ok ((), ⟨style.text b e ++ [], none⟩) := by
    cases style.text b e ++ [] <;> rfl
  rw [← List.append_nil (style.text b e), wholeFormula, run_bind hreadable, run_bind hexpression, run_current_bind]
  rfl

/-- The text of an expression in any admissible style is read as that expression, with or without a sign of equality
before it. -/
theorem parseFormula_text (hstyle : style.Admissible) {e : Expr} (h : style.Suits e) {b : Bool}
    (hn : style.nesting b e ≤ maxNesting) {cs : List Char} (hcs : Writes (style.text b e) cs) :
    parseFormula (String.ofList cs) = .ok e ∧ parseFormula (String.ofList ('=' :: cs)) = .ok e := by
  have hlegible : Legible (style.text b e) := legible_text h.sound b
  have hfirst : (style.text b e).headD .finish ≠ .mark .equal := by
    simpa using text_head hstyle h b (m := .equal) (by simp) []
  have hstream : TokenStream.ofText cs = ⟨style.text b e, none⟩ :=
    ofChars_writes _ hcs hlegible (List.forall_mem_nil _)
  have hread : ∀ formula, formulaBody formula = cs → parseFormula formula = .ok e := by
    intro formula hbody
    obtain ⟨_, _, c, tail, -, rfl, hblank, -⟩ := hcs.firstChar hlegible
    rw [parseFormula_of_body hbody hblank, hstream, StateT.run'_eq, wholeFormula_parses hstyle h hn]
    rfl
  obtain ⟨hplain, hequal⟩ := formulaBody_writes hcs hlegible hfirst
  exact ⟨hread _ hplain, hread _ hequal⟩

/-- The tokens of an expression with parentheses around every operation, and those with parentheses only where the
levels ask for them, are read as the expression, however numbers are spelled. -/
theorem parseFormula_written {e : Expr} (hpresent : e.isMissing = false) (hsound : e.every Expr.isSound)
    {repeats : CellRange → Bool} {style : Style}
    (hstyle : style = .full repeats ∨ style = .sparing repeats ∨ style = .signed repeats) {b : Bool}
    (hnesting : style.nesting b e ≤ maxNesting) (hruns : e.every fun part => style.percentRun part ≤ maxNesting)
    {cs : List Char} (hcs : Writes (style.text b e) cs) :
    parseFormula (String.ofList cs) = .ok e ∧ parseFormula (String.ofList ('=' :: cs)) = .ok e := by
  have hadmissible : style.Admissible := by
    rcases hstyle with rfl | rfl | rfl
    · exact .full repeats
    · exact .sparing repeats
    · exact .signed repeats
  exact parseFormula_text hadmissible ⟨hpresent, hsound, hruns⟩ hnesting hcs

/-- An expression with something of everything. -/
def medley : Expr :=
  .binary .notEqual
    (.binary .concat
      (.unary .negate (.binary .power
        (.binary .add (.number (Decimal.nearestFloat 2 0)) (.number (Decimal.nearestFloat 15 2)))
        (.unary .negate (.unary .percent (.name "rate")))))
      (.call "IF" [.range ⟨⟨0, 0, true, true, some "Bob's"⟩, ⟨1, 1, false, false, some "Bob's"⟩⟩, .missing,
        .text "\"\""]))
    (.array [[.boolean true], [.error .notAvailable]])

theorem spells_two : Spells (.number (Decimal.nearestFloat 2 0)) ['2'] :=
  .number (@IsNumeral.whole ['2'] [] (by decide) (List.all_eq_true.1 (by decide)) .none) rfl

theorem spells_fifteenHundred : Spells (.number (Decimal.nearestFloat 15 2)) ['1', '.', '5', 'e', '3'] :=
  .number (@IsNumeral.point ['1'] ['5'] ['e', '3'] (Or.inl (by decide)) (List.all_eq_true.1 (by decide))
    (List.all_eq_true.1 (by decide))
    (@IsExponent.some 'e' [] ['3'] (Or.inl rfl) (by decide) (by decide) (List.all_eq_true.1 (by decide)))) rfl

theorem writes_medley : Writes ((Style.sparing fun _ => false).text false medley)
    ("- ( 2 + 1.5e3 ) ^ ( - rate % ) & IF ( 'Bob''s'! $A$1 : B2 , , \"\"\"\"\"\" ) <> " ++
      "\x7b TRUE ; #N/A \x7d").toList := by
  have h := Writes.space (.mark .minus) <| .space (.mark .leftParen) <| .space spells_two <| .space (.mark .plus) <|
    .space spells_fifteenHundred <| .space (.mark .rightParen) <| .space (.mark .caret) <| .space (.mark .leftParen) <|
    .space (.mark .minus) <| .space (.name "rate") <| .space (.mark .percent) <| .space (.mark .rightParen) <|
    .space (.mark .ampersand) <| .space (.name "IF") <| .space (.mark .leftParen) <| .space (.sheet "Bob's") <|
    .space (.cell (Address.writeCoordinates ⟨0, 0, true, true, some "Bob's"⟩)) <| .space (.mark .colon) <|
    .space (.cell (Address.writeCoordinates ⟨1, 1, false, false, some "Bob's"⟩)) <| .space (.mark .comma) <|
    .space (.mark .comma) <| .space (.text "\"\"") <| .space (.mark .rightParen) <| .space (.mark .notEqual) <|
    .space (.mark .leftBrace) <| .space (.boolean true) <| .space (.mark .semicolon) <|
    .space (.error .notAvailable) <| .last (.mark .rightBrace)
  refine (congrArg (Writes _) ?_).mp h
  decide +kernel

theorem parseFormula_written_medley :
    medley.isMissing = false ∧ medley.every Expr.isSound ∧
      (Style.sparing fun _ => false).nesting false medley ≤ maxNesting ∧
      parseFormula ("- ( 2 + 1.5e3 ) ^ ( - rate % ) & IF ( 'Bob''s'! $A$1 : B2 , , \"\"\"\"\"\" ) <> " ++
        "\x7b TRUE ; #N/A \x7d") = .ok medley := by
  have hpresent : medley.isMissing = false := rfl
  have hsound : medley.every Expr.isSound := by decide
  have hnesting : (Style.sparing fun _ => false).nesting false medley ≤ maxNesting := by decide
  refine ⟨hpresent, hsound, hnesting, ?_⟩
  have hread := parseFormula_written hpresent hsound (Or.inr (Or.inl rfl)) hnesting (by decide) writes_medley
  rw [← hread.1, String.ofList_toList]

end Spreadsheet.Formula
