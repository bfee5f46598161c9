import Mathlib.Data.List.Chain
import Spreadsheet.Proofs.NamesKept
import Spreadsheet.Proofs.Parsing

/-!
# Texts without spaces

Formulas need no spaces between their tokens, since every token of an expression ends where the next one begins. There
is one exception: an error value goes on with the `/` of a division, and so becomes a name.

* `Joins` : tokens with nothing between them;
* `Token.Leads`, `leads_text` : which token follows which in a written expression;
* `Swallows` : an error value right before a division;
* `ofChars_joins` : the tokens of a text in which none is swallowed;
* `namedAhead_joins` : otherwise there is a name among them that no expression can hold;
* `parseFormula_joins_iff` : a text without spaces is read as the expression just if no division is swallowed.
-/

namespace Spreadsheet.Formula

open Text (isBlank)

/-! ## Texts -/

/-- Tokens with nothing between them. -/
inductive Joins : List Token → List Char → Prop
  | last {t : Token} {w : List Char} (h : Spells t w) : Joins [t] w
  | next {t : Token} {w : List Char} {ts : List Token} {cs : List Char} (h : Spells t w) (hrest : Joins ts cs) :
      Joins (t :: ts) (w ++ cs)

/-- What stands after a token in a written expression: anything after the name of a sheet, and after marks, but an
operand after `<` and `>`; after other tokens a mark. -/
def Token.Leads : Token → Token → Prop
  | .sheet _, _ => True
  | .mark m, u => m = .less ∨ m = .greater → u.begins ∨ u = .mark .minus
  | _, u => ∃ m, u = .mark m

/-- An error value right before a division. -/
def Swallows (ts : List Token) : Prop := ∃ v, [.error v, .mark .slash] <:+: ts

variable {t u : Token} {ts us : List Token} {w cs : List Char} {opened : Bool}

/-! ## Ends of tokens -/

/-- Neither operands nor signs start as `<` and `>` go on. -/
theorem Spells.head_of_begins (h : Spells t w) (ht : t.Legible opened) (hbegins : t.begins ∨ t = .mark .minus) :
    ∀ c ∈ w.head?, c ≠ '=' ∧ c ≠ '>' := by
  have hword : ∀ {c : Char}, isWordStart c → c ≠ '=' ∧ c ≠ '>' := by
    rintro c hc
    constructor <;>
    · rintro rfl
      exact absurd hc (by decide)
  intro c hc
  cases h with
  | number hw =>
    have hstarts := (splitNumber_spelled hw breaks_nil).2
    rw [List.append_nil] at hstarts
    obtain ⟨tail, rfl⟩ := List.head?_eq_some_iff.1 hc
    constructor <;>
    · rintro rfl
      cases hstarts
  | boolean b => cases b <;> · cases hc; decide
  | error e => cases e <;> · cases hc; decide
  | name s =>
    obtain ⟨d, ds, hs, hd, -⟩ := exists_of_isName ht.1
    rw [hs] at hc
    cases hc
    exact hword (isWordStart_of_alphabetic hd)
  | cell s =>
    obtain ⟨-, a, -, rfl⟩ := ht
    obtain ⟨d, ds, ha, hd⟩ := a.exists_writeCoordinates
    rw [ha] at hc
    cases hc
    exact hword (isWordStart_of_coordinates hd)
  | mark m =>
    cases m <;> first
      | (cases hc; decide)
      | exact absurd hbegins (by simp [Token.begins])
  | _ => cases hc; decide

/-- A token ends where one begins that it leads to, unless that is a division after an error value. -/
theorem Token.Leads.endsBefore (h : t.Leads u) (hkeeps : ¬ Swallows [t, u]) (hu : Spells u w)
    (hlegible : u.Legible opened) : ∀ c ∈ w.head?, t.endsBefore c := by
  -- after anything but a mark or a sheet comes a mark
  have hmark : ∀ {m : Mark} {c : Char}, c ∈ m.spelling.toList.head? → isBreak c := by
    intro m c hc
    cases m <;> · cases hc; decide
  intro c hc
  cases t with
  | sheet s => rfl
  | mark m =>
    cases m with
    | less => simpa [Token.endsBefore] using hu.head_of_begins hlegible (h (.inl rfl)) c hc
    | greater => simpa [Token.endsBefore] using (hu.head_of_begins hlegible (h (.inr rfl)) c hc).1
    | _ => rfl
  | error v =>
    obtain ⟨m, rfl⟩ := h
    cases hu
    have hslash : m ≠ .slash := by
      rintro rfl
      exact hkeeps ⟨v, List.infix_rfl⟩
    have hc' : c ≠ '/' := by
      rintro rfl
      cases m <;> first
        | exact hslash rfl
        | cases hc
    simp [Token.endsBefore, hmark hc, hc']
  | _ =>
    obtain ⟨m, rfl⟩ := h
    cases hu
    exact hmark hc

/-! ## What follows what -/

/-- Nothing, or a mark. -/
def Closing (rest : List Token) : Prop := ∀ u ∈ rest.head?, ∃ m, u = .mark m

/-- Tokens of which each leads to the next, also when a mark follows them. -/
def Linked (ts : List Token) : Prop :=
  ∀ rest, Closing rest → rest.IsChain Token.Leads → (ts ++ rest).IsChain Token.Leads

theorem linked_nil : Linked [] := fun _ _ hchain => hchain

theorem linked_singleton (h : ∀ m, t.Leads (.mark m)) : Linked [t] := by
  intro rest hrest hchain
  refine List.isChain_cons.2 ⟨fun u hu => ?_, hchain⟩
  obtain ⟨m, rfl⟩ := hrest u hu
  exact h m

theorem Linked.mark {m : Mark} (hts : Linked ts) (hus : Linked us)
    (hm : ∀ rest, ∀ u ∈ (us ++ rest).head?, (Token.mark m).Leads u) : Linked (ts ++ .mark m :: us) := by
  intro rest hrest hchain
  rw [List.append_assoc]
  refine hts _ (fun u hu => ⟨m, (Option.some.inj hu).symm⟩) ?_
  exact List.isChain_cons.2 ⟨hm rest, hus rest hrest hchain⟩

/-- Anything may follow a mark other than `<` and `>`. -/
theorem leads_of_notMem {m : Mark} (hm : m ∉ [.less, .greater]) (u : Token) : (Token.mark m).Leads u :=
  fun h => absurd h (by simpa using hm)

theorem Linked.plain {m : Mark} (hm : m ∉ [.less, .greater]) (hts : Linked ts) (hus : Linked us) :
    Linked (ts ++ .mark m :: us) := hts.mark hus fun _ u _ => leads_of_notMem hm u

theorem Linked.afterMark {m : Mark} (hm : m ∉ [.less, .greater]) (hts : Linked ts) : Linked (.mark m :: ts) :=
  linked_nil.plain hm hts

theorem Linked.enclosed (hts : Linked ts) (b : Bool) : Linked (enclosed b ts) := by
  cases b with
  | true => exact .afterMark (by decide) (.plain (by decide) hts linked_nil)
  | false => exact hts

theorem Linked.separated {m : Mark} (hm : m ∉ [.less, .greater]) {tss : List (List Token)}
    (h : ∀ ts ∈ tss, Linked ts) : Linked (separated m tss) := by
  cases tss with
  | nil => exact linked_nil
  | cons ts tss =>
    obtain ⟨hts, hmore⟩ := List.forall_mem_cons.1 h
    clear h
    show Linked (ts ++ tss.flatMap (.mark m :: ·))
    induction tss generalizing ts with
    | nil => simpa using hts
    | cons us tss ih =>
      obtain ⟨hus, hmore⟩ := List.forall_mem_cons.1 hmore
      exact hts.plain hm (ih us hus hmore)

theorem linked_cellTokens (a : Address) : Linked (cellTokens a) := by
  have hcell : Linked [.cell a.writeCoordinates] := linked_singleton fun m => ⟨m, rfl⟩
  unfold cellTokens
  split
  · exact fun rest hrest hchain => List.isChain_cons.2 ⟨fun _ _ => trivial, hcell rest hrest hchain⟩
  · exact hcell

variable {style : Style} {e : Expr}

theorem linked_bare (hstyle : style.Admissible) (hsound : e.every Expr.isSound)
    (hruns : e.every fun part => style.percentRun part ≤ maxNesting) : Linked (style.bare e) := by
  induction e using Expr.children_induction with
  | h e ih =>
    obtain ⟨hroot, hparts⟩ := Expr.every_iff.1 hsound
    have hpartRuns := (Expr.every_iff.1 hruns).2
    replace ih := fun c hc => ih c hc (hparts c hc) (hpartRuns c hc)
    have hitems : ∀ es : List Expr, (∀ c ∈ es, c ∈ e.children) → ∀ ts ∈ es.map (style.textAt 1), Linked ts := by
      intro es hes ts hts
      obtain ⟨c, hc, rfl⟩ := List.mem_map.1 hts
      exact (ih c (hes c hc)).enclosed _
    cases e with
    | missing => exact linked_nil
    | cell a => exact linked_cellTokens a
    | range r =>
      refine .plain (by decide) (linked_cellTokens r.start) ?_
      unfold Style.endTokens
      split
      · exact linked_cellTokens r.finish
      · exact linked_singleton fun m => ⟨m, rfl⟩
    | binary op left right =>
      have hleft := (ih left (by simp [Expr.children])).enclosed (style.parens op.leftLevel left)
      have hright := (ih right (by simp [Expr.children])).enclosed (style.parens op.rightLevel right)
      refine hleft.mark hright fun rest u hu _ => ?_
      -- an operand stands after every operator
      simp only [Expr.isSound, Bool.and_eq_true, Bool.not_eq_true'] at hroot
      have hmem : right ∈ (Expr.binary op left right).children := by simp [Expr.children]
      have hsuits : style.Suits right := ⟨hroot.2, hparts right hmem, hpartRuns right hmem⟩
      obtain ⟨t, ts, htext, ht⟩ := text_begins hstyle hsuits (style.parens op.rightLevel right)
      change u ∈ (style.text _ right ++ rest).head? at hu
      rw [htext] at hu
      obtain rfl := Option.some.inj hu
      exact ht.imp_right (·.1)
    | unary op operand =>
      have hoperand := fun need => (ih operand (by simp [Expr.children])).enclosed (style.parens need operand)
      cases op with
      | negate => exact .afterMark (by decide) (hoperand 5)
      | percent => exact .plain (by decide) (hoperand 7) linked_nil
    | call f arguments =>
      have harguments : Linked (separated .comma (arguments.map (style.textAt 1)) ++ [.mark .rightParen]) :=
        .plain (by decide) (.separated (by decide) (hitems arguments fun _ hc => hc)) linked_nil
      rw [style.bare_call]
      exact .plain (by decide) (linked_singleton (t := .name f) fun m => ⟨m, rfl⟩) harguments
    | array rows =>
      have hrows : Linked (separated .semicolon (rows.map style.rowText) ++ [.mark .rightBrace]) := by
        refine .plain (by decide) (.separated (by decide) fun ts hts => ?_) linked_nil
        obtain ⟨row, hrow, rfl⟩ := List.mem_map.1 hts
        exact .separated (by decide) (hitems row fun c hc => List.mem_flatten.2 ⟨row, hrow, hc⟩)
      rw [style.bare_array]
      exact .afterMark (by decide) hrows
    | _ => exact linked_singleton fun m => ⟨m, rfl⟩

/-- In a written expression each token leads to the next. -/
theorem leads_text (hstyle : style.Admissible) (h : style.Suits e) (b : Bool) :
    (style.text b e).IsChain Token.Leads := by
  have htext := (linked_bare hstyle h.sound h.runs).enclosed b [] (by simp [Closing]) .nil
  rwa [List.append_nil] at htext

/-! ## Reading a text -/

theorem Spells.ne_finish (h : Spells t w) : t ≠ .finish := by
  rintro rfl
  cases h

/-- The first token of a text stands at its front. -/
theorem Joins.first (h : Joins ts cs) : ∃ u later w tail, ts = u :: later ∧ Spells u w ∧ cs = w ++ tail := by
  cases h with
  | last h => exact ⟨_, _, _, [], rfl, h, (List.append_nil _).symm⟩
  | next h _ => exact ⟨_, _, _, _, rfl, h, rfl⟩

theorem Joins.firstChar (h : Joins ts cs) (hts : Legible ts) : ∃ u later c tail, ts = u :: later ∧ cs = c :: tail ∧
    isBlank c = false ∧ (∀ m, singleMark? c = some m → u = .mark m) ∧ (u = .mark .leftParen → c = '(') := by
  obtain ⟨u, later, w, tail, rfl, hu, rfl⟩ := h.first
  obtain ⟨c, w, rfl, hc⟩ := hu.firstChar hts.1
  exact ⟨u, later, c, w ++ tail, rfl, rfl, hc⟩

theorem Joins.lastChar (h : Joins ts cs) (hts : Legible ts) : ∀ c ∈ cs.getLast?, isBlank c = false := by
  induction h with
  | last h => exact h.lastChar hts.1
  | next _ hrest ih =>
    obtain ⟨_, _, c, tail, -, rfl, -⟩ := hrest.firstChar hts.2
    rw [List.getLast?_append_cons]
    exact ih hts.2

theorem Joins.opensCall (h : Joins ts cs) (hts : Legible ts) : opensCall cs = opens ts := by
  obtain ⟨u, later, c, tail, rfl, rfl, hblank, hmark, hparen⟩ := h.firstChar hts
  exact opensCall_front (List.forall_mem_nil _) hblank hmark hparen

/-- A token is read up to the next one if it is not swallowed. -/
theorem ofChars_next (total : Nat) (h : Spells t w) (hrest : Joins (u :: us) cs) (hts : Legible (t :: u :: us))
    (hleads : t.Leads u) (hkeeps : ¬ Swallows [t, u]) : TokenStream.ofChars total (w ++ cs) =
      ⟨t :: (TokenStream.ofChars total cs).tokens, (TokenStream.ofChars total cs).fault⟩ := by
  have hends : ∀ c ∈ cs.head?, t.endsBefore c := by
    obtain ⟨_, _, v, tail, ⟨⟩, hu, rfl⟩ := hrest.first
    obtain ⟨d, v, rfl, -⟩ := hu.firstChar hts.2.1
    exact fun c hc => hleads.endsBefore hkeeps hu hts.2.1 c (by simpa using hc)
  obtain ⟨c, tail, rfl, hblank, -⟩ := h.firstChar hts.1
  obtain ⟨_, _, ⟨⟩, hscan⟩ := scanToken_spelled total h hends (hrest.opensCall hts.2 ▸ hts.1)
  exact TokenStream.ofChars_of_scan (List.forall_mem_nil _) hblank hscan

/-- The last token is read up to the end. -/
theorem ofChars_last (total : Nat) (h : Spells t w) (ht : t.Legible false) :
    TokenStream.ofChars total w = ⟨[t], none⟩ := by
  obtain ⟨c, tail, rfl, hblank, -⟩ := h.firstChar ht
  obtain ⟨_, _, ⟨⟩, hscan⟩ := scanToken_spelled total h t.endsBefore_nil ht
  rw [List.append_nil] at hscan
  have hread := TokenStream.ofChars_of_scan (List.forall_mem_nil _) hblank hscan
  rw [TokenStream.ofChars_nil] at hread
  exact hread

theorem Swallows.of_pair (h : Swallows [t, u]) (us : List Token) : Swallows (t :: u :: us) := by
  obtain ⟨v, hv⟩ := h
  exact ⟨v, hv.trans (List.prefix_append [t, u] us).isInfix⟩

theorem Swallows.of_tail (h : Swallows ts) (t : Token) : Swallows (t :: ts) := by
  obtain ⟨v, hv⟩ := h
  exact ⟨v, hv.trans (List.suffix_cons t ts).isInfix⟩

/-- Only the first two tokens or those after the first one can be such a pair. -/
theorem Swallows.pair_or_tail (h : Swallows (t :: u :: us)) : Swallows [t, u] ∨ Swallows (u :: us) := by
  obtain ⟨v, hv⟩ := h
  rcases List.infix_cons_iff.1 hv with hfirst | hlater
  · obtain ⟨tail, heq⟩ := hfirst
    cases heq
    exact .inl ⟨v, List.infix_rfl⟩
  · exact .inr ⟨v, hlater⟩

/-- The tokens of a text in which no division is swallowed are read back, and nothing is wrong with it. -/
theorem ofChars_joins (total : Nat) (h : Joins ts cs) (hts : Legible ts) (hleads : ts.IsChain Token.Leads)
    (hkeeps : ¬ Swallows ts) : TokenStream.ofChars total cs = ⟨ts, none⟩ := by
  induction h with
  | last h => exact ofChars_last total h hts.1
  | @next _ _ ts _ h hrest ih =>
    obtain ⟨u, us, -, -, rfl, -⟩ := hrest.first
    obtain ⟨hpair, hlater⟩ := List.isChain_cons_cons.1 hleads
    rw [ofChars_next total h hrest hts hpair fun hs => hkeeps (hs.of_pair us),
      ih hts.2 hlater fun hs => hkeeps (hs.of_tail _)]

/-! ### Swallowed divisions -/

/-- No error value goes on as another one does with a division. -/
theorem ofText?_append_slash (v : ErrorValue) (more : List Char) :
    ErrorValue.ofText? (String.ofList (v.text.toList ++ '/' :: more)) = none := by
  have hupper : ∀ v ∈ ErrorValue.all, (v.text.toList ++ ['/']).flatMap Text.upperChar = v.text.toList ++ ['/'] := by
    decide
  have hnone : ∀ v ∈ ErrorValue.all, ∀ e ∈ ErrorValue.all, ¬ v.text.toList ++ ['/'] <+: e.text.toList := by decide
  have hall : v ∈ ErrorValue.all := by cases v <;> decide
  refine List.find?_eq_none.2 fun e he heq => hnone v hall e he ?_
  refine ⟨more.flatMap Text.upperChar, ?_⟩
  rw [beq_iff_eq.1 heq, Text.upper, String.toList_ofList, String.toList_ofList, ← hupper v hall, ← List.flatMap_append,
    List.append_assoc, List.singleton_append]

/-- Names that error values with a swallowed division turn into. -/
def startsWithHash (s : String) : Bool := s.toList.head? == some '#'

theorem scanToken_swallow (total : Nat) (v : ErrorValue) (tail : List Char) :
    ∃ c cs name rest, v.text.toList = c :: cs ∧
      scanToken total c (cs ++ '/' :: tail) = .ok (.name name, rest) ∧ startsWithHash name := by
  obtain ⟨cs, htext, hcs, -⟩ := exists_errorChars v
  have htake : (cs ++ '/' :: tail).takeWhile isErrorChar = cs ++ '/' :: tail.takeWhile isErrorChar := by
    rw [List.takeWhile_append_of_pos hcs, List.takeWhile_cons_of_pos (by decide)]
  have hname := ofText?_append_slash v (tail.takeWhile isErrorChar)
  rw [htext, List.cons_append, ← htake] at hname
  refine ⟨'#', cs, String.ofList ('#' :: (cs ++ '/' :: tail).takeWhile isErrorChar),
    (cs ++ '/' :: tail).dropWhile isErrorChar, htext, ?_, ?_⟩
  · show Except.ok (scanError (cs ++ '/' :: tail)) = _
    rw [scanError, hname]
  · simp [startsWithHash]

theorem namedAhead_joins (total : Nat) (h : Joins ts cs) (hts : Legible ts) (hleads : ts.IsChain Token.Leads)
    (hswallows : Swallows ts) : namedAhead startsWithHash (TokenStream.ofChars total cs).tokens := by
  induction h with
  | last h =>
    obtain ⟨v, hv⟩ := hswallows
    exact absurd hv.length_le (by simp)
  | @next t w ts cs h hrest ih =>
    obtain ⟨u, us, w', tail, rfl, hu, rfl⟩ := hrest.first
    by_cases hpair : Swallows [t, u]
    · obtain ⟨v, hv⟩ := hpair
      obtain ⟨rfl, rfl⟩ : t = .error v ∧ u = .mark .slash := by simpa using (hv.eq_of_length rfl).symm
      cases h
      cases hu
      obtain ⟨c, cs, name, rest, htext, hscan, hname⟩ := scanToken_swallow total v tail
      have hstream := TokenStream.ofChars_of_scan (List.forall_mem_nil _) (c := c) ?_ hscan
      · rw [List.nil_append, ← List.cons_append, ← htext] at hstream
        show namedAhead startsWithHash (TokenStream.ofChars total (v.text.toList ++ '/' :: tail)).tokens
        rw [hstream]
        exact ⟨nofun, .inl hname⟩
      · obtain ⟨d, ds, hd, hblank, -⟩ := (Spells.error v).firstChar (show (Token.error v).Legible false from trivial)
        rw [htext] at hd
        cases hd
        exact hblank
    · rw [ofChars_next total h hrest hts (List.isChain_cons_cons.1 hleads).1 hpair]
      refine ⟨h.ne_finish, .inr (ih hts.2 (List.isChain_cons_cons.1 hleads).2 ?_)⟩
      exact hswallows.pair_or_tail.resolve_left hpair

/-! ## Formulas -/

/-- No expression that can be written holds such a name. -/
theorem not_names_of_isSound (h : e.every Expr.isSound) : ¬ e.Names startsWithHash := by
  have hname : ∀ s : String, isName s → startsWithHash s = false := by
    intro s hs
    obtain ⟨c, cs, hchars, hc, -⟩ := exists_of_isName hs
    rw [startsWithHash, hchars, List.head?_cons]
    rw [beq_eq_false_iff_ne]
    rintro ⟨⟩
    revert hc
    decide
  rintro ⟨c, hc, hnamed⟩
  have hsound := Expr.every.of_contains h hc
  cases c with
  | name s =>
    simp only [Expr.isSound, Bool.and_eq_true] at hsound
    exact Bool.false_ne_true ((hname s hsound.1).symm.trans hnamed)
  | call f arguments =>
    simp only [Expr.isSound, Bool.and_eq_true] at hsound
    exact Bool.false_ne_true ((hname f hsound.1.1).symm.trans hnamed)
  | _ => cases hnamed

theorem startsWithHash_upper (s : String) (h : startsWithHash s) : startsWithHash (Text.upper s) := by
  obtain ⟨tail, hs⟩ := List.head?_eq_some_iff.1 (beq_iff_eq.1 h)
  rw [startsWithHash, Text.upper, String.toList_ofList, hs, List.flatMap_cons]
  rfl

/-- A text without spaces is read as its expression just if no division in it is swallowed. -/
theorem parseFormula_joins_iff (hstyle : style.Admissible) (h : style.Suits e) {b : Bool}
    (hn : style.nesting b e ≤ maxNesting) (hcs : Joins (style.text b e) cs) {formula : String}
    (hformula : formula = String.ofList cs ∨ formula = String.ofList ('=' :: cs)) :
    parseFormula formula = .ok e ↔ ¬ Swallows (style.text b e) := by
  have hlegible : Legible (style.text b e) := legible_text h.sound b
  have hleads := leads_text hstyle h b
  obtain ⟨c, tail, hchars, hblank, hbody⟩ :
      ∃ c tail, cs = c :: tail ∧ isBlank c = false ∧ formulaBody formula = cs := by
    obtain ⟨t, later, c, tail, htext, rfl, hblank, hmark, -⟩ := hcs.firstChar hlegible
    have hc : c ≠ '=' := by
      rintro rfl
      have hequal := text_head hstyle h b (m := .equal) (by simp) []
      rw [List.append_nil, htext] at hequal
      exact hequal (hmark .equal rfl)
    have hbodies := formulaBody_of_ends hblank hc (hcs.lastChar hlegible)
    rcases hformula with rfl | rfl
    · exact ⟨c, tail, rfl, hblank, hbodies.1⟩
    · exact ⟨c, tail, rfl, hblank, hbodies.2⟩
  rw [hchars] at hbody
  rw [parseFormula_of_body hbody hblank, ← hchars, StateT.run'_eq]
  constructor
  · intro hread hswallows
    cases hrun : wholeFormula.run (TokenStream.ofText cs) with
    | error _ =>
      rw [hrun] at hread
      cases hread
    | ok r =>
      rw [hrun] at hread
      have he : r.1 = e := Except.ok.inj hread
      refine not_names_of_isSound h.sound (he ▸ names_of_wholeFormula startsWithHash_upper hrun ?_)
      exact namedAhead_joins _ hcs hlegible hleads hswallows
  · intro hkeeps
    rw [TokenStream.ofText, ofChars_joins _ hcs hlegible hleads hkeeps, wholeFormula_parses hstyle h hn]
    rfl

/-- The tokens of an expression with spaces between them are read as the expression, and those without spaces just if
none of its divisions stands right after an error value. -/
theorem parseFormula_spaceless_iff {e : Expr} (hpresent : e.isMissing = false) (hsound : e.every Expr.isSound)
    {repeats : CellRange → Bool} {style : Style}
    (hstyle : style = .full repeats ∨ style = .sparing repeats ∨ style = .signed repeats) {b : Bool}
    (hnesting : style.nesting b e ≤ maxNesting) (hruns : e.every fun part => style.percentRun part ≤ maxNesting)
    {spaced spaceless : List Char} (hspaced : Writes (style.text b e) spaced)
    (hspaceless : Joins (style.text b e) spaceless) {front : List Char} (hfront : front = [] ∨ front = ['=']) :
    parseFormula (String.ofList (front ++ spaced)) = .ok e ∧
      (parseFormula (String.ofList (front ++ spaceless)) = parseFormula (String.ofList (front ++ spaced)) ↔
        ¬ Swallows (style.text b e)) := by
  have hadmissible : style.Admissible := by
    rcases hstyle with rfl | rfl | rfl
    · exact .full repeats
    · exact .sparing repeats
    · exact .signed repeats
  have hsuits : style.Suits e := ⟨hpresent, hsound, hruns⟩
  have hread : parseFormula (String.ofList (front ++ spaced)) = .ok e := by
    obtain ⟨hplain, hequal⟩ := parseFormula_text hadmissible hsuits hnesting hspaced
    rcases hfront with rfl | rfl
    · exact hplain
    · exact hequal
  refine ⟨hread, ?_⟩
  rw [hread]
  refine parseFormula_joins_iff hadmissible hsuits hnesting hspaceless ?_
  rcases hfront with rfl | rfl
  · exact .inl rfl
  · exact .inr rfl

theorem joins_medley : Joins ((Style.sparing fun _ => false).text false medley)
    "-(2+1.5e3)^(-rate%)&IF('Bob''s'!$A$1:B2,,\"\"\"\"\"\")<>\x7bTRUE;#N/A\x7d".toList := by
  have h := Joins.next (.mark .minus) <| .next (.mark .leftParen) <| .next spells_two <| .next (.mark .plus) <|
    .next spells_fifteenHundred <| .next (.mark .rightParen) <| .next (.mark .caret) <| .next (.mark .leftParen) <|
    .next (.mark .minus) <| .next (.name "rate") <| .next (.mark .percent) <| .next (.mark .rightParen) <|
    .next (.mark .ampersand) <| .next (.name "IF") <| .next (.mark .leftParen) <| .next (.sheet "Bob's") <|
    .next (.cell (Address.writeCoordinates ⟨0, 0, true, true, some "Bob's"⟩)) <| .next (.mark .colon) <|
    .next (.cell (Address.writeCoordinates ⟨1, 1, false, false, some "Bob's"⟩)) <| .next (.mark .comma) <|
    .next (.mark .comma) <| .next (.text "\"\"") <| .next (.mark .rightParen) <| .next (.mark .notEqual) <|
    .next (.mark .leftBrace) <| .next (.boolean true) <| .next (.mark .semicolon) <|
    .next (.error .notAvailable) <| .last (.mark .rightBrace)
  refine (congrArg (Joins _) ?_).mp h
  decide +kernel

theorem parseFormula_spaceless_medley :
    parseFormula "=-(2+1.5e3)^(-rate%)&IF('Bob''s'!$A$1:B2,,\"\"\"\"\"\")<>\x7bTRUE;#N/A\x7d" = .ok medley ∧
      ¬ Swallows ((Style.sparing fun _ => false).text false medley) := by
  have hkeeps : ¬ Swallows ((Style.sparing fun _ => false).text false medley) := by
    rintro ⟨v, hv⟩
    have hslash : Token.mark .slash ∈ (Style.sparing fun _ => false).text false medley := hv.subset (by simp)
    revert hslash
    decide +kernel
  obtain ⟨hread, hiff⟩ := parseFormula_spaceless_iff (e := medley) rfl (by decide) (Or.inr (Or.inl rfl))
    (by decide) (by decide) writes_medley joins_medley (Or.inr rfl)
  refine ⟨?_, hkeeps⟩
  rw [← hread, ← hiff.2 hkeeps]
  rfl

/-- An error value divided by two. -/
def errorHalf : Expr := .binary .divide (.error .notAvailable) (.number (Decimal.nearestFloat 2 0))

/-- The quotient of an error value and a number is read as a name unless there is a space before the division. -/
theorem parseFormula_swallowedDivision :
    parseFormula "=#N/A / 2" = .ok errorHalf ∧
      parseFormula "=#N/A/2" = .ok (.name "#N/A/2") ∧
      ¬ ∀ (e : Expr) (spaced spaceless : List Char), e.isMissing = false → e.every Expr.isSound →
        (Style.sparing fun _ => false).nesting false e ≤ maxNesting →
        (e.every fun part => (Style.sparing fun _ => false).percentRun part ≤ maxNesting) →
        Writes ((Style.sparing fun _ => false).text false e) spaced →
        Joins ((Style.sparing fun _ => false).text false e) spaceless →
        parseFormula (String.ofList ('=' :: spaceless)) = parseFormula (String.ofList ('=' :: spaced)) := by
  have hsuits : (Style.sparing fun _ => false).Suits errorHalf := ⟨rfl, by decide, by decide⟩
  have hwrites : Writes ((Style.sparing fun _ => false).text false errorHalf) "#N/A / 2".toList :=
    .space (.error .notAvailable) <| .space (.mark .slash) <| .last spells_two
  have hjoins : Joins ((Style.sparing fun _ => false).text false errorHalf) "#N/A/2".toList :=
    .next (.error .notAvailable) <| .next (.mark .slash) <| .last spells_two
  have hspaced : parseFormula "=#N/A / 2" = .ok errorHalf :=
    (parseFormula_text (.sparing _) hsuits (by decide) hwrites).2
  have hspaceless : parseFormula "=#N/A/2" = .ok (.name "#N/A/2") := by
    have hname : (match parseFormula "=#N/A/2" with | .ok (.name s) => s == "#N/A/2" | _ => false) = true := by
      decide +kernel
    split at hname
    · rename_i s hread
      rw [hread, beq_iff_eq.1 hname]
    · cases hname
  refine ⟨hspaced, hspaceless, fun h => ?_⟩
  have heq : parseFormula "=#N/A/2" = parseFormula "=#N/A / 2" :=
    h errorHalf _ _ rfl hsuits.sound (by decide) hsuits.runs hwrites hjoins
  rw [hspaced, hspaceless] at heq
  cases heq

end Spreadsheet.Formula
