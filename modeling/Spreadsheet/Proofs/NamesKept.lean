import Spreadsheet.Proofs.ArrayLiterals
import Spreadsheet.Proofs.Grammar

/-!
# Names that are read stay in the expression

A parser passes a token only by the rule for it, and what the rule for names passes becomes a name or the function of a
call. So whatever is special about a name among the tokens of a formula is found in the expression that it writes.

* `Token.isNamed`, `namedAhead` : names of a kind, and tokens with one before they end;
* `Expr.Names` : an expression with a name of the kind in it;
* `Keeps`, `KeepsAt` : a parser loses no such name, in general and with a token known to come next;
* `signedOperand_keeps`, `names_of_wholeFormula` : the grammar loses none.
-/

namespace Spreadsheet.Formula

variable {p : String → Bool}

def Token.isNamed (p : String → Bool) : Token → Bool
  | .name s => p s
  | _ => false

/-- Whether a name of the kind comes before the tokens end. -/
def namedAhead (p : String → Bool) : List Token → Prop
  | [] => False
  | t :: ts => t ≠ .finish ∧ (t.isNamed p ∨ namedAhead p ts)

def Expr.isNamed (p : String → Bool) : Expr → Bool
  | .name s => p s
  | .call f _ => p f
  | _ => false

/-- An expression holds a name of the kind. -/
def Expr.Names (p : String → Bool) (e : Expr) : Prop := ∃ c, e.Contains c ∧ c.isNamed p

theorem Expr.Names.of_child {e c : Expr} (hc : c ∈ e.children) (h : c.Names p) : e.Names p := by
  obtain ⟨d, hd, hnamed⟩ := h
  exact ⟨d, .head hc hd, hnamed⟩

theorem Expr.Names.of_isNamed {e : Expr} (h : e.isNamed p) : e.Names p := ⟨e, .refl, h⟩

theorem Expr.not_names_cell (a : Address) : ¬ (Expr.cell a).Names p := by
  rintro ⟨c, hc, hnamed⟩
  rcases hc.cases_head with rfl | ⟨d, hd, -⟩
  · cases hnamed
  · cases hd

/-- One of some expressions holds a name of the kind. -/
def SomeNames (p : String → Bool) (es : List Expr) : Prop := ∃ e ∈ es, e.Names p

/-! ## Parsers that lose no name -/

/-- If a name of the kind has been found before or comes next, then it is in what is read or still to come. -/
def Keeps {α : Type} (p : String → Bool) (found : Prop) (r : TokenParser α) (Q : α → Prop) : Prop :=
  ∀ s a s', r.run s = .ok (a, s') → found ∨ namedAhead p s.tokens → Q a ∨ namedAhead p s'.tokens

/-- The same where the next token is known. -/
def KeepsAt {α : Type} (p : String → Bool) (t : Token) (found : Prop) (r : TokenParser α) (Q : α → Prop) : Prop :=
  ∀ s a s', s.tokens.headD .finish = t → r.run s = .ok (a, s') → found ∨ namedAhead p s.tokens →
    Q a ∨ namedAhead p s'.tokens

theorem namedAhead_tail {ts : List Token} (h : namedAhead p ts) :
    (ts.headD .finish).isNamed p ∨ namedAhead p ts.tail := by
  cases ts with
  | nil => cases h
  | cons t ts => exact h.2

theorem run_advance_eq {s s' : TokenStream} {t : Token} (h : advance.run s = .ok (t, s')) :
    t = s.tokens.headD .finish ∧ s'.tokens = s.tokens.tail := by
  obtain ⟨tokens, fault⟩ := s
  rcases tokens with _ | ⟨u, _ | ⟨v, tokens⟩⟩ <;> cases fault <;> cases h <;> exact ⟨rfl, rfl⟩

/-- What follows a token is read from the tokens after it. -/
theorem exists_run_of_advance {β : Type} {f : Token → TokenParser β} {s s' : TokenStream} {b : β}
    (h : (advance >>= f).run s = .ok (b, s')) :
    ∃ rest, rest.tokens = s.tokens.tail ∧ (f (s.tokens.headD .finish)).run rest = .ok (b, s') := by
  rw [StateT.run_bind] at h
  cases hfirst : advance.run s with
  | error _ =>
    rw [hfirst] at h
    cases h
  | ok first =>
    rw [hfirst] at h
    obtain ⟨htoken, htail⟩ := run_advance_eq hfirst
    exact ⟨first.2, htail, htoken ▸ h⟩

section Rules

variable {α β : Type} {r : TokenParser α} {f : α → TokenParser β} {found : Prop} {P : α → Prop} {Q : β → Prop}

theorem Keeps.pure {a : α} (h : found → P a) : Keeps p found (Pure.pure a) P := by
  intro s b s' hrun hfound
  cases hrun
  exact hfound.imp_left h

theorem Keeps.failParse (fault : ParseFault) : Keeps p found (Formula.failParse fault) P := by
  intro s b s' hrun
  cases hrun

theorem Keeps.failReference (problem : ReferenceProblem) : Keeps p found (Formula.failReference problem) P := by
  intro s b s' hrun
  cases hrun

theorem Keeps.bind (h : Keeps p found r P) (hf : ∀ a, Keeps p (P a) (f a) Q) : Keeps p found (r >>= f) Q := by
  intro s b s' hrun hfound
  rw [StateT.run_bind] at hrun
  cases hfirst : r.run s with
  | error _ =>
    rw [hfirst] at hrun
    cases hrun
  | ok first =>
    rw [hfirst] at hrun
    exact hf first.1 first.2 b s' hrun (h s first.1 first.2 hfirst hfound)

/-- What has been found before stays found. -/
theorem Keeps.frame (h : Keeps p False r P) : Keeps p found r fun a => found ∨ P a := by
  intro s a s' hrun hfound
  rcases hfound with hfound | hahead
  · exact .inl (.inl hfound)
  · exact (h s a s' hrun (.inr hahead)).imp_left .inr

theorem Keeps.imp {found' : Prop} (h : Keeps p found r P) (hfound : found' → found) : Keeps p found' r P :=
  fun s a s' hrun hbefore => h s a s' hrun (hbefore.imp_left hfound)

theorem Keeps.at (h : Keeps p found r P) (t : Token) : KeepsAt p t found r P := fun s a s' _ => h s a s'

theorem Keeps.get {f : TokenStream → TokenParser β} (hf : ∀ s, Keeps p found (f s) Q) :
    Keeps p found (MonadState.get >>= f) Q := fun s b s' hrun => hf s s b s' hrun

theorem Keeps.current {f : Token → TokenParser β} (hf : ∀ t, KeepsAt p t found (f t) Q) :
    Keeps p found (Formula.current >>= f) Q := by
  intro s b s' hrun
  have hcurrent : Formula.current.run s = .ok (s.tokens.headD .finish, s) := by
    obtain ⟨_ | ⟨t, ts⟩, fault⟩ := s <;> rfl
  rw [StateT.run_bind, hcurrent] at hrun
  exact hf _ s b s' rfl hrun

/-- A token that is passed has been found. -/
theorem Keeps.advance {f : Token → TokenParser β} (hf : ∀ t, Keeps p (found ∨ t.isNamed p) (f t) Q) :
    Keeps p found (Formula.advance >>= f) Q := by
  intro s b s' hrun hfound
  obtain ⟨rest, htail, hrest⟩ := exists_run_of_advance hrun
  refine hf _ rest b s' hrest ?_
  rw [htail]
  exact or_assoc.2 (hfound.imp_right namedAhead_tail)

theorem KeepsAt.pass {t : Token} {f : Unit → TokenParser β} (hf : Keeps p (found ∨ t.isNamed p) (f ()) Q) :
    KeepsAt p t found (discard Formula.advance >>= f) Q := by
  intro s b s' hhead hrun hfound
  have hbind : (discard Formula.advance >>= f) = Formula.advance >>= fun _ => f () :=
    bind_map_left (fun _ => ()) Formula.advance f
  rw [hbind] at hrun
  obtain ⟨rest, htail, hrest⟩ := exists_run_of_advance hrun
  refine hf rest b s' hrest ?_
  rw [htail, ← hhead]
  exact or_assoc.2 (hfound.imp_right namedAhead_tail)

/-- No mark is a name. -/
theorem KeepsAt.mark {m : Mark} {f : Unit → TokenParser β} (hf : Keeps p found (f ()) Q) :
    KeepsAt p (.mark m) found (discard Formula.advance >>= f) Q :=
  .pass (hf.imp fun h => h.elim id nofun)

theorem Keeps.expect (m : Mark) {f : Unit → TokenParser β} (hf : Keeps p found (f ()) Q) :
    Keeps p found (Formula.expect m >>= f) Q := by
  have hexpect : Keeps p found (Formula.expect m) fun _ => found := by
    refine .current fun t => ?_
    split
    · rename_i ht
      rw [ht, ← bind_pure (discard Formula.advance)]
      exact .mark (.pure id)
    · exact Keeps.at (.failParse _) t
  exact hexpect.bind fun _ => hf

end Rules

/-! ## The grammar -/

variable {operand item : TokenParser Expr} {ops : OperatorLevel}

/-- The operators of a level are marks. -/
def OperatorLevel.OfMarks (ops : OperatorLevel) : Prop := ∀ t op, ops t = some op → ∃ m, t = .mark m

theorem chainRest_keeps (hops : ops.OfMarks) (h : Keeps p False operand (Expr.Names p)) (rounds : Nat) :
    ∀ {left : Expr}, Keeps p (left.Names p) (chainRest ops operand left rounds) (Expr.Names p) := by
  induction rounds with
  | zero => exact .pure id
  | succ rounds ih =>
    intro left
    refine .current fun t => ?_
    split
    · exact Keeps.at (.pure id) t
    · rename_i op hop
      obtain ⟨m, rfl⟩ := hops t op hop
      refine .mark (h.frame.bind fun right => ih.imp fun hfound => ?_)
      exact hfound.elim (.of_child (by simp [Expr.children])) (.of_child (by simp [Expr.children]))

theorem chain_keeps (hops : ops.OfMarks) (h : Keeps p False operand (Expr.Names p)) :
    Keeps p False (chain ops operand) (Expr.Names p) := by
  refine h.bind fun left => .current fun t => Keeps.at ?_ t
  split
  · exact .get fun s => chainRest_keeps hops h _
  · exact .pure id

theorem expressionOf_keeps (h : Keeps p False operand (Expr.Names p)) :
    Keeps p False (expressionOf operand) (Expr.Names p) := by
  have hcomparison : comparisonOps.OfMarks := fun t op h => by
    unfold comparisonOps at h
    split at h <;> first | exact ⟨_, rfl⟩ | cases h
  have hconcat : concatOps.OfMarks := fun t op h => by
    unfold concatOps at h
    split at h <;> first | exact ⟨_, rfl⟩ | cases h
  have hadditive : additiveOps.OfMarks := fun t op h => by
    unfold additiveOps at h
    split at h <;> first | exact ⟨_, rfl⟩ | cases h
  have hmultiplicative : multiplicativeOps.OfMarks := fun t op h => by
    unfold multiplicativeOps at h
    split at h <;> first | exact ⟨_, rfl⟩ | cases h
  exact chain_keeps hcomparison <| chain_keeps hconcat <| chain_keeps hadditive <| chain_keeps hmultiplicative h

theorem arrayRest_keeps (h : Keeps p False item (Expr.Names p)) (rounds : Nat) :
    ∀ {rows : List (List Expr)} {row : List Expr}, Keeps p (SomeNames p (rows.flatten ++ row))
      (arrayRest item rows row rounds) fun rows => SomeNames p rows.flatten := by
  induction rounds with
  | zero => exact .failParse _
  | succ rounds ih =>
    intro rows row
    refine .current fun t => ?_
    split
    · refine .mark (h.frame.bind fun e => ih.imp ?_)
      rintro (⟨c, hc, hnames⟩ | hnames)
      · refine ⟨c, ?_, hnames⟩
        rw [List.mem_append] at hc ⊢
        exact hc.imp_right (List.mem_cons_of_mem e)
      · exact ⟨e, by simp, hnames⟩
    · refine .mark (h.frame.bind fun e => ih.imp ?_)
      rintro (⟨c, hc, hnames⟩ | hnames)
      · refine ⟨c, ?_, hnames⟩
        simp only [List.flatten_cons, List.mem_append, List.mem_reverse, List.mem_singleton] at hc ⊢
        exact .inl hc.symm
      · exact ⟨e, by simp, hnames⟩
    · refine Keeps.at (.pure ?_) _
      rintro ⟨c, hc, hnames⟩
      exact ⟨c, by simpa [or_comm] using hc, hnames⟩
    · exact Keeps.at (.failParse _) t

theorem arrayLiteral_keeps (h : Keeps p False item (Expr.Names p)) :
    Keeps p False (arrayLiteral item) (Expr.Names p) := by
  have hend : ∀ rows : List (List Expr), Keeps p (SomeNames p rows.flatten) (do
        if !isRectangular rows then failParse .arrayRagged
        expect .rightBrace
        return Expr.array rows) (Expr.Names p) := by
    intro rows
    dsimp only
    split
    · exact (Keeps.failParse (P := fun _ => False) _).bind fun _ => .expect _ (.pure nofun)
    · refine .expect _ (.pure ?_)
      rintro ⟨c, hc, hnames⟩
      exact .of_child hc hnames
  refine .expect _ (.current fun t => Keeps.at ?_ t)
  dsimp only
  split
  · exact (hend []).imp nofun
  · refine h.bind fun e => .get fun s => ((arrayRest_keeps h _).imp fun hnames => ?_).bind hend
    exact ⟨e, by simp, hnames⟩

theorem argument_keeps (h : Keeps p False item (Expr.Names p)) : Keeps p False (argument item) (Expr.Names p) := by
  refine .current fun t => Keeps.at ?_ t
  split
  · exact .pure nofun
  · exact .pure nofun
  · exact h

theorem argumentsRest_keeps (h : Keeps p False item (Expr.Names p)) (rounds : Nat) :
    ∀ {read : List Expr}, Keeps p (SomeNames p read) (argumentsRest item read rounds) (SomeNames p) := by
  have hreverse : ∀ read : List Expr, SomeNames p read → SomeNames p read.reverse := by
    rintro read ⟨c, hc, hnames⟩
    exact ⟨c, List.mem_reverse.2 hc, hnames⟩
  induction rounds with
  | zero => exact .pure (hreverse _)
  | succ rounds ih =>
    intro read
    refine .current fun t => ?_
    split
    · rename_i ht
      rw [ht]
      refine .mark ((argument_keeps h).frame.bind fun e => ih.imp ?_)
      rintro (⟨c, hc, hnames⟩ | hnames)
      · exact ⟨c, List.mem_cons_of_mem e hc, hnames⟩
      · exact ⟨e, List.mem_cons_self, hnames⟩
    · exact Keeps.at (.pure (hreverse read)) t

theorem callArguments_keeps (h : Keeps p False item (Expr.Names p)) :
    Keeps p False (callArguments item) (SomeNames p) := by
  have hend : ∀ es : List Expr, Keeps p (SomeNames p es) (do
        expect .rightParen
        return es) (SomeNames p) := fun es => .expect _ (.pure id)
  refine .expect _ (.current fun t => Keeps.at ?_ t)
  dsimp only
  split
  · exact (Keeps.pure nofun).bind hend
  · refine (argument_keeps h).bind fun e => .get fun s => ((argumentsRest_keeps h _).imp fun hnames => ?_).bind hend
    exact ⟨e, List.mem_singleton.2 rfl, hnames⟩

/-- The addresses of cells hold no names. -/
theorem readCell_keeps (sheet : Option String) (word : String) {found : Prop} :
    Keeps p found (readCell sheet word) fun _ => found := by
  unfold readCell
  split
  · exact .pure id
  · exact .failReference _

theorem cellOnSheet_keeps (sheet : String) {found : Prop} : Keeps p found (cellOnSheet sheet) fun _ => found := by
  refine .advance fun t => ?_
  split
  · exact (readCell_keeps _ _).imp fun h => h.elim id nofun
  · exact .failReference _

theorem rangeEnd_keeps {found : Prop} : Keeps p found rangeEnd fun _ => found := by
  refine .advance fun t => ?_
  split
  · exact (readCell_keeps _ _).imp fun h => h.elim id nofun
  · exact (cellOnSheet_keeps _).imp fun h => h.elim id nofun
  · exact .failReference _

/-- A name that is passed becomes one of the expression, if only in upper case. -/
theorem primary_keeps (hp : ∀ s, p s → p (Text.upper s)) (h : Keeps p False item (Expr.Names p)) :
    Keeps p False (primary item) (Expr.Names p) := by
  refine .current fun t => ?_
  split
  · exact .pass (.pure fun h => h.elim nofun nofun)
  · exact .pass (.pure fun h => h.elim nofun nofun)
  · exact .pass (.pure fun h => h.elim nofun nofun)
  · exact .pass (.pure fun h => h.elim nofun nofun)
  · exact .mark (h.bind fun e => .expect _ (.pure id))
  · exact Keeps.at (arrayLiteral_keeps h) _
  · exact .pass ((cellOnSheet_keeps _).bind fun a => .pure fun h => h.elim nofun nofun)
  · exact .pass ((readCell_keeps _ _).bind fun a => .pure fun h => h.elim nofun nofun)
  · rename_i name
    refine .pass (.current fun t => Keeps.at ?_ t)
    split
    · refine ((callArguments_keeps h).frame.bind fun es => .pure ?_)
      rintro ((h | hname) | ⟨c, hc, hnames⟩)
      · cases h
      · exact .of_isNamed (hp name hname)
      · exact .of_child hc hnames
    · exact .pure fun hname => .of_isNamed (hname.resolve_left id)
  · exact Keeps.at (.failParse _) _

theorem rangeOperand_keeps (hp : ∀ s, p s → p (Text.upper s)) (h : Keeps p False item (Expr.Names p)) :
    Keeps p False (rangeOperand item) (Expr.Names p) := by
  refine (primary_keeps hp h).bind fun left => .current fun t => ?_
  split
  · rename_i ht
    rw [ht]
    refine .mark ?_
    split
    · rename_i start
      exact rangeEnd_keeps.bind fun _ => .pure fun hnames => absurd hnames (Expr.not_names_cell start)
    · exact .failReference _
  · exact Keeps.at (.pure id) t

theorem percents_keeps (left : Nat) : ∀ {e : Expr}, Keeps p (e.Names p) (percents e left) (Expr.Names p) := by
  induction left with
  | zero =>
    intro e
    refine .current fun t => Keeps.at ?_ t
    split
    · exact .failParse _
    · exact .pure id
  | succ left ih =>
    intro e
    refine .current fun t => ?_
    split
    · rename_i ht
      rw [ht]
      exact .mark (ih.imp (.of_child (by simp [Expr.children])))
    · exact Keeps.at (.pure id) t

theorem signedOperand_keeps (hp : ∀ s, p s → p (Text.upper s)) (levels : Nat) :
    Keeps p False (signedOperand levels) (Expr.Names p) := by
  induction levels with
  | zero => exact .failParse _
  | succ levels ih =>
    have hbase : Keeps p False (percentOperand (expressionOf (signedOperand levels))) (Expr.Names p) :=
      (rangeOperand_keeps hp (expressionOf_keeps ih)).bind fun e => percents_keeps maxNesting
    refine .current fun t => ?_
    split
    · exact .mark (ih.bind fun e => .pure (.of_child (by simp [Expr.children])))
    · exact .mark ih
    · refine Keeps.at (hbase.bind fun base => .current fun t => ?_) _
      split
      · rename_i ht
        rw [ht]
        refine .mark (ih.frame.bind fun right => .pure fun hfound => ?_)
        exact hfound.elim (.of_child (by simp [Expr.children])) (.of_child (by simp [Expr.children]))
      · exact Keeps.at (.pure id) t

/-- A name of the kind among the tokens of a formula is found in the expression that the formula writes. -/
theorem names_of_wholeFormula (hp : ∀ s, p s → p (Text.upper s)) {s s' : TokenStream} {e : Expr}
    (h : wholeFormula.run s = .ok (e, s')) (hs : namedAhead p s.tokens) : e.Names p := by
  have hreadable : Keeps p False checkReadable fun _ => False := by
    intro s a s' hrun hfound
    obtain ⟨_ | ⟨t, ts⟩, _ | fault⟩ := s <;> cases hrun <;> exact hfound
  have hread : Keeps p False (checkReadable >>= fun _ => expression) (Expr.Names p) :=
    hreadable.bind fun _ => expressionOf_keeps (signedOperand_keeps hp maxNesting)
  -- what follows the expression has to be the end
  obtain ⟨k, hk, hfinish, htrailing⟩ : ∃ k : Expr → Token → TokenParser Expr,
      wholeFormula = (checkReadable >>= fun _ => expression >>= fun e => current >>= k e) ∧
        (∀ e, k e .finish = pure e) ∧ ∀ e t, t ≠ .finish → k e t = failParse (.trailing t) := by
    refine ⟨_, rfl, fun _ => rfl, fun e t ht => ?_⟩
    cases t with
    | finish => exact absurd rfl ht
    | _ => rfl
  rw [hk, ← bind_assoc, StateT.run_bind] at h
  cases hfirst : (checkReadable >>= fun _ => expression : TokenParser Expr).run s with
  | error _ =>
    rw [hfirst] at h
    cases h
  | ok first =>
    obtain ⟨e', ts, fault⟩ := first
    rw [hfirst] at h
    change (current >>= k e').run ⟨ts, fault⟩ = .ok (e, s') at h
    rw [run_current_bind] at h
    by_cases hend : ts.headD .finish = .finish
    · rw [hend, hfinish] at h
      cases h
      refine (hread s e ⟨ts, fault⟩ hfirst (.inr hs)).resolve_right fun hahead => ?_
      cases ts with
      | nil => exact hahead
      | cons t ts => exact hahead.1 hend
    · rw [htrailing _ _ hend] at h
      cases h

end Spreadsheet.Formula
