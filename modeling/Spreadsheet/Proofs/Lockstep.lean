import Spreadsheet.Proofs.Renumbering

/-!
# Two calculations in step

Two calculations that have some sheets in common do the same on them, as long as reads of other sheets are answered in
the same way: every evaluation of a cell of theirs reads the same and stops in the same way, and all that is built from
evaluations follows. The calculations may differ in all other sheets, in the places of the common ones, and in the
number of attempts allowed, which is always enough.

* `Simulation` : a relation between the states of two calculations that their updates keep;
* `Agrees` : two evaluations that stop in the same way; `agrees_cell`, `agrees_announce`, `agrees_reading` : a question,
  a range that is announced, and by induction a whole computation;
* `same_turn`, `same_settle` : a turn of the work on a stack, and all turns; `same_resolveAll` : the cells of a sheet;
* `same_sheetResult`, `sameAnswers_foreignValue` : a sheet, and the readers of every level, by induction on the levels,
  for common sheets that name no others.
-/

namespace Spreadsheet

open Calculation

/-- A relation between the states of two calculations under which they note the same about the cells of common sheets,
and which every update for such a cell keeps. What formulas of these sheets name reaches equally far in both. -/
structure Simulation (w v : Setting) (ρ : Nat → Nat → Prop) (J : Progress → Progress → Prop) : Prop
    extends CommonSheets w v ρ where
  extent? : ∀ {i j sheet}, ρ i j → (w.sheet i).Names sheet → w.extent? i sheet = v.extent? j sheet
  cells : ∀ {s t}, J s t → SameCells ρ s t
  begin : ∀ {s t p q}, J s t → SamePlace ρ p q → J (s.begin p) (t.begin q)
  closeCycle : ∀ {s t p q} (formula : String), J s t → SamePlace ρ p q →
    J (s.closeCycle p formula (cycleFault w p)) (t.closeCycle q formula (cycleFault v q))
  finish : ∀ {s t p q} (formula : String) (outcome : Except FormulaError Value) (reads : List CellRead), J s t →
    SamePlace ρ p q → J (finish w p formula outcome reads s) (finish v q formula outcome reads t)

theorem Renumbering.simulation {w v : Setting} {ρ : Nat → Nat → Prop} (hρ : Renumbering w v ρ) :
    Simulation w v ρ (Alike ρ) where
  toCommonSheets := hρ.toCommonSheets
  extent? h hn := hρ.extent? h hn
  cells h := h.toSameCells
  begin h := h.begin hρ.toCommonSheets
  closeCycle _ h := h.closeCycle hρ.toCommonSheets
  finish _ outcome reads h hpq := h.finish hρ.toCommonSheets hpq outcome reads

/-- The same result, and related states afterwards. -/
structure Same {α : Type} (J : Progress → Progress → Prop) (x y : α × Progress) : Prop where
  result : x.1 = y.1
  related : J x.2 y.2

/-- Readers of other sheets that give the same answers about what formulas of common sheets name. -/
def SameAnswers (w : Setting) (ρ : Nat → Nat → Prop) (J : Progress → Progress → Prop)
    (foreign foreign' : ForeignReader) : Prop :=
  ∀ (p q : Position) (name : String) (row column : Nat) (s t : Progress), SamePlace ρ p q →
    name ∈ (w.sheet p.sheet).qualifiers → sameSheet name (w.sheet p.sheet).name = false → J s t →
    Same J ((foreign p name row column).run s) ((foreign' q name row column).run t) ∧
      Calm ((foreign p name row column).run s).1

/-- How two evaluations stop: at the same end, which is of a kind, or for the same cells. -/
inductive Agrees {α : Type} (ρ : Nat → Nat → Prop) (J : Progress → Progress → Prop) (Q : α → Prop) :
    Except (List Position) (α × List CellRead) × Progress →
    Except (List Position) (α × List CellRead) × Progress → Prop where
  | done {a : α} {reads : List CellRead} {s t : Progress} (hQ : Q a) (h : J s t) :
      Agrees ρ J Q (.ok (a, reads), s) (.ok (a, reads), t)
  | waits {missing missing' : List Position} {s t : Progress}
      (hm : List.Forall₂ (SamePlace ρ) missing missing') (h : J s t) :
      Agrees ρ J Q (.error missing, s) (.error missing', t)

variable {w v : Setting} {ρ : Nat → Nat → Prop} {J : Progress → Progress → Prop} {foreign foreign' : ForeignReader}
  {s t : Progress} {p q : Position} {i j : Nat}

/-! ## Evaluations -/

section Evaluations

variable {α β : Type} {reads : List CellRead}

theorem Agrees.bind {P : α → Prop} {Q : β → Prop} {x y : StateT (List CellRead) Attempt α}
    {f g : α → StateT (List CellRead) Attempt β} (hx : Agrees ρ J P (evaluation x reads s) (evaluation y reads t))
    (hf : ∀ a reads s t, P a → J s t → Agrees ρ J Q (evaluation (f a) reads s) (evaluation (g a) reads t)) :
    Agrees ρ J Q (evaluation (x >>= f) reads s) (evaluation (y >>= g) reads t) := by
  rw [evaluation_bind, evaluation_bind]
  generalize evaluation x reads s = first at hx
  generalize evaluation y reads t = second at hx
  cases hx with
  | done hP h => exact hf _ _ _ _ hP h
  | waits hm h => exact .waits hm h

variable (hJ : Simulation w v ρ J) (hpq : SamePlace ρ p q)
include hJ hpq

theorem agrees_own {a : Address} (ho : w.isOwn p.sheet a.sheet) (h : J s t) :
    Agrees ρ J Calm (evaluation ((source w foreign p).noting.cell a) reads s)
      (evaluation ((source v foreign' q).noting.cell a) reads t) := by
  have hplace := SamePlace.at hpq.sheet a.row a.column
  have ho' : v.isOwn q.sheet a.sheet := hJ.isOwn hpq.sheet a.sheet ▸ ho
  have hform := hJ.formula? hplace
  rw [evaluation_noting, evaluation_noting, source_own ho, source_own ho']
  cases hf : w.formula? ⟨p.sheet, a.row, a.column⟩ with
  | none =>
    rw [readOwn_literal hf, readOwn_literal (hform ▸ hf), hJ.literal hplace]
    exact .done nofun h
  | some formula =>
    rw [readOwn_formula hf, readOwn_formula (hform ▸ hf), ← (hJ.cells h).values hplace]
    cases s.values[(⟨p.sheet, a.row, a.column⟩ : Position)]? with
    | some value => exact .done nofun h
    | none =>
      by_cases hs : ⟨p.sheet, a.row, a.column⟩ ∈ s.started
      · simp only [if_pos hs, if_pos (((hJ.cells h).started hplace).1 hs)]
        have hvalue : w.cycleValue = v.cycleValue := hJ.fallback _
        rw [hvalue]
        exact .done nofun (hJ.closeCycle _ h hplace)
      · simp only [if_neg hs, if_neg (mt ((hJ.cells h).started hplace).2 hs)]
        exact .waits (.cons hplace .nil) h

theorem agrees_cell (hsame : SameAnswers w ρ J foreign foreign') {a : Address} (hn : (w.sheet p.sheet).Names a.sheet)
    (h : J s t) :
    Agrees ρ J Calm (evaluation ((source w foreign p).noting.cell a) reads s)
      (evaluation ((source v foreign' q).noting.cell a) reads t) := by
  by_cases ho : w.isOwn p.sheet a.sheet
  · exact agrees_own hJ hpq ho h
  · cases hsheet : a.sheet with
    | none =>
      rw [hsheet] at ho
      exact absurd rfl ho
    | some name =>
      have hs : sameSheet name (w.sheet p.sheet).name = false := by simpa [hsheet, Setting.isOwn] using ho
      have hs' : sameSheet name (v.sheet q.sheet).name = false := hJ.sheet hpq.sheet ▸ hs
      obtain ⟨hanswer, hcalm⟩ := hsame p q name a.row a.column s t hpq (hn name hsheet) hs h
      rw [evaluation_noting, evaluation_noting, source_foreign hsheet hs, source_foreign hsheet hs',
        ← hanswer.result]
      exact .done hcalm hanswer.related

theorem agrees_announce (r : CellRange) (h : J s t) :
    Agrees ρ J (fun _ => True) (evaluation ((source w foreign p).noting.announce r) reads s)
      (evaluation ((source v foreign' q).noting.announce r) reads t) := by
  have hm := (hJ.cells h).unstartedIn hJ.toCommonSheets hpq.sheet r
  have hempty : s.unstartedIn w p.sheet r = [] ↔ t.unstartedIn v q.sheet r = [] := by
    rw [← List.length_eq_zero_iff, ← List.length_eq_zero_iff, hm.length_eq]
  rw [evaluation_announce, evaluation_announce, ← hJ.isOwn hpq.sheet]
  by_cases hc : w.isOwn p.sheet r.sheet ∧ s.unstartedIn w p.sheet r ≠ []
  · rw [if_pos hc, if_pos ⟨hc.1, mt hempty.2 hc.2⟩]
    exact .waits hm h
  · rw [if_neg hc, if_neg fun hc' => hc ⟨hc'.1, mt hempty.1 hc'.2⟩]
    exact .done trivial h

variable (hsame : SameAnswers w ρ J foreign foreign')
include hsame

theorem agrees_inquiry {Q : α → Prop} {t : Inquiry α}
    (ht : t.Within (fun sheet _ _ => (w.sheet p.sheet).Names sheet) Q) :
    ∀ {reads : List CellRead} {s s' : Progress}, J s s' →
      Agrees ρ J Q (evaluation (t.run (source w foreign p).noting.cell) reads s)
        (evaluation (t.run (source v foreign' q).noting.cell) reads s') := by
  induction t with
  | done a => exact fun h => .done ht h
  | cell a next ih =>
    intro reads s s' h
    rw [Inquiry.run, Inquiry.run]
    exact (agrees_cell hJ hpq hsame ht.1 h).bind fun answer _ _ _ hcalm h => ih answer (ht.2 answer hcalm) h

theorem agrees_grid {r : CellRange} (hr : r.Covers fun sheet _ _ => (w.sheet p.sheet).Names sheet) (h : J s t) :
    Agrees ρ J Calm (evaluation ((source w foreign p).noting.grid r) reads s)
      (evaluation ((source v foreign' q).noting.grid r) reads t) := by
  have hextent : v.extent? q.sheet r.sheet = w.extent? p.sheet r.sheet :=
    (hJ.extent? hpq.sheet (hr _ _ r.contains_topLeft)).symm
  have hgrid : Inquiry.grid (v.extent? q.sheet) r = Inquiry.grid (w.extent? p.sheet) r := by
    rw [Inquiry.grid, Inquiry.grid, hextent]
  rw [Inquiry.run_grid, Inquiry.run_grid]
  refine (agrees_announce hJ hpq r h).bind fun _ _ _ _ _ h => ?_
  change Agrees ρ J Calm (evaluation ((Inquiry.grid (w.extent? p.sheet) r).run _) _ _)
    (evaluation ((Inquiry.grid (v.extent? q.sheet) r).run _) _ _)
  rw [hgrid]
  exact agrees_inquiry hJ hpq hsame (Inquiry.grid_within hr) h

/-- The questions of a computation are answered in the same way, one after the other. -/
theorem agrees_reading {Q : α → Prop} {t : Reading α}
    (ht : t.Within (fun sheet _ _ => (w.sheet p.sheet).Names sheet) Q) :
    ∀ (reads : List CellRead) {s s' : Progress}, J s s' →
      Agrees ρ J Q (evaluation (t.run (source w foreign p).noting) reads s)
        (evaluation (t.run (source v foreign' q).noting) reads s') := by
  induction t with
  | done a => exact fun _ _ _ h => .done ht h
  | cell a next ih =>
    intro reads s s' h
    exact (agrees_cell hJ hpq hsame ht.1 h).bind fun answer reads _ _ hcalm h =>
      ih answer (ht.2 answer hcalm) reads h
  | extent sheet next ih =>
    intro reads s s' h
    obtain ⟨⟨_, _, hn⟩, hnext⟩ := ht
    change Agrees ρ J Q (evaluation ((next (w.extent? p.sheet sheet)).run _) _ _)
      (evaluation ((next (v.extent? q.sheet sheet)).run _) _ _)
    rw [← hJ.extent? hpq.sheet hn]
    exact ih _ (hnext _) reads h
  | grid r next ih =>
    intro reads s s' h
    exact (agrees_grid hJ hpq hsame ht.1 h).bind fun answer reads _ _ hcalm h =>
      ih answer (ht.2 answer hcalm) reads h

end Evaluations

/-! ## Attempts -/

section Work

variable (hJ : Simulation w v ρ J) (hreg : w.environment.registry.Confined) (hsame : SameAnswers w ρ J foreign foreign')
include hJ hreg hsame

/-- An attempt is given up for the same cells, or done in both calculations. -/
theorem same_attempt {formula : String} (hpq : SamePlace ρ p q) (hf : w.formula? p = some formula)
    (h : J s t) :
    List.Forall₂ (SamePlace ρ) ((attempt w foreign p formula).run s).1 ((attempt v foreign' q formula).run t).1 ∧
      J ((attempt w foreign p formula).run s).2 ((attempt v foreign' q formula).run t).2 := by
  obtain ⟨c, hc, hcf⟩ := Option.bind_eq_some_iff.1 hf
  have hwithin : (evaluateFormula w.environment formula).Within fun sheet _ _ => (w.sheet p.sheet).Names sheet :=
    evaluateFormula_within hreg fun e he r hr _ _ _ => Sheet.names_of_mem hc hcf he hr
  unfold Readings.Within at hwithin
  generalize hreading : (evaluateFormula w.environment formula).run = reading at hwithin
  have hagrees := agrees_reading hJ hpq hsame hwithin [] (hJ.begin h hpq)
  rw [attempt_run, attempt_run, ← hJ.environment, hreading]
  generalize evaluation _ _ (s.begin p) = first at hagrees
  generalize evaluation _ _ (t.begin q) = second at hagrees
  cases hagrees with
  | done _ h => exact ⟨.nil, hJ.finish formula _ _ h hpq⟩
  | waits hm h => exact ⟨hm, h⟩

/-- Nothing is left to do in both calculations, or both take a turn. -/
theorem same_turn {stack stack' : List Position} (hstack : List.Forall₂ (SamePlace ρ) stack stack')
    (h : J s t) :
    s.nextPending? w stack = none ∧ t.nextPending? v stack' = none ∨
    ∃ x y, Turn w foreign (stack, s) x ∧ Turn v foreign' (stack', t) y ∧
      List.Forall₂ (SamePlace ρ) x.1 y.1 ∧ J x.2 y.2 := by
  rcases (hJ.cells h).nextPending? hJ.toCommonSheets hstack with
    hnone | ⟨p, q, formula, rest, rest', hnext, hnext', hpq, hrest⟩
  · exact Or.inl hnone
  · obtain ⟨hf, -, -⟩ := Progress.nextPending?_eq_some hnext
    obtain ⟨hm, h'⟩ := same_attempt hJ hreg hsame hpq hf h
    right
    rcases hrun : (attempt w foreign p formula).run s with ⟨missing, s'⟩
    rcases hrun' : (attempt v foreign' q formula).run t with ⟨missing', t'⟩
    rw [hrun, hrun'] at hm h'
    cases hm with
    | nil => exact ⟨_, _, .done hnext hrun, .done hnext' hrun', hrest, h'⟩
    | cons hfirst hothers =>
      have hturn := Turn.waits hnext hrun (List.cons_ne_nil _ _)
      have hturn' := Turn.waits hnext' hrun' (List.cons_ne_nil _ _)
      have hstack' := List.rel_append (List.rel_reverse (.cons hfirst hothers)) (.cons hpq hrest)
      exact ⟨_, _, hturn, hturn', hstack', h'⟩

theorem same_settle (n : Nat) : ∀ {stack stack' : List Position} {s t : Progress},
    List.Forall₂ (SamePlace ρ) stack stack' → J s t →
    J ((settle w foreign n stack).run s).2 ((settle v foreign' n stack').run t).2 := by
  induction n with
  | zero => exact fun _ h => h
  | succ n ih =>
    intro stack stack' s t hstack h
    rcases same_turn hJ hreg hsame hstack h with ⟨hnone, hnone'⟩ | ⟨x, y, hturn, hturn', hstack', h'⟩
    · rw [settle_of_nextPending? hnone, settle_of_nextPending? hnone']
      exact h
    · rw [settle_of_turn hturn, settle_of_turn hturn']
      exact ih hstack' h'

/-! ## Cells -/

variable (hthrifty : Thrifty w foreign) (hthrifty' : Thrifty v foreign') (hw : w.Ample) (hv : v.Ample)
include hthrifty hthrifty' hw hv

/-- A cell has the same value. The limits of attempts may differ, but neither is reached. -/
theorem same_resolve (hpq : SamePlace ρ p q) (h : J s t) :
    Same J ((resolve w foreign p).run s) ((resolve v foreign' q).run t) := by
  have hform := hJ.formula? hpq
  cases hf : w.formula? p with
  | none =>
    rw [resolve_literal hf, resolve_literal (hform ▸ hf)]
    exact ⟨hJ.literal hpq, h⟩
  | some formula =>
    rw [resolve_formula hf, resolve_formula (hform ▸ hf)]
    have hcond : p ∉ s.values ∧ p ∈ s.started ↔ q ∉ t.values ∧ q ∈ t.started :=
      and_congr (not_congr ((hJ.cells h).mem_values hpq)) ((hJ.cells h).started hpq)
    by_cases hc : p ∉ s.values ∧ p ∈ s.started
    · rw [if_pos hc, if_pos (hcond.1 hc)]
      exact ⟨hJ.fallback _, hJ.closeCycle formula h hpq⟩
    · rw [if_neg hc, if_neg (mt hcond.2 hc)]
      rw [← settle_eq_of_le hthrifty (Nat.le_max_left _ v.attemptLimit) ((s.demand_le w [p]).trans hw),
        ← settle_eq_of_le hthrifty' (Nat.le_max_right w.attemptLimit _) ((t.demand_le v [q]).trans hv)]
      have hsettled := same_settle hJ hreg hsame (max w.attemptLimit v.attemptLimit) (.cons hpq .nil) h
      exact ⟨by rw [(hJ.cells hsettled).values hpq], hsettled⟩

theorem same_resolveAll (hij : ρ i j) (places : List (Nat × Nat)) : ∀ {s t : Progress}, J s t →
    J ((resolveAll w foreign i places).run s).2 ((resolveAll v foreign' j places).run t).2 := by
  induction places with
  | nil => exact fun h => h
  | cons place places ih =>
    exact fun h => ih (same_resolve hJ hreg hsame hthrifty hthrifty' hw hv (.at hij place.1 place.2) h).related

end Work

/-! ## Sheets -/

section Sheets

variable (hρ : Renumbering w v ρ) (hreg : w.environment.registry.Confined)
  (hsame : SameAnswers w ρ (Alike ρ) foreign foreign') (hthrifty : Thrifty w foreign) (hthrifty' : Thrifty v foreign')
  (hw : w.Ample) (hv : v.Ample)
include hρ hreg hsame hthrifty hthrifty' hw hv

theorem same_sheetResult (hij : ρ i j) (h : Alike ρ s t) :
    Same (Alike ρ) ((sheetResult w foreign i).run s) ((sheetResult v foreign' j).run t) := by
  cases hr : s.finished[i]? with
  | some r =>
    rw [sheetResult_done hr, sheetResult_done (h.finished hij ▸ hr)]
    exact ⟨rfl, h⟩
  | none =>
    have hi : i ∉ s.finished := notMem_of_getElem?_none hr
    have hj : j ∉ t.finished := notMem_of_getElem?_none (h.finished hij ▸ hr)
    have hbegun : Alike ρ { s with active := i :: s.active } { t with active := j :: t.active } :=
      { h with
        active := fun h' => by
          rw [List.mem_cons, List.mem_cons, eq_comm, hρ.sheet_eq_iff hij h', h.active h', eq_comm] }
    have hdone := same_resolveAll hρ.simulation hreg hsame hthrifty hthrifty' hw hv hij (w.sheet i).formulaPlaces hbegun
    rw [hρ.sheet hij] at hdone
    have hactive := (proceeds_resolveAll hthrifty i (v.sheet j).formulaPlaces
      { s with active := i :: s.active }).active
    have hactive' := (proceeds_resolveAll hthrifty' j (v.sheet j).formulaPlaces
      { t with active := j :: t.active }).active
    generalize hs' : ((resolveAll w foreign i (v.sheet j).formulaPlaces).run { s with active := i :: s.active }).2 = s'
      at hdone hactive
    generalize ht' : ((resolveAll v foreign' j (v.sheet j).formulaPlaces).run { t with active := j :: t.active }).2 = t'
      at hdone hactive'
    rw [← hρ.sheet hij] at hs'
    have hopened : s'.otherSheets - s.otherSheets = t'.otherSheets - t.otherSheets := by
      simp only [Progress.otherSheets, hdone.opened, h.opened]
    rw [sheetResult_new hi hs', sheetResult_new hj ht', hopened, hdone.resultOf hρ.toCommonSheets hij, hactive,
      hactive', List.erase_cons_head, List.erase_cons_head]
    exact ⟨rfl, {
      hdone with
      active := h.active
      finished := fun h' => by
        simp only [Std.TreeMap.getElem?_insert, Std.compare_eq_iff_eq, hdone.finished h']
        exact if_congr (hρ.sheet_eq_iff hij h') rfl rfl }⟩

theorem same_sheetValue (hij : ρ i j) (reader reader' : Position) (row column : Nat) (h : Alike ρ s t) :
    Same (Alike ρ) ((sheetValue w foreign reader i row column).run s)
      ((sheetValue v foreign' reader' j row column).run t) := by
  by_cases ha : i ∈ s.active
  · rw [sheetValue_active ha, sheetValue_active ((h.active hij).1 ha)]
    exact same_resolve hρ.simulation hreg hsame hthrifty hthrifty' hw hv (.at hij row column) h
  · have ha' : j ∉ t.active := mt (h.active hij).2 ha
    cases hr : s.finished[i]? with
    | some r =>
      rw [sheetValue_finished ha hr, sheetValue_finished ha' (h.finished hij ▸ hr)]
      exact ⟨rfl, h⟩
    | none =>
      have hi : i ∉ s.finished := notMem_of_getElem?_none hr
      have hj : j ∉ t.finished := notMem_of_getElem?_none (h.finished hij ▸ hr)
      have hopened : Alike ρ { s with opened := (reader, i) :: s.opened }
          { t with opened := (reader', j) :: t.opened } :=
        { h with opened := congrArg Nat.succ h.opened }
      have hresult := same_sheetResult hρ hreg hsame hthrifty hthrifty' hw hv hij hopened
      rw [sheetValue_new ha hi, sheetValue_new ha' hj]
      exact ⟨by rw [hresult.result], hresult.related⟩

end Sheets

/-! ## Levels -/

variable (hρ : Renumbering w v ρ) (hreg : w.environment.registry.Confined) (hw : w.Ample) (hv : v.Ample)
include hρ hreg hw hv

/-- The readers of every level give the same answers. -/
theorem sameAnswers_foreignValue (levels : Nat) :
    SameAnswers w ρ (Alike ρ) (foreignValue w levels) (foreignValue v levels) := by
  induction levels with
  | zero =>
    intro p q name row column s t hpq hn _ h
    rcases hρ.foreignSheet hpq.sheet hn with ⟨fault, hi, hj, hcalm⟩ | ⟨i, j, hi, hj, -⟩
    · rw [foreignValue_refused hi, foreignValue_refused hj]
      exact ⟨⟨rfl, h⟩, fun cell hc => hcalm cell (Except.error.inj hc)⟩
    · rw [foreignValue_zero hi, foreignValue_zero hj]
      exact ⟨⟨rfl, h⟩, fun cell => nofun⟩
  | succ levels ih =>
    intro p q name row column s t hpq hn _ h
    rcases hρ.foreignSheet hpq.sheet hn with ⟨fault, hi, hj, hcalm⟩ | ⟨i, j, hi, hj, hij⟩
    · rw [foreignValue_refused hi, foreignValue_refused hj]
      exact ⟨⟨rfl, h⟩, fun cell hc => hcalm cell (Except.error.inj hc)⟩
    · rw [foreignValue_succ hi, foreignValue_succ hj]
      have hvalue := same_sheetValue hρ hreg ih (thrifty_foreignValue w levels) (thrifty_foreignValue v levels) hw hv
        hij p q row column h
      exact ⟨⟨congrArg Except.ok hvalue.result, hvalue.related⟩, fun cell => nofun⟩

/-- The result for a common sheet is the same. -/
theorem same_outermost (hij : ρ i j) (h : Alike ρ s t) :
    Same (Alike ρ) ((outermost w i).run s) ((outermost v j).run t) :=
  same_sheetResult hρ hreg (sameAnswers_foreignValue hρ hreg hw hv maxSheetNesting)
    (thrifty_foreignValue w maxSheetNesting) (thrifty_foreignValue v maxSheetNesting) hw hv hij h

end Spreadsheet
