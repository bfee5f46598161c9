import Spreadsheet.Proofs.Reached

/-!
# All sheets at once

If no sheet leads back to itself through the names in formulas, the result for a sheet is the same whether it is asked
for alone or with all others, at the outermost level or because a formula reads it, and whatever was calculated before.
Only the count of sheets that were calculated on the way differs.

* `Setting.LeadsTo` : the graph of sheets; `Setting.Shallow` : so many levels are enough for what is beneath a sheet;
* `SameOn`, `Touches` : the same has been noted about a sheet; only some sheets have been worked on;
* `Faithful` : sheets that are done have the results that they have alone; `Advance` : work that leaves it so;
* `Joint.simulation` : a sheet that is calculated first and one that is calculated after others are in step;
* `faithful_sheetResult`, `faithful_foreignValue` : a sheet, and the readers of all levels, by induction on the levels;
* `calculateWorkbook_separately` : all results of a workbook.
-/

namespace Spreadsheet

open Calculation
open Relation (ReflTransGen TransGen)

/-- A result without the count of other sheets that were calculated on the way. -/
def CalculatedSheet.uncounted (r : CalculatedSheet) : CalculatedSheet :=
  { r with statistics := { r.statistics with otherSheets := 0 } }

theorem valueIn_uncounted (r : CalculatedSheet) (row column : Nat) :
    valueIn r.uncounted row column = valueIn r row column := rfl

/-! ## The graph of sheets -/

namespace Setting

variable {w : Setting} {i j n : Nat}

/-- A formula of one sheet names another one. -/
def LeadsTo (w : Setting) (i j : Nat) : Prop :=
  ∃ name ∈ (w.sheet i).qualifiers, sameSheet name (w.sheet i).name = false ∧ w.sheetIndex? name = some j

/-- Paths from a sheet are no longer than so many levels. -/
def Shallow (w : Setting) : (levels : Nat) → Nat → Prop
  | 0, i => ∀ j, ¬w.LeadsTo i j
  | levels + 1, i => ∀ j, w.LeadsTo i j → w.Shallow levels j

theorem Shallow.not_transGen (h : w.Shallow n i) : ¬TransGen w.LeadsTo i i := by
  induction n generalizing i with
  | zero =>
    intro hi
    obtain ⟨j, hij, -⟩ := TransGen.head'_iff.1 hi
    exact h j hij
  | succ n ih =>
    intro hi
    obtain ⟨j, hij, hji⟩ := TransGen.head'_iff.1 hi
    exact ih (h j hij) (TransGen.tail' hji hij)

/-- A sheet that is not shallow has a path that is too long. -/
theorem exists_isChain (h : ¬w.Shallow n i) :
    ∃ path : List Nat, (i :: path).IsChain w.LeadsTo ∧ path.length = n + 1 := by
  induction n generalizing i with
  | zero =>
    obtain ⟨j, hij⟩ := not_forall_not.1 h
    exact ⟨[j], .cons_cons hij (.singleton j), rfl⟩
  | succ n ih =>
    obtain ⟨j, hj⟩ := not_forall.1 h
    obtain ⟨hij, hj⟩ := not_forall.1 hj
    obtain ⟨path, hpath, hlen⟩ := ih hj
    exact ⟨j :: path, .cons_cons hij hpath, congrArg Nat.succ hlen⟩

theorem LeadsTo.lt_size (h : w.LeadsTo i j) : i < w.sheets.size ∧ j < w.sheets.size := by
  obtain ⟨name, hname, -, hj⟩ := h
  refine ⟨?_, (Array.findIdx?_eq_some_iff_getElem.1 hj).1⟩
  by_contra hi
  have hsheet : w.sheet i = { name := "" } := by rw [sheet, Array.getElem?_eq_none (Nat.le_of_not_lt hi)]; rfl
  rw [hsheet] at hname
  exact List.not_mem_nil hname

/-- Without cycles, a path visits every sheet at most once. -/
theorem shallow_of_acyclic (h : ∀ i, ¬TransGen w.LeadsTo i i) (hsize : w.sheets.size ≤ n + 1) (i : Nat) :
    w.Shallow n i := by
  by_contra hdeep
  obtain ⟨path, hpath, hlen⟩ := exists_isChain hdeep
  have hpairs : (i :: path).Pairwise (TransGen w.LeadsTo) := (hpath.imp fun _ _ => TransGen.single).pairwise
  have hnodup : (i :: path).Nodup := hpairs.imp fun {a b} hab => by
    rintro rfl
    exact h a hab
  have hlt : ∀ j ∈ i :: path, j ∈ List.range w.sheets.size := by
    obtain ⟨j, rest, rfl⟩ := List.exists_cons_of_length_eq_add_one hlen
    obtain ⟨hfirst, hothers⟩ := List.pairwise_cons.1 hpairs
    refine List.forall_mem_cons.2 ⟨?_, fun k hk => ?_⟩
    · obtain ⟨_, hstep, -⟩ := TransGen.head'_iff.1 (hfirst j (List.mem_cons_self ..))
      exact List.mem_range.2 hstep.lt_size.1
    · obtain ⟨_, -, hstep⟩ := TransGen.tail'_iff.1 (hfirst k hk)
      exact List.mem_range.2 hstep.lt_size.2
  have hle := (hnodup.subperm hlt).length_le
  rw [List.length_range, List.length_cons] at hle
  omega

end Setting

/-! ## What has been noted about a sheet -/

/-- States in which the same has been noted about the cells of one sheet. -/
structure SameOn (k : Nat) (s t : Progress) : Prop where
  values : ∀ p : Position, p.sheet = k → s.values[p]? = t.values[p]?
  started : ∀ p : Position, p.sheet = k → (p ∈ s.started ↔ p ∈ t.started)
  circular : ∀ p : Position, p.sheet = k → (p ∈ s.circular ↔ p ∈ t.circular)
  records : entriesOf k s.records = entriesOf k t.records
  errors : entriesOf k s.errors = entriesOf k t.errors
  evaluated : s.evaluatedOn k = t.evaluatedOn k

namespace SameOn

variable {w : Setting} {k : Nat} {s t u : Progress} {p : Position} {formula : String}

theorem refl (k : Nat) (s : Progress) : SameOn k s s :=
  ⟨fun _ _ => rfl, fun _ _ => Iff.rfl, fun _ _ => Iff.rfl, rfl, rfl, rfl⟩

theorem symm (h : SameOn k s t) : SameOn k t s :=
  ⟨fun p hp => (h.values p hp).symm, fun p hp => (h.started p hp).symm, fun p hp => (h.circular p hp).symm,
    h.records.symm, h.errors.symm, h.evaluated.symm⟩

theorem trans (h : SameOn k s t) (h' : SameOn k t u) : SameOn k s u :=
  ⟨fun p hp => (h.values p hp).trans (h'.values p hp), fun p hp => (h.started p hp).trans (h'.started p hp),
    fun p hp => (h.circular p hp).trans (h'.circular p hp), h.records.trans h'.records, h.errors.trans h'.errors,
    h.evaluated.trans h'.evaluated⟩

/-- What is noted about whole sheets does not matter. -/
theorem withSheets (h : SameOn k s t) (active active' : List Nat)
    (finished finished' : Std.TreeMap Nat CalculatedSheet) (opened opened' : List (Position × Nat)) :
    SameOn k { s with active, finished, opened }
      { t with active := active', finished := finished', opened := opened' } :=
  { h with }

theorem begin (s : Progress) (h : p.sheet ≠ k) : SameOn k s (s.begin p) :=
  { refl k s with
    started := fun q hq => by
      rw [Progress.mem_started_begin]
      exact ⟨Or.inr, fun h' => h'.resolve_left fun e => h (e ▸ hq)⟩ }

theorem closeCycle (s : Progress) (fault : FormulaError) (h : p.sheet ≠ k) :
    SameOn k s (s.closeCycle p formula fault) where
  values _ _ := by rw [Progress.values_closeCycle]
  started _ _ := by rw [Progress.started_closeCycle]
  circular q hq := by
    rw [Progress.mem_circular_closeCycle]
    exact ⟨Or.inr, fun h' => h'.resolve_left fun e => h (e ▸ hq)⟩
  records := by rw [Progress.records_closeCycle]
  errors := (Progress.entriesOf_errors_closeCycle h).symm
  evaluated := (Progress.evaluatedOn_closeCycle k).symm

theorem finish (w : Setting) (s : Progress) (outcome : Except FormulaError Value) (reads : List CellRead)
    (h : p.sheet ≠ k) : SameOn k s (finish w p formula outcome reads s) where
  values q hq := by
    rw [Progress.getElem?_values_finish, if_neg fun e : p = q => h (e ▸ hq)]
  started q hq := by
    rw [Progress.mem_started_finish]
    exact ⟨fun h' => ⟨fun e => h (e ▸ hq), h'⟩, And.right⟩
  circular _ _ := by rw [Progress.circular_finish]
  records := by rw [Progress.records_finish, entriesOf_cons_of_ne h]
  errors := (Progress.entriesOf_errors_finish h).symm
  evaluated := by rw [Progress.evaluatedOn_finish, if_neg h]

end SameOn

/-- One sheet in two states of a calculation. -/
def OnSheet (k i j : Nat) : Prop := i = k ∧ j = k

theorem samePlace_onSheet {k : Nat} {p q : Position} : SamePlace (OnSheet k) p q ↔ p = q ∧ p.sheet = k := by
  constructor
  · rintro ⟨⟨hp, hq⟩, hrow, hcolumn⟩
    obtain ⟨_, _, _⟩ := p
    obtain ⟨_, _, _⟩ := q
    cases hp
    cases hq
    cases hrow
    cases hcolumn
    exact ⟨rfl, rfl⟩
  · rintro ⟨rfl, rfl⟩
    exact ⟨⟨rfl, rfl⟩, rfl, rfl⟩

theorem commonSheets_onSheet (w : Setting) (k : Nat) : CommonSheets w w (OnSheet k) where
  environment := rfl
  sheet h := by rw [h.1, h.2]
  left h h' := h.1.trans h'.1.symm
  right h h' := h.2.trans h'.2.symm

theorem sameCells_onSheet {k : Nat} {s t : Progress} : SameCells (OnSheet k) s t ↔ SameOn k s t := by
  constructor
  · intro h
    have hplace : ∀ p : Position, p.sheet = k → SamePlace (OnSheet k) p p := fun p hp =>
      samePlace_onSheet.2 ⟨rfl, hp⟩
    exact ⟨fun p hp => h.values (hplace p hp), fun p hp => h.started (hplace p hp),
      fun p hp => h.circular (hplace p hp), h.records ⟨rfl, rfl⟩, h.errors ⟨rfl, rfl⟩, h.evaluated ⟨rfl, rfl⟩⟩
  · intro h
    constructor
    case values =>
      intro p q hpq
      obtain ⟨rfl, hp⟩ := samePlace_onSheet.1 hpq
      exact h.values p hp
    case started =>
      intro p q hpq
      obtain ⟨rfl, hp⟩ := samePlace_onSheet.1 hpq
      exact h.started p hp
    case circular =>
      intro p q hpq
      obtain ⟨rfl, hp⟩ := samePlace_onSheet.1 hpq
      exact h.circular p hp
    case records =>
      rintro i j ⟨rfl, rfl⟩
      exact h.records
    case errors =>
      rintro i j ⟨rfl, rfl⟩
      exact h.errors
    case evaluated =>
      rintro i j ⟨rfl, rfl⟩
      exact h.evaluated

/-! ## What has been worked on -/

/-- Only some sheets have been worked on, and none of them is still being calculated. -/
structure Touches (on : Nat → Prop) (s s' : Progress) : Prop where
  cells : ∀ k, ¬on k → SameOn k s s'
  finished : ∀ k : Nat, ¬on k → s'.finished[k]? = s.finished[k]?
  active : s'.active = s.active

namespace Touches

variable {w : Setting} {on on' : Nat → Prop} {s t u : Progress} {p : Position} {formula : String}

theorem refl (on : Nat → Prop) (s : Progress) : Touches on s s :=
  ⟨fun k _ => .refl k s, fun _ _ => rfl, rfl⟩

theorem trans (h : Touches on s t) (h' : Touches on t u) : Touches on s u :=
  ⟨fun k hk => (h.cells k hk).trans (h'.cells k hk), fun k hk => (h'.finished k hk).trans (h.finished k hk),
    h'.active.trans h.active⟩

theorem mono (h : Touches on s t) (hon : ∀ k, on k → on' k) : Touches on' s t :=
  ⟨fun k hk => h.cells k (mt (hon k) hk), fun k hk => h.finished k (mt (hon k) hk), h.active⟩

theorem ne_sheet {k : Nat} (hp : on p.sheet) (hk : ¬on k) : p.sheet ≠ k := fun e => hk (e ▸ hp)

theorem begin (s : Progress) (hp : on p.sheet) : Touches on s (s.begin p) :=
  ⟨fun _ hk => .begin s (ne_sheet hp hk), fun _ _ => rfl, rfl⟩

theorem closeCycle (s : Progress) (fault : FormulaError) (hp : on p.sheet) :
    Touches on s (s.closeCycle p formula fault) :=
  ⟨fun _ hk => .closeCycle s fault (ne_sheet hp hk), fun _ _ => by rw [Progress.finished_closeCycle],
    Progress.active_closeCycle⟩

theorem finish (w : Setting) (s : Progress) (outcome : Except FormulaError Value) (reads : List CellRead)
    (hp : on p.sheet) : Touches on s (finish w p formula outcome reads s) :=
  ⟨fun _ hk => .finish w s outcome reads (ne_sheet hp hk), fun _ _ => by rw [Progress.finished_finish],
    Progress.active_finish⟩

end Touches

/-! ## Results of sheets alone -/

namespace Setting

variable {w : Setting} {k : Nat}

/-- The result that a sheet has on its own. -/
def resultAlone (w : Setting) (k : Nat) : CalculatedSheet := ((outermost w k).run {}).1

/-- What is read from another sheet, if that is read in the result that it has on its own. -/
def answerAlone (w : Setting) (name : String) (row column : Nat) : Except FormulaError Value :=
  (foreignSheet w name).map fun j => valueIn (w.resultAlone j) row column

/-- A sheet and all that it leads to. -/
def Beneath (w : Setting) : Nat → Nat → Prop := ReflTransGen w.LeadsTo

theorem calm_answerAlone (name : String) (row column : Nat) : Calm (w.answerAlone name row column) := by
  intro cell h
  unfold answerAlone foreignSheet at h
  split at h
  · cases h
  · cases hi : w.sheetIndex? name with
    | none =>
      rw [hi] at h
      cases h
    | some j =>
      rw [hi] at h
      cases h

end Setting

/-- Nothing has been noted about sheets that were not visited, and those that are done have the results that they have
alone. -/
structure Faithful (w : Setting) (s : Progress) : Prop where
  fresh : ∀ k, ¬s.Visited k → SameOn k s {}
  results : ∀ (k : Nat) (r : CalculatedSheet), s.finished[k]? = some r → r.uncounted = (w.resultAlone k).uncounted

/-- Work on some sheets that is faithful. -/
structure Advance (w : Setting) (on : Nat → Prop) (s s' : Progress) : Prop extends Touches on s s' where
  faithful : Faithful w s'

/-- None of the sheets that a sheet leads to is being calculated. -/
def Progress.Clear (w : Setting) (k : Nat) (s : Progress) : Prop := ∀ j, TransGen w.LeadsTo k j → j ∉ s.active

/-- A reader that answers the formulas of a sheet with what other sheets have alone, and does faithful work on them. -/
def FaithfulReader (w : Setting) (k : Nat) (foreign : ForeignReader) : Prop :=
  ∀ (p : Position) (name : String) (row column : Nat) (s : Progress), p.sheet = k → name ∈ (w.sheet k).qualifiers →
    sameSheet name (w.sheet k).name = false → Faithful w s → s.Clear w k →
    ((foreign p name row column).run s).1 = w.answerAlone name row column ∧
      Advance w (TransGen w.LeadsTo k) s ((foreign p name row column).run s).2

section Sheets

variable {w : Setting} {s s' t s₀ t₀ : Progress} {k : Nat} {on : Nat → Prop} {foreign foreign' : ForeignReader}

theorem Faithful.initial (w : Setting) : Faithful w {} where
  fresh k _ := .refl k {}
  results k r h := by simp at h

theorem Faithful.activate (h : Faithful w s) (k : Nat) : Faithful w { s with active := k :: s.active } where
  fresh j hj := (h.fresh j fun hj' => hj (hj'.imp_left (List.mem_cons_of_mem k))).withSheets ..
  results := h.results

/-- Work on sheets that are visited is faithful if it finishes none. -/
theorem Touches.advance (h : Touches on s t) (hs : Faithful w s) (hv : ∀ k, on k → s.Visited k)
    (hf : t.finished = s.finished) : Advance w on s t where
  toTouches := h
  faithful := {
    fresh := fun k hk => by
      have hk' : ¬s.Visited k := by rwa [Progress.Visited, h.active, hf] at hk
      exact (h.cells k (mt (hv k) hk')).symm.trans (hs.fresh k hk')
    results := fun k r hr => hs.results k r (hf ▸ hr) }

theorem Advance.trans (h : Advance w on s₀ s) (h' : Advance w on s t) : Advance w on s₀ t :=
  ⟨h.toTouches.trans h'.toTouches, h'.faithful⟩

theorem Advance.mono {on' : Nat → Prop} (h : Advance w on s t) (hon : ∀ j, on j → on' j) : Advance w on' s t :=
  ⟨h.toTouches.mono hon, h.faithful⟩

theorem Progress.Clear.of_active (h : s.Clear w k) (ha : t.active = s.active) : t.Clear w k :=
  fun j hj => ha ▸ h j hj

/-! ## One sheet -/

/-- A sheet in the middle of its calculation, in two calculations that have done faithful work beneath it. -/
structure Joint (w : Setting) (k : Nat) (s₀ t₀ s t : Progress) : Prop where
  cells : SameOn k s t
  left : Advance w (w.Beneath k) s₀ s
  right : Advance w (w.Beneath k) t₀ t

/-- An update for a cell of a sheet that is being calculated. -/
theorem Touches.advance_active (h : Touches (· = k) s t) (hs : Faithful w s) (hk : k ∈ s.active)
    (hf : t.finished = s.finished) : Advance w (w.Beneath k) s t :=
  (h.advance hs (fun _ e => Or.inl (e ▸ hk)) hf).mono fun _ e => e ▸ .refl

theorem Joint.update {t' : Progress} (h : Joint w k s₀ t₀ s t) (hk : k ∈ s₀.active) (hk' : k ∈ t₀.active)
    (hcells : SameOn k s' t') (hs : Touches (· = k) s s') (hsf : s'.finished = s.finished)
    (ht : Touches (· = k) t t') (htf : t'.finished = t.finished) : Joint w k s₀ t₀ s' t' where
  cells := hcells
  left := h.left.trans (hs.advance_active h.left.faithful (h.left.active ▸ hk) hsf)
  right := h.right.trans (ht.advance_active h.right.faithful (h.right.active ▸ hk') htf)

/-- The two calculations can be compared. -/
theorem Joint.simulation (hk : k ∈ s₀.active) (hk' : k ∈ t₀.active) :
    Simulation w w (OnSheet k) (Joint w k s₀ t₀) where
  toCommonSheets := commonSheets_onSheet w k
  extent? h _ := by rw [h.1, h.2]
  cells h := sameCells_onSheet.2 h.cells
  begin h hpq :=
    have hcells := (sameCells_onSheet.2 h.cells).begin (commonSheets_onSheet w k) hpq
    h.update hk hk' (sameCells_onSheet.1 hcells) (.begin _ hpq.sheet.1) rfl (.begin _ hpq.sheet.2) rfl
  closeCycle _ h hpq := by
    refine h.update hk hk' (sameCells_onSheet.1 ?_) (.closeCycle _ _ hpq.sheet.1) Progress.finished_closeCycle
      (.closeCycle _ _ hpq.sheet.2) Progress.finished_closeCycle
    exact (sameCells_onSheet.2 h.cells).closeCycle (commonSheets_onSheet w k) hpq
  finish _ outcome reads h hpq := by
    refine h.update hk hk' (sameCells_onSheet.1 ?_) (.finish w _ outcome reads hpq.sheet.1) Progress.finished_finish
      (.finish w _ outcome reads hpq.sheet.2) Progress.finished_finish
    exact (sameCells_onSheet.2 h.cells).finish (commonSheets_onSheet w k) hpq outcome reads

/-- What is read from other sheets is the same, and leaves the sheet itself as it is. -/
theorem Joint.sameAnswers (hloop : ¬TransGen w.LeadsTo k k) (hclear : s₀.Clear w k) (hclear' : t₀.Clear w k)
    (hforeign : FaithfulReader w k foreign) (hforeign' : FaithfulReader w k foreign') :
    SameAnswers w (OnSheet k) (Joint w k s₀ t₀) foreign foreign' := by
  intro p q name row column s t hpq hname hown h
  obtain ⟨hp, hq⟩ := hpq.sheet
  rw [hp] at hname hown
  obtain ⟨hanswer, hs⟩ := hforeign p name row column s hp hname hown h.left.faithful (hclear.of_active h.left.active)
  obtain ⟨hanswer', ht⟩ :=
    hforeign' q name row column t hq hname hown h.right.faithful (hclear'.of_active h.right.active)
  refine ⟨⟨hanswer.trans hanswer'.symm, ?_⟩, hanswer ▸ Setting.calm_answerAlone name row column⟩
  exact {
    cells := ((hs.cells k hloop).symm.trans h.cells).trans (ht.cells k hloop)
    left := h.left.trans (hs.mono fun _ => TransGen.to_reflTransGen)
    right := h.right.trans (ht.mono fun _ => TransGen.to_reflTransGen) }

/-- The calculation of a sheet that was not visited begins as if there was nothing before. -/
theorem Joint.initial (hs : Faithful w s) (ht : Faithful w t) (hk : ¬s.Visited k) (hk' : ¬t.Visited k) :
    Joint w k { s with active := k :: s.active } { t with active := k :: t.active }
      { s with active := k :: s.active } { t with active := k :: t.active } where
  cells := by
    have hcells : SameOn k s t := (hs.fresh k hk).trans (ht.fresh k hk').symm
    exact hcells.withSheets ..
  left := ⟨.refl .., hs.activate k⟩
  right := ⟨.refl .., ht.activate k⟩

/-- Then the sheet has the result that it has on its own. -/
theorem Advance.finish {r : CalculatedSheet} (h : Advance w (w.Beneath k) { s with active := k :: s.active } s')
    (hr : r.uncounted = (w.resultAlone k).uncounted) :
    Advance w (w.Beneath k) s { s' with active := s'.active.erase k, finished := s'.finished.insert k r } := by
  have hactive : s'.active.erase k = s.active := by rw [h.active, List.erase_cons_head]
  have hfinished : ∀ j : Nat, (s'.finished.insert k r)[j]? = if k = j then some r else s'.finished[j]? := fun j => by
    simp only [Std.TreeMap.getElem?_insert, Std.compare_eq_iff_eq]
  constructor
  case toTouches =>
    refine ⟨fun j hj => ?_, fun j hj => ?_, hactive⟩
    · exact (h.cells j hj).withSheets ..
    · have hne : k ≠ j := fun e => hj (e ▸ .refl)
      exact (hfinished j).trans ((if_neg hne).trans (h.finished j hj))
  case faithful =>
    refine ⟨fun j hj => (h.faithful.fresh j fun hj' => hj ?_).withSheets .., fun j r' hr' => ?_⟩
    · rcases hj' with hj' | hj'
      · rw [h.active] at hj'
        rcases List.mem_cons.1 hj' with rfl | hj'
        · exact Or.inr (mem_of_getElem?_some ((hfinished j).trans (if_pos rfl)))
        · exact Or.inl (hactive ▸ hj')
      · exact Or.inr (Std.TreeMap.mem_insert.2 (Or.inr hj'))
    · have hr'' : (if k = j then some r else s'.finished[j]?) = some r' := (hfinished j).symm.trans hr'
      split at hr''
      · rename_i e
        cases hr''
        exact e ▸ hr
      · exact h.faithful.results j r' hr''

section Results

variable (hreg : w.environment.registry.Confined) (hample : w.Ample) (hloop : ¬TransGen w.LeadsTo k k)
  (hforeign : FaithfulReader w k foreign) (hthrifty : Thrifty w foreign) (hs : Faithful w s) (hclear : s.Clear w k)
include hreg hample hloop hforeign hthrifty hs hclear

/-- A sheet has the result that it has on its own. -/
theorem faithful_sheetResult (houtermost : FaithfulReader w k (foreignValue w maxSheetNesting)) (ha : k ∉ s.active) :
    ((sheetResult w foreign k).run s).1.uncounted = (w.resultAlone k).uncounted ∧
      Advance w (w.Beneath k) s ((sheetResult w foreign k).run s).2 := by
  cases hr : s.finished[k]? with
  | some r =>
    rw [sheetResult_done hr]
    exact ⟨hs.results k r hr, .refl _ s, hs⟩
  | none =>
    have hk : k ∉ s.finished := notMem_of_getElem?_none hr
    have hclear₁ : ({ s with active := k :: s.active } : Progress).Clear w k := fun j hj hmem =>
      (List.mem_cons.1 hmem).elim (fun e => hloop (e ▸ hj)) (hclear j hj)
    have hclear₂ : ({ active := [k] } : Progress).Clear w k := fun j hj hmem =>
      hloop (List.mem_singleton.1 hmem ▸ hj)
    have hjoint := same_resolveAll (Joint.simulation (List.mem_cons_self ..) (List.mem_cons_self ..)) hreg
      (Joint.sameAnswers hloop hclear₁ hclear₂ hforeign houtermost) hthrifty (thrifty_foreignValue w _) hample hample
      ⟨rfl, rfl⟩ (w.sheet k).formulaPlaces
      (Joint.initial hs (.initial w) (not_or.2 ⟨ha, hk⟩) (by simp [Progress.Visited]))
    have halone : ((sheetResult w (foreignValue w maxSheetNesting) k).run {}).1 = w.resultAlone k := rfl
    generalize hs' : ((resolveAll w foreign k (w.sheet k).formulaPlaces).run
      { s with active := k :: s.active }).2 = s' at hjoint
    generalize ht' : ((resolveAll w (foreignValue w maxSheetNesting) k (w.sheet k).formulaPlaces).run
      { active := [k] }).2 = t' at hjoint
    rw [sheetResult_new (by simp) ht'] at halone
    rw [sheetResult_new hk hs']
    have hresult : (resultOf w k (s'.otherSheets - s.otherSheets) s').uncounted = (w.resultAlone k).uncounted := by
      rw [← halone, (sameCells_onSheet.2 hjoint.cells).resultOf (commonSheets_onSheet w k) ⟨rfl, rfl⟩]
      rfl
    exact ⟨hresult, hjoint.left.finish hresult⟩

/-- A cell of a sheet that is not being calculated has the value that it has in the result for the sheet on its own. -/
theorem faithful_sheetValue (houtermost : FaithfulReader w k (foreignValue w maxSheetNesting)) (ha : k ∉ s.active)
    (reader : Position) (row column : Nat) :
    ((sheetValue w foreign reader k row column).run s).1 = valueIn (w.resultAlone k) row column ∧
      Advance w (w.Beneath k) s ((sheetValue w foreign reader k row column).run s).2 := by
  have hvalue : ∀ {r : CalculatedSheet}, r.uncounted = (w.resultAlone k).uncounted →
      valueIn r row column = valueIn (w.resultAlone k) row column := fun h => by
    rw [← valueIn_uncounted, h, valueIn_uncounted]
  cases hr : s.finished[k]? with
  | some r =>
    rw [sheetValue_finished ha hr]
    exact ⟨hvalue (hs.results k r hr), .refl _ s, hs⟩
  | none =>
    have hopened : Advance w (w.Beneath k) s { s with opened := (reader, k) :: s.opened } :=
      ⟨⟨fun j _ => (SameOn.refl j s).withSheets .., fun _ _ => rfl, rfl⟩, fun j hj => (hs.fresh j hj).withSheets ..,
        hs.results⟩
    obtain ⟨hresult, hadvance⟩ := faithful_sheetResult hreg hample hloop hforeign hthrifty hopened.faithful
      (hclear.of_active rfl) houtermost ha
    rw [sheetValue_new ha (notMem_of_getElem?_none hr)]
    exact ⟨hvalue hresult, hopened.trans hadvance⟩

end Results

/-! ## All sheets -/

section Levels

variable (hreg : w.environment.registry.Confined) (hample : w.Ample)
include hreg hample

/-- With enough levels left, the reader answers as it would for the sheets alone. -/
theorem faithful_foreignValue (n : Nat) : ∀ {k levels : Nat}, w.Shallow n k → n ≤ levels → n ≤ maxSheetNesting →
    FaithfulReader w k (foreignValue w levels) := by
  induction n with
  | zero =>
    intro k levels hk _ _ p name row column s _ hname hown hs _
    cases hi : foreignSheet w name with
    | error fault =>
      rw [foreignValue_refused hi, Setting.answerAlone, hi]
      exact ⟨rfl, .refl _ s, hs⟩
    | ok j => exact absurd ⟨name, hname, hown, (Setting.foreignSheet_eq_ok hi).2⟩ (hk j)
  | succ n ih =>
    intro k levels hk hn hmax p name row column s hp hname hown hs hclear
    cases hi : foreignSheet w name with
    | error fault =>
      rw [foreignValue_refused hi, Setting.answerAlone, hi]
      exact ⟨rfl, .refl _ s, hs⟩
    | ok j =>
      have hleads : w.LeadsTo k j := ⟨name, hname, hown, (Setting.foreignSheet_eq_ok hi).2⟩
      have hj : w.Shallow n j := hk j hleads
      obtain ⟨levels, rfl⟩ := Nat.exists_eq_add_one_of_ne_zero (Nat.ne_zero_of_lt hn)
      obtain ⟨hvalue, hadvance⟩ := faithful_sheetValue hreg hample hj.not_transGen
        (ih hj (Nat.le_of_succ_le_succ hn) (Nat.le_of_succ_le hmax)) (thrifty_foreignValue w levels) hs
        (fun i hi => hclear i (.head hleads hi))
        (ih hj (Nat.le_of_succ_le hmax) (Nat.le_of_succ_le hmax)) (hclear j (.single hleads)) p row column
      rw [foreignValue_succ hi, Setting.answerAlone, hi]
      exact ⟨congrArg Except.ok hvalue, hadvance.mono fun i hi => TransGen.head' hleads hi⟩

/-- Sheets that are asked for one after the other have the results that they have alone. -/
theorem outermost_separately (hshallow : ∀ k, w.Shallow maxSheetNesting k) (targets : List Nat) :
    ∀ {s : Progress}, Faithful w s → s.active = [] →
      (((targets.mapM (outermost w)).run s).1).map CalculatedSheet.uncounted
        = targets.map fun k => (w.resultAlone k).uncounted := by
  induction targets with
  | nil => exact fun _ _ => rfl
  | cons k targets ih =>
    intro s hs ha
    have hreader := faithful_foreignValue hreg hample maxSheetNesting (hshallow k) (Nat.le_refl _) (Nat.le_refl _)
    obtain ⟨hresult, hadvance⟩ := faithful_sheetResult hreg hample (hshallow k).not_transGen hreader
      (thrifty_foreignValue w _) hs (fun j _ => ha ▸ List.not_mem_nil) hreader (ha ▸ List.not_mem_nil)
    have hrest := ih hadvance.faithful (hadvance.active.trans ha)
    rw [List.mapM_cons, List.map_cons, ← hresult, ← hrest]
    rfl

end Levels

end Sheets

/-! ## Workbooks -/

/-- A formula of one sheet names another one. -/
def NamesOther (sheets : List Sheet) (s t : Sheet) : Prop :=
  s ∈ sheets ∧ t ∈ sheets ∧ sameSheet s.name t.name = false ∧ ∃ name ∈ s.qualifiers, sameSheet name t.name = true

section Workbooks

variable {env : Environment} {sheets : List Sheet}

/-- A sheet stays in its place when it is calculated with its workbook. -/
theorem placeSheet_of_mem (hnames : sheets.Pairwise fun a b => sameSheet a.name b.name = false) {i : Nat}
    (hi : i < sheets.length) : placeSheet sheets[i] sheets = (sheets, i) := by
  have hfirst : sheets.findIdx? (fun t => sameSheet t.name sheets[i].name) = some i := by
    refine List.findIdx?_eq_some_iff_getElem.2 ⟨hi, sameSheet_self _, fun j hj => ?_⟩
    rw [List.pairwise_iff_getElem.1 hnames j i _ hi hj]
    exact Bool.false_ne_true
  rw [placeSheet, hfirst]
  exact Prod.ext (List.set_getElem_self hi) rfl

/-- Edges between places are edges between sheets. -/
theorem namesOther_of_leadsTo {i j : Nat} (h : (env.setting sheets).LeadsTo i j) :
    ∃ (hi : i < sheets.length) (hj : j < sheets.length), NamesOther sheets sheets[i] sheets[j] := by
  have hsize : (env.setting sheets).sheets.size = sheets.length := (Call.workbook sheets).size_sheets env
  obtain ⟨hi, hj⟩ := hsize ▸ h.lt_size
  obtain ⟨name, hname, hown, hindex⟩ := h
  have hsheet := (Call.workbook sheets).sheet_setting env (List.getElem?_eq_getElem hi)
  have hother := (Call.workbook sheets).sheet_setting env (List.getElem?_eq_getElem hj)
  have hsame := Setting.sameSheet_of_sheetIndex? hindex
  rw [Call.setting, Call.sheets] at hsheet hother
  rw [hsheet, Sheet.qualifiers_withDates] at hname
  rw [hsheet] at hown
  rw [hother] at hsame
  refine ⟨hi, hj, List.getElem_mem hi, List.getElem_mem hj, ?_, name, hname, (sameSheet_comm _ _).trans hsame⟩
  rw [sameSheet_comm]
  exact (sameSheet_congr hsame _).trans hown

theorem not_transGen_leadsTo (hacyclic : ∀ s, ¬TransGen (NamesOther sheets) s s) (i : Nat) :
    ¬TransGen (env.setting sheets).LeadsTo i i := by
  intro h
  have hlift : TransGen (NamesOther sheets) (sheets[i]?.getD { name := "" }) (sheets[i]?.getD { name := "" }) := by
    refine h.lift (fun j : Nat => sheets[j]?.getD { name := "" }) fun j k hjk => ?_
    obtain ⟨hj, hk, hnames⟩ := namesOther_of_leadsTo hjk
    simpa only [Function.onFun, List.getElem?_eq_getElem, hj, hk, Option.getD_some] using hnames
  exact hacyclic _ hlift

end Workbooks

/-- In a workbook of sheets with names of their own that do not lead back to themselves, every sheet has the result that
it has when it is calculated by itself. -/
theorem calculateWorkbook_separately (env : Environment) (hreg : env.registry.Confined) (sheets : List Sheet)
    (hcount : sheets.length ≤ maxSheetNesting + 1)
    (hnames : sheets.Pairwise fun a b => sameSheet a.name b.name = false)
    (hacyclic : ∀ s, ¬TransGen (NamesOther sheets) s s) :
    (calculateWorkbook env sheets).map CalculatedSheet.uncounted
      = sheets.map fun s => (calculateSheet env s sheets).uncounted := by
  have hample : (env.setting sheets).Ample := (Call.workbook sheets).ample env
  have hsize : (env.setting sheets).sheets.size ≤ maxSheetNesting + 1 :=
    ((Call.workbook sheets).size_sheets env).trans_le hcount
  have hshallow := Setting.shallow_of_acyclic (not_transGen_leadsTo hacyclic) hsize
  have halone : ∀ (i : Nat) (hi : i < sheets.length),
      calculateSheet env sheets[i] sheets = (env.setting sheets).resultAlone i := fun i hi => by
    rw [calculateSheet, placeSheet_of_mem hnames hi]
    rfl
  refine (outermost_separately hreg hample hshallow _ (.initial _) rfl).trans (List.ext_getElem (by simp) ?_)
  intro i hi _
  have hi' : i < sheets.length := by simpa using hi
  rw [List.getElem_map, List.getElem_map, List.getElem_range, halone i hi']

/-- Two formulas of one sheet that read each other, and a sheet that reads both. -/
def journalSheet : Sheet :=
  ⟨"Journal", #[#[{ content := .text "=A2" }], #[{ content := .text "=A1" }]]⟩

def balanceSheet : Sheet :=
  ⟨"Balance", #[#[{ content := .text "=journal!A1+Journal!A2" }]]⟩

theorem calculateWorkbook_separately_journalSheet :
    Registry.builtin.Confined ∧ [balanceSheet, journalSheet].length ≤ maxSheetNesting + 1 ∧
    [balanceSheet, journalSheet].Pairwise (fun a b => sameSheet a.name b.name = false) ∧
    (∀ s, ¬TransGen (NamesOther [balanceSheet, journalSheet]) s s) ∧
    (calculateWorkbook .plain [balanceSheet, journalSheet]).map CalculatedSheet.uncounted
      = [balanceSheet, journalSheet].map fun s =>
        (calculateSheet .plain s [balanceSheet, journalSheet]).uncounted := by
  have hcount : [balanceSheet, journalSheet].length ≤ maxSheetNesting + 1 := by decide
  have hnames : [balanceSheet, journalSheet].Pairwise fun a b => sameSheet a.name b.name = false := by
    decide +kernel
  have hjournal : journalSheet.qualifiers = [] := by decide +kernel
  have hstep : ∀ s t, NamesOther [balanceSheet, journalSheet] s t → s = balanceSheet ∧ t = journalSheet := by
    rintro s t ⟨hs, ht, hne, name, hname, -⟩
    simp only [List.mem_cons, List.not_mem_nil, or_false] at hs ht
    rcases hs with rfl | rfl
    · refine ⟨rfl, ht.resolve_left ?_⟩
      rintro rfl
      exact Bool.noConfusion ((sameSheet_self _).symm.trans hne)
    · rw [hjournal] at hname
      exact absurd hname List.not_mem_nil
  have hacyclic : ∀ s, ¬TransGen (NamesOther [balanceSheet, journalSheet]) s s := by
    intro s h
    obtain ⟨t, hst, -⟩ := TransGen.head'_iff.1 h
    obtain ⟨u, -, hus⟩ := TransGen.tail'_iff.1 h
    have hsame : balanceSheet = journalSheet := (hstep s t hst).1.symm.trans (hstep u s hus).2
    exact absurd (congrArg Sheet.name hsame) (by decide)
  exact ⟨Registry.confined_builtin, hcount, hnames, hacyclic,
    calculateWorkbook_separately .plain Registry.confined_builtin _ hcount hnames hacyclic⟩

end Spreadsheet
