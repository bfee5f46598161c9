import Mathlib.Data.List.Forall2
import Spreadsheet.Proofs.Attempts
import Spreadsheet.Proofs.Reach

/-!
# Sheets in other places

Two calculations have some sheets in common, in different places, and these sheets name no others. States of theirs
that are alike as far as these sheets go stay so if both note the same about the same cell.

* `Sheet.qualifiers` : the sheets that formulas name;
* `CommonSheets` : sheets that two settings have in common; `Renumbering` : they lead to each other only;
* `SameCells` : states that have noted the same about the cells of common sheets; `Alike` : and about the sheets;
* `SameCells.begin`, `SameCells.closeCycle`, `SameCells.finish` : this stays so in every update;
* `SameCells.nextPending?`, `SameCells.unstartedIn`, `SameCells.resultOf` : what is left to do is the same, and so are
  results.
-/

namespace Spreadsheet

open Calculation

/-! ## Sheets that formulas name -/

/-- The sheets that are named in formulas, a range being on the sheet of its start. -/
def Sheet.qualifiers (s : Sheet) : List String :=
  s.formulaPlaces.flatMap fun place =>
    match ((s.cell? place.1 place.2).bind Cell.formula?).map Formula.parseFormula with
    | some (.ok e) => e.references.filterMap CellRange.sheet
    | _ => []

/-- A reference stays on its sheet, or goes to one that the formulas of the sheet name. -/
def Sheet.Names (s : Sheet) (sheet : Option String) : Prop := ∀ name, sheet = some name → name ∈ s.qualifiers

theorem Sheet.names_of_mem {s : Sheet} {row column : Nat} {c : Cell} {formula : String} {e : Formula.Expr}
    {r : CellRange} (hc : s.cell? row column = some c) (hf : c.formula? = some formula)
    (he : Formula.parseFormula formula = .ok e) (hr : r ∈ e.references) : s.Names r.sheet := by
  intro name hname
  have hplace : (row, column) ∈ s.formulaPlaces :=
    mem_formulaPlaces.2 ⟨c, hc, Option.isSome_iff_exists.2 ⟨formula, hf⟩⟩
  refine List.mem_flatMap.2 ⟨(row, column), hplace, ?_⟩
  simp only [hc, Option.bind_some, hf, Option.map_some, he]
  exact List.mem_filterMap.2 ⟨r, hr, hname⟩

/-! ## Common sheets -/

/-- Sheets that two settings have in common, each in its place in the one and in the other. -/
structure CommonSheets (w v : Setting) (ρ : Nat → Nat → Prop) : Prop where
  environment : w.environment = v.environment
  sheet : ∀ {i j}, ρ i j → w.sheet i = v.sheet j
  left : ∀ {i i' j}, ρ i j → ρ i' j → i = i'
  right : ∀ {i j j'}, ρ i j → ρ i j' → j = j'

/-- Common sheets that name no others: whatever they name is such a sheet, or is missing in both settings. -/
structure Renumbering (w v : Setting) (ρ : Nat → Nat → Prop) : Prop extends CommonSheets w v ρ where
  index : ∀ {i j name}, ρ i j → name ∈ (w.sheet i).qualifiers → w.options.crossSheetReferences = true →
    Option.Rel ρ (w.sheetIndex? name) (v.sheetIndex? name)

/-- The same cell of a common sheet. -/
structure SamePlace (ρ : Nat → Nat → Prop) (p q : Position) : Prop where
  sheet : ρ p.sheet q.sheet
  row : p.row = q.row
  column : p.column = q.column

/-- States in which the same has been noted about the cells of common sheets. -/
structure SameCells (ρ : Nat → Nat → Prop) (s t : Progress) : Prop where
  values : ∀ {p q : Position}, SamePlace ρ p q → s.values[p]? = t.values[q]?
  started : ∀ {p q}, SamePlace ρ p q → (p ∈ s.started ↔ q ∈ t.started)
  circular : ∀ {p q}, SamePlace ρ p q → (p ∈ s.circular ↔ q ∈ t.circular)
  records : ∀ {i j}, ρ i j → entriesOf i s.records = entriesOf j t.records
  errors : ∀ {i j}, ρ i j → entriesOf i s.errors = entriesOf j t.errors
  evaluated : ∀ {i j}, ρ i j → s.evaluatedOn i = t.evaluatedOn j

/-- States that are the same as far as the common sheets go. -/
structure Alike (ρ : Nat → Nat → Prop) (s t : Progress) : Prop extends SameCells ρ s t where
  active : ∀ {i j}, ρ i j → (i ∈ s.active ↔ j ∈ t.active)
  finished : ∀ {i j : Nat}, ρ i j → s.finished[i]? = t.finished[j]?
  opened : s.opened.length = t.opened.length

theorem Alike.initial (ρ : Nat → Nat → Prop) : Alike ρ {} {} where
  values _ := by simp
  started _ := by simp
  circular _ := by simp
  records _ := rfl
  errors _ := rfl
  evaluated _ := by simp [Progress.evaluatedOn]
  active _ := by simp
  finished _ := by simp
  opened := rfl

section Settings

variable {w v : Setting} {ρ : Nat → Nat → Prop} {i j : Nat} {p q p' q' : Position}

theorem SamePlace.at (h : ρ i j) (row column : Nat) : SamePlace ρ ⟨i, row, column⟩ ⟨j, row, column⟩ := ⟨h, rfl, rfl⟩

namespace CommonSheets

theorem place_eq_iff (hρ : CommonSheets w v ρ) (h : SamePlace ρ p q) (h' : SamePlace ρ p' q') : p = p' ↔ q = q' := by
  obtain ⟨hsheet, hrow, hcolumn⟩ := h
  obtain ⟨hsheet', hrow', hcolumn'⟩ := h'
  obtain ⟨i, row, column⟩ := p
  obtain ⟨i', row', column'⟩ := p'
  obtain ⟨j, _, _⟩ := q
  obtain ⟨j', _, _⟩ := q'
  cases hrow
  cases hrow'
  cases hcolumn
  cases hcolumn'
  constructor
  · intro h
    cases h
    have hj : j = j' := hρ.right hsheet hsheet'
    rw [hj]
  · intro h
    cases h
    have hi : i = i' := hρ.left hsheet hsheet'
    rw [hi]

theorem sheet_eq_iff (hρ : CommonSheets w v ρ) {i' j' : Nat} (h : ρ i j) (h' : ρ i' j') : i = i' ↔ j = j' :=
  ⟨fun e => hρ.right h (e ▸ h'), fun e => hρ.left h (e ▸ h')⟩

theorem options (hρ : CommonSheets w v ρ) : w.options = v.options := by
  rw [Setting.options, hρ.environment]
  rfl

theorem fallback (hρ : CommonSheets w v ρ) (fault : FormulaError) : w.fallback fault = v.fallback fault := by
  rw [Setting.fallback, Setting.fallback, hρ.options]

theorem cell? (hρ : CommonSheets w v ρ) (h : SamePlace ρ p q) : w.cell? p = v.cell? q := by
  rw [Setting.cell?, Setting.cell?, hρ.sheet h.sheet, h.row, h.column]

theorem formula? (hρ : CommonSheets w v ρ) (h : SamePlace ρ p q) : w.formula? p = v.formula? q := by
  rw [Setting.formula?, Setting.formula?, hρ.cell? h]

theorem literal (hρ : CommonSheets w v ρ) (h : SamePlace ρ p q) : w.literal p = v.literal q := by
  rw [Setting.literal, Setting.literal, hρ.cell? h]

theorem isOwn (hρ : CommonSheets w v ρ) (h : ρ i j) (sheet : Option String) : w.isOwn i sheet = v.isOwn j sheet := by
  unfold Setting.isOwn
  rw [hρ.sheet h]

theorem cycleFault (hρ : CommonSheets w v ρ) (h : SamePlace ρ p q) : cycleFault w p = cycleFault v q := by
  simp only [Spreadsheet.cycleFault, hρ.sheet h.sheet, Position.label, h.row, h.column]

end CommonSheets

namespace Renumbering

theorem extent? (hρ : Renumbering w v ρ) (h : ρ i j) {sheet : Option String} (hn : (w.sheet i).Names sheet) :
    w.extent? i sheet = v.extent? j sheet := by
  rw [Setting.extent?, Setting.extent?, Setting.sheetFor?, Setting.sheetFor?, hρ.isOwn h, hρ.options]
  split
  · rw [Option.map_some, Option.map_some, hρ.sheet h]
  · split
    · rename_i hcross
      cases sheet with
      | none => rfl
      | some name =>
        have hindex := hρ.index h (hn name rfl) (hρ.options ▸ hcross)
        rw [Option.bind_some, Option.bind_some]
        generalize w.sheetIndex? name = first at hindex
        generalize v.sheetIndex? name = second at hindex
        cases hindex with
        | none => rfl
        | some hij => rw [Option.map_some, Option.map_some, hρ.sheet hij]
    · rfl

/-- A name leads to a common sheet, or nowhere for the same reason. -/
theorem foreignSheet (hρ : Renumbering w v ρ) (h : ρ i j) {name : String} (hn : name ∈ (w.sheet i).qualifiers) :
    (∃ fault, Calculation.foreignSheet w name = .error fault ∧ Calculation.foreignSheet v name = .error fault ∧
      ∀ cell, fault ≠ .circular cell) ∨
    ∃ i' j', Calculation.foreignSheet w name = .ok i' ∧ Calculation.foreignSheet v name = .ok j' ∧ ρ i' j' := by
  unfold Calculation.foreignSheet
  rw [← hρ.options]
  cases hcross : w.options.crossSheetReferences with
  | false => exact Or.inl ⟨_, rfl, rfl, nofun⟩
  | true =>
    have hindex := hρ.index h hn hcross
    generalize w.sheetIndex? name = first at hindex
    generalize v.sheetIndex? name = second at hindex
    cases hindex with
    | none => exact Or.inl ⟨_, rfl, rfl, nofun⟩
    | some hij => exact Or.inr ⟨_, _, rfl, rfl, hij⟩

end Renumbering

/-! ## Updates -/

/-- An entry that is made for a common sheet is one more for it, and none for the others. -/
theorem CommonSheets.entriesOf_cons {α : Type} {log log' : List (Nat × α)} (hρ : CommonSheets w v ρ)
    (hlog : ∀ {i j}, ρ i j → entriesOf i log = entriesOf j log') (h : ρ i j) (a : α) {i' j' : Nat} (h' : ρ i' j') :
    entriesOf i' ((i, a) :: log) = entriesOf j' ((j, a) :: log') := by
  by_cases hi : i = i'
  · have hj := (hρ.sheet_eq_iff h h').1 hi
    subst hi hj
    rw [entriesOf_cons_self, entriesOf_cons_self, hlog h]
  · rw [entriesOf_cons_of_ne hi, entriesOf_cons_of_ne (mt (hρ.sheet_eq_iff h h').2 hi), hlog h']

namespace SameCells

variable {s t : Progress} {formula : String}

theorem mem_values (h : SameCells ρ s t) (hpq : SamePlace ρ p q) : p ∈ s.values ↔ q ∈ t.values := by
  rw [Std.TreeMap.mem_iff_isSome_getElem?, Std.TreeMap.mem_iff_isSome_getElem?, h.values hpq]

theorem begin (h : SameCells ρ s t) (hρ : CommonSheets w v ρ) (hpq : SamePlace ρ p q) :
    SameCells ρ (s.begin p) (t.begin q) :=
  { h with
    started := fun h' => by
      rw [Progress.mem_started_begin, Progress.mem_started_begin]
      exact or_congr (hρ.place_eq_iff hpq h') (h.started h') }

theorem addError (h : SameCells ρ s t) (hρ : CommonSheets w v ρ) (hpq : SamePlace ρ p q) (fault : FormulaError) :
    SameCells ρ (s.addError p formula fault) (t.addError q formula fault) :=
  { h with
    errors := fun h' => by
      have hcons := hρ.entriesOf_cons h.errors hpq.sheet ⟨p.row, p.column, formula, fault⟩ h'
      rw [hpq.row, hpq.column] at hcons
      unfold Progress.addError
      rw [hpq.row, hpq.column]
      exact hcons }

theorem closeCycle (h : SameCells ρ s t) (hρ : CommonSheets w v ρ) (hpq : SamePlace ρ p q) :
    SameCells ρ (s.closeCycle p formula (cycleFault w p)) (t.closeCycle q formula (cycleFault v q)) := by
  rw [← hρ.cycleFault hpq]
  by_cases hc : p ∈ s.circular
  · rwa [Progress.closeCycle_of_mem hc, Progress.closeCycle_of_mem ((h.circular hpq).1 hc)]
  · rw [Progress.closeCycle_of_notMem hc, Progress.closeCycle_of_notMem (mt (h.circular hpq).2 hc)]
    exact {
      h.addError hρ hpq (cycleFault w p) with
      circular := fun h' => by
        simp only [Std.TreeSet.mem_insert, Std.compare_eq_iff_eq]
        exact or_congr (hρ.place_eq_iff hpq h') (h.circular h') }

theorem countEvaluated (h : SameCells ρ s t) (hρ : CommonSheets w v ρ) (hij : ρ i j) :
    SameCells ρ (s.countEvaluated i) (t.countEvaluated j) :=
  { h with
    evaluated := fun h' => by
      rw [Progress.evaluatedOn_countEvaluated, Progress.evaluatedOn_countEvaluated, h.evaluated hij, h.evaluated h']
      exact if_congr (hρ.sheet_eq_iff hij h') rfl rfl }

theorem complete (h : SameCells ρ s t) (hρ : CommonSheets w v ρ) (hpq : SamePlace ρ p q) (value : Value)
    (reads : List CellRead) : SameCells ρ (s.complete p formula value reads) (t.complete q formula value reads) :=
  { h with
    values := fun h' => by
      rw [Progress.getElem?_values_complete, Progress.getElem?_values_complete, h.values h']
      exact if_congr (hρ.place_eq_iff hpq h') rfl rfl
    started := fun h' => by
      rw [Progress.mem_started_complete, Progress.mem_started_complete]
      exact and_congr (not_congr (hρ.place_eq_iff hpq h')) (h.started h')
    records := fun h' => by
      have hcons := hρ.entriesOf_cons h.records hpq.sheet ⟨p.row, p.column, formula, value⟩ h'
      unfold Progress.complete
      rw [hcons, hpq.row, hpq.column] }

theorem finish (h : SameCells ρ s t) (hρ : CommonSheets w v ρ) (hpq : SamePlace ρ p q)
    (outcome : Except FormulaError Value) (reads : List CellRead) :
    SameCells ρ (finish w p formula outcome reads s) (finish v q formula outcome reads t) := by
  have hfault : ∀ fault, w.fallback fault = v.fallback fault := hρ.fallback
  have hvalue : Progress.finalValue w s p outcome = Progress.finalValue v t q outcome := by
    unfold Progress.finalValue Setting.cycleValue Setting.outcomeValue
    simp only [hfault]
    exact if_congr (h.circular hpq) rfl rfl
  have hcount := h.countEvaluated hρ hpq.sheet
  rw [Progress.finish_eq, Progress.finish_eq, hvalue]
  cases outcome with
  | ok _ => exact hcount.complete hρ hpq _ reads
  | error fault => exact (hcount.addError hρ hpq fault).complete hρ hpq _ reads

/-! ## What is left to do -/

theorem pending? (h : SameCells ρ s t) (hρ : CommonSheets w v ρ) (hpq : SamePlace ρ p q) :
    s.pending? w p = t.pending? v q := by
  rw [Progress.pending?, Progress.pending?, Std.TreeMap.contains_eq_isSome_getElem?,
    Std.TreeMap.contains_eq_isSome_getElem?, h.values hpq, hρ.formula? hpq]

/-- The next formula is the same, if the stacks are. -/
theorem nextPending? (h : SameCells ρ s t) (hρ : CommonSheets w v ρ) {stack stack' : List Position}
    (hstack : List.Forall₂ (SamePlace ρ) stack stack') :
    s.nextPending? w stack = none ∧ t.nextPending? v stack' = none ∨
    ∃ p q formula rest rest', s.nextPending? w stack = some (p, formula, rest) ∧
      t.nextPending? v stack' = some (q, formula, rest') ∧ SamePlace ρ p q ∧
      List.Forall₂ (SamePlace ρ) rest rest' := by
  induction hstack with
  | nil => exact Or.inl ⟨rfl, rfl⟩
  | @cons p q rest rest' hpq hrest ih =>
    rw [Progress.nextPending?, Progress.nextPending?, ← h.pending? hρ hpq]
    cases s.pending? w p with
    | none => exact ih
    | some formula => exact Or.inr ⟨p, q, formula, rest, rest', rfl, rfl, hpq, hrest⟩

/-- The same formulas of a range are waited for. -/
theorem unstartedIn (h : SameCells ρ s t) (hρ : CommonSheets w v ρ) (hij : ρ i j) (r : CellRange) :
    List.Forall₂ (SamePlace ρ) (s.unstartedIn w i r) (t.unstartedIn v j r) := by
  unfold Progress.unstartedIn
  rw [hρ.sheet hij]
  refine List.rel_flatMap (R := Eq) (List.forall₂_refl _) fun row _ hrow => ?_
  subst hrow
  refine List.rel_filterMap (R := Eq) (fun column _ hcolumn => ?_) (List.forall₂_refl _)
  subst hcolumn
  have hplace := SamePlace.at hij row column
  have hvalues : s.values.contains ⟨i, row, column⟩ = t.values.contains ⟨j, row, column⟩ := by
    rw [Bool.eq_iff_iff, Std.TreeMap.contains_iff_mem, Std.TreeMap.contains_iff_mem, h.mem_values hplace]
  have hstarted : s.started.contains ⟨i, row, column⟩ = t.started.contains ⟨j, row, column⟩ := by
    rw [Bool.eq_iff_iff, Std.TreeSet.contains_iff_mem, Std.TreeSet.contains_iff_mem, h.started hplace]
  simp only [hvalues, hstarted]
  split
  · exact .some hplace
  · exact .none

/-! ## Results -/

/-- The result for a common sheet is made of what is alike. -/
theorem resultOf (h : SameCells ρ s t) (hρ : CommonSheets w v ρ) (hij : ρ i j) (n : Nat) :
    resultOf w i n s = resultOf v j n t := by
  have hvalue : ∀ row column c, valueOf s ⟨i, row, column⟩ c = valueOf t ⟨j, row, column⟩ c := fun row column c => by
    rw [valueOf, valueOf, h.values (.at hij row column)]
  simp only [Calculation.resultOf, hρ.sheet hij, h.records hij, h.errors hij, h.evaluated hij, hvalue]

end SameCells

/-! ## Updates of whole states -/

namespace Alike

variable {s t : Progress} {formula : String}

theorem begin (h : Alike ρ s t) (hρ : CommonSheets w v ρ) (hpq : SamePlace ρ p q) :
    Alike ρ (s.begin p) (t.begin q) :=
  { h with toSameCells := h.toSameCells.begin hρ hpq }

theorem closeCycle (h : Alike ρ s t) (hρ : CommonSheets w v ρ) (hpq : SamePlace ρ p q) :
    Alike ρ (s.closeCycle p formula (cycleFault w p)) (t.closeCycle q formula (cycleFault v q)) where
  toSameCells := h.toSameCells.closeCycle hρ hpq
  active h' := by simpa using h.active h'
  finished h' := by simpa using h.finished h'
  opened := by simpa using h.opened

theorem finish (h : Alike ρ s t) (hρ : CommonSheets w v ρ) (hpq : SamePlace ρ p q)
    (outcome : Except FormulaError Value) (reads : List CellRead) :
    Alike ρ (finish w p formula outcome reads s) (finish v q formula outcome reads t) where
  toSameCells := h.toSameCells.finish hρ hpq outcome reads
  active h' := by simpa using h.active h'
  finished h' := by simpa using h.finished h'
  opened := by simpa using h.opened

end Alike

end Settings

end Spreadsheet
