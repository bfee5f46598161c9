import Spreadsheet.Proofs.Lockstep
import Spreadsheet.Proofs.Solution

/-!
# Sheets that are reached

What a call comes to for a sheet depends on the other sheets only as far as the names in its formulas lead, from one
sheet to the next. So it does not matter in which order the others are given, whether they hold an older copy of the
sheet, and what there is besides.

* `standsFor` : the sheet that a name leads to in a call; `Reaches` : the names that are reached;
* `find?_placeSheet` : the sheets of a call are found under their names as `standsFor` says;
* `renumbering_reached` : the sheets that are reached are common to two calls that have the same ones;
* `calculateSheet_reached` : such calls have the same result, and what follows for the sheets that are given.
-/

namespace Spreadsheet

open Calculation

/-! ## Names of sheets -/

theorem sameSheet_iff {a b : String} : sameSheet a b = true ↔ Text.lower a = Text.lower b := by
  rw [sameSheet, Text.equalIgnoringCase, Bool.or_eq_true, beq_iff_eq, beq_iff_eq]
  exact ⟨fun h => h.elim (congrArg Text.lower) id, Or.inr⟩

theorem sameSheet_self (a : String) : sameSheet a a = true := sameSheet_iff.2 rfl

theorem sameSheet_comm (a b : String) : sameSheet a b = sameSheet b a := by
  rw [Bool.eq_iff_iff, sameSheet_iff, sameSheet_iff, eq_comm]

/-- Names of the same sheet can stand for one another. -/
theorem sameSheet_congr {a b : String} (h : sameSheet a b = true) (c : String) : sameSheet a c = sameSheet b c := by
  rw [Bool.eq_iff_iff, sameSheet_iff, sameSheet_iff, sameSheet_iff.1 h]

namespace Setting

variable {w : Setting} {name name' : String} {i : Nat}

theorem sheetIndex?_congr (h : sameSheet name name' = true) : w.sheetIndex? name = w.sheetIndex? name' := by
  simp only [sheetIndex?, sameSheet_comm _ name, sameSheet_comm _ name', sameSheet_congr h]

theorem sameSheet_of_sheetIndex? (h : w.sheetIndex? name = some i) : sameSheet (w.sheet i).name name = true := by
  obtain ⟨hi, hname, -⟩ := Array.findIdx?_eq_some_iff_getElem.1 h
  rwa [sheet, Array.getElem?_eq_getElem hi]

/-- Names with one place are of one sheet, and so they are in all settings. -/
theorem sheetIndex?_of_eq {v : Setting} (h : w.sheetIndex? name = some i) (h' : w.sheetIndex? name' = some i) :
    v.sheetIndex? name = v.sheetIndex? name' := by
  refine sheetIndex?_congr ?_
  rw [← sameSheet_congr (sameSheet_of_sheetIndex? h)]
  exact sameSheet_of_sheetIndex? h'

end Setting

/-! ## What names lead to -/

/-- The sheet that a name leads to in a call for `s`: this sheet for its own name, and else the first of the others. -/
def standsFor (s : Sheet) (others : List Sheet) (name : String) : Option Sheet :=
  if sameSheet name s.name then some s else others.find? fun t => sameSheet t.name name

/-- Names that are reached in a call for `s`, from its formulas on and through those of the sheets reached before. No
name is, unless formulas may read other sheets. -/
inductive Reaches (options : Options) (s : Sheet) (others : List Sheet) : String → Prop where
  | own {name : String} (hc : options.crossSheetReferences = true) (h : name ∈ s.qualifiers) :
      Reaches options s others name
  | next {name name' : String} {t : Sheet} (h : Reaches options s others name)
      (ht : standsFor s others name = some t) (h' : name' ∈ t.qualifiers) : Reaches options s others name'

section StandsFor

variable {s t : Sheet} {l l' : List Sheet} {name : String}

theorem standsFor_own (h : sameSheet name s.name = true) : standsFor s l name = some s := if_pos h

/-- What the sheet itself or a sheet that is reached names is reached. -/
theorem Reaches.of_sheet {options : Options} {name' : String} (hname : name = s.name ∨ Reaches options s l name)
    (ht : standsFor s l name = some t) (hc : options.crossSheetReferences = true) (h : name' ∈ t.qualifiers) :
    Reaches options s l name' := by
  rcases hname with rfl | hname
  · rw [standsFor_own (sameSheet_self _)] at ht
    cases ht
    exact .own hc h
  · exact .next hname ht h

/-- Sheets of other names do not matter. -/
theorem standsFor_insert (h : sameSheet t.name name = false) :
    standsFor s (l ++ t :: l') name = standsFor s (l ++ l') name := by
  rw [standsFor, standsFor, List.find?_append, List.find?_append, List.find?_cons_of_neg (by simp [h])]

/-- Other sheets of the name of `s` do not matter. -/
theorem standsFor_filter (s : Sheet) (l : List Sheet) (name : String) :
    standsFor s (l.filter fun t => !sameSheet t.name s.name) name = standsFor s l name := by
  by_cases hs : sameSheet name s.name = true
  · rw [standsFor_own hs, standsFor_own hs]
  · rw [standsFor, standsFor, if_neg hs, if_neg hs, List.find?_filter]
    refine congrArg (List.find? · l) (funext fun t => ?_)
    by_cases ht : sameSheet t.name name = true
    · simp [sameSheet_congr ht, hs]
    · simp [ht]

/-- The order of sheets with different names does not matter. -/
theorem standsFor_perm (hp : l.Perm l') (hd : l.Pairwise fun a b => sameSheet a.name b.name = false) (name : String) :
    standsFor s l name = standsFor s l' name := by
  unfold standsFor
  congr 1
  induction hp with
  | nil => rfl
  | cons t _ ih => rw [List.find?_cons, List.find?_cons, ih (List.pairwise_cons.1 hd).2]
  | swap t u l =>
    have htu : sameSheet u.name t.name = false := (List.pairwise_cons.1 hd).1 t (List.mem_cons_self ..)
    rw [List.find?_cons, List.find?_cons, List.find?_cons, List.find?_cons]
    cases ht : sameSheet t.name name with
    | false => rfl
    | true =>
      rw [sameSheet_comm, sameSheet_congr ht, sameSheet_comm] at htu
      rw [htu]
  | trans h _ ih ih' =>
    refine (ih hd).trans (ih' (h.pairwise hd fun {a b} hab => ?_))
    rwa [sameSheet_comm]

end StandsFor

/-! ## The sheets of a call -/

theorem placeSheet_cons (s t : Sheet) (l : List Sheet) :
    placeSheet s (t :: l) = if sameSheet t.name s.name then (s :: l, 0)
      else (t :: (placeSheet s l).1, (placeSheet s l).2 + 1) := by
  unfold placeSheet
  rw [List.findIdx?_cons]
  by_cases ht : sameSheet t.name s.name = true
  · simp only [if_pos ht, List.set_cons_zero]
  · simp only [if_neg ht]
    cases l.findIdx? fun t => sameSheet t.name s.name <;> rfl

/-- Under every name the sheets of a call hold what the name leads to. -/
theorem find?_placeSheet (s : Sheet) (l : List Sheet) (name : String) :
    (placeSheet s l).1.find? (fun t => sameSheet t.name name) = standsFor s l name := by
  induction l with
  | nil =>
    rw [standsFor, sameSheet_comm]
    cases h : sameSheet s.name name <;> simp [placeSheet, h]
  | cons t l ih =>
    rw [placeSheet_cons]
    by_cases ht : sameSheet t.name s.name = true
    · rw [if_pos ht, List.find?_cons, sameSheet_comm]
      by_cases hs : sameSheet name s.name = true
      · rw [hs, standsFor_own hs]
      · have htn : ¬sameSheet t.name name = true := fun h => hs (sameSheet_congr h s.name ▸ ht)
        simp [standsFor, hs, htn]
    · rw [if_neg ht, List.find?_cons, ih]
      by_cases hs : sameSheet name s.name = true
      · have htn : ¬sameSheet t.name name = true := fun h => ht (sameSheet_congr h s.name ▸ hs)
        simp [standsFor_own hs, htn]
      · simp [standsFor, hs, List.find?_cons]

theorem findIdx?_placeSheet (s : Sheet) (l : List Sheet) :
    (placeSheet s l).1.findIdx? (fun t => sameSheet t.name s.name) = some (placeSheet s l).2 := by
  induction l with
  | nil => simp [placeSheet, sameSheet_self]
  | cons t l ih =>
    rw [placeSheet_cons]
    by_cases ht : sameSheet t.name s.name = true
    · simp [ht, List.findIdx?_cons, sameSheet_self]
    · simp [ht, List.findIdx?_cons, ih]

namespace Sheet

theorem formulaPlaces_withDates (order : Calendar.DateOrder) (s : Sheet) :
    (s.withDates order).formulaPlaces = s.formulaPlaces := by
  have hrows : ∀ row : Nat,
      (s.withDates order).rows[row]?.getD #[] = (s.rows[row]?.getD #[]).map (Cell.withDate order) := by
    intro row
    rw [withDates, Array.getElem?_map]
    cases s.rows[row]? <;> simp
  have hcell : ∀ (cells : Array Cell) (column : Nat),
      ((cells.map (Cell.withDate order))[column]?.getD {}).isFormula = (cells[column]?.getD {}).isFormula := by
    intro cells column
    rw [Array.getElem?_map]
    cases cells[column]? with
    | none => rfl
    | some c => exact congrArg Option.isSome (Cell.formula?_withDate order c)
  have hcount : (s.withDates order).rowCount = s.rowCount := Array.size_map ..
  simp only [formulaPlaces, hcount, hrows, hcell, Array.size_map]

theorem qualifiers_withDates (order : Calendar.DateOrder) (s : Sheet) :
    (s.withDates order).qualifiers = s.qualifiers := by
  have hformula : ∀ row column, ((s.withDates order).cell? row column).bind Cell.formula?
      = (s.cell? row column).bind Cell.formula? := by
    intro row column
    rw [cell?_withDates]
    cases s.cell? row column with
    | none => rfl
    | some c => exact Cell.formula?_withDate order c
  simp only [qualifiers, formulaPlaces_withDates, hformula]

end Sheet

/-- Dates make no difference to the names of sheets. -/
theorem Environment.sheetIndex?_setting (env : Environment) (sheets : List Sheet) (name : String) :
    (env.setting sheets).sheetIndex? name = sheets.findIdx? fun t => sameSheet t.name name := by
  simp only [Environment.setting, Setting.ofSheets, Setting.sheetIndex?, List.findIdx?_toArray, List.findIdx?_map]
  rfl

namespace Call

theorem sheetIndex?_setting (env : Environment) (s : Sheet) (l : List Sheet) (name : String) :
    ((Call.sheet s l).setting env).sheetIndex? name
      = (placeSheet s l).1.findIdx? fun t => sameSheet t.name name :=
  env.sheetIndex?_setting _ name

/-- The place of a name is that of the sheet that the name leads to. -/
theorem map_sheetIndex? (env : Environment) (s : Sheet) (l : List Sheet) (name : String) :
    (((Call.sheet s l).setting env).sheetIndex? name).map ((Call.sheet s l).setting env).sheet
      = (standsFor s l name).map (Sheet.withDates env.surroundings.options.dateOrder) := by
  rw [sheetIndex?_setting, ← find?_placeSheet, List.find?_eq_bind_findIdx?_getElem?]
  cases hi : (placeSheet s l).1.findIdx? fun t => sameSheet t.name name with
  | none => rfl
  | some i =>
    have hsheet := List.getElem?_eq_getElem (List.findIdx?_eq_some_iff_getElem.1 hi).1
    rw [Option.map_some, Option.bind_some, hsheet, Option.map_some]
    exact congrArg some ((Call.sheet s l).sheet_setting env hsheet)

end Call

/-! ## Calls for the same sheet -/

/-- Places of the same sheet in two calls for `s`: of this sheet itself, or of one that is reached. -/
def ReachedPlaces (env : Environment) (s : Sheet) (l l' : List Sheet) (i j : Nat) : Prop :=
  ∃ name, (name = s.name ∨ Reaches env.surroundings.options s l name) ∧
    ((Call.sheet s l).setting env).sheetIndex? name = some i ∧
    ((Call.sheet s l').setting env).sheetIndex? name = some j

section Calls

variable {env : Environment} {s : Sheet} {l l' : List Sheet}

/-- If the same sheets are reached in two calls, these are common to both, and lead to one another only. -/
theorem renumbering_reached
    (h : ∀ name, Reaches env.surroundings.options s l name → standsFor s l name = standsFor s l' name) :
    Renumbering ((Call.sheet s l).setting env) ((Call.sheet s l').setting env) (ReachedPlaces env s l l') := by
  have hstands : ∀ {name}, name = s.name ∨ Reaches env.surroundings.options s l name →
      standsFor s l name = standsFor s l' name := by
    rintro name (rfl | hname)
    · rw [standsFor_own (sameSheet_self _), standsFor_own (sameSheet_self _)]
    · exact h name hname
  have hsheet : ∀ {l name i}, ((Call.sheet s l).setting env).sheetIndex? name = some i → ∃ t,
      standsFor s l name = some t ∧
      ((Call.sheet s l).setting env).sheet i = t.withDates env.surroundings.options.dateOrder := by
    intro l name i hi
    have hmap := Call.map_sheetIndex? env s l name
    rw [hi, Option.map_some, eq_comm, Option.map_eq_some_iff] at hmap
    obtain ⟨t, ht, heq⟩ := hmap
    exact ⟨t, ht, heq.symm⟩
  refine ⟨⟨rfl, ?sheet, ?left, ?right⟩, ?index⟩
  case sheet =>
    rintro i j ⟨name, hname, hi, hj⟩
    obtain ⟨t, ht, hti⟩ := hsheet hi
    obtain ⟨t', ht', htj⟩ := hsheet hj
    cases (ht.symm.trans (hstands hname)).trans ht'
    rw [hti, htj]
  case left =>
    rintro i i' j ⟨name, -, hi, hj⟩ ⟨name', -, hi', hj'⟩
    exact Option.some.inj (hi.symm.trans ((Setting.sheetIndex?_of_eq hj hj').trans hi'))
  case right =>
    rintro i j j' ⟨name, -, hi, hj⟩ ⟨name', -, hi', hj'⟩
    exact Option.some.inj (hj.symm.trans ((Setting.sheetIndex?_of_eq hi hi').trans hj'))
  case index =>
    rintro i j name' ⟨name, hname, hi, hj⟩ hmem hcross
    obtain ⟨t, ht, hti⟩ := hsheet hi
    rw [hti, Sheet.qualifiers_withDates] at hmem
    have hreached := Reaches.of_sheet hname ht hcross hmem
    -- the name leads to one sheet in both calls, so it has a place in both or in none
    have hmap := Call.map_sheetIndex? env s l' name'
    rw [← h name' hreached, ← Call.map_sheetIndex? env s l name'] at hmap
    cases hi' : ((Call.sheet s l).setting env).sheetIndex? name' with
    | none =>
      rw [hi', Option.map_none, Option.map_eq_none_iff] at hmap
      rw [hmap]
      exact .none
    | some i' =>
      rw [hi', Option.map_some, Option.map_eq_some_iff] at hmap
      obtain ⟨j', hj', -⟩ := hmap
      rw [hj']
      exact .some ⟨name', Or.inr hreached, hi', hj'⟩

/-- Calls that reach the same sheets have the same result. -/
theorem calculateSheet_congr (hreg : env.registry.Confined)
    (h : ∀ name, Reaches env.surroundings.options s l name → standsFor s l name = standsFor s l' name) :
    calculateSheet env s l = calculateSheet env s l' := by
  have hplace : ∀ l, ((Call.sheet s l).setting env).sheetIndex? s.name = some (placeSheet s l).2 := fun l => by
    rw [Call.sheetIndex?_setting, findIdx?_placeSheet]
  have hplaces : ReachedPlaces env s l l' (placeSheet s l).2 (placeSheet s l').2 :=
    ⟨s.name, Or.inl rfl, hplace l, hplace l'⟩
  exact (same_outermost (renumbering_reached h) hreg ((Call.sheet s l).ample env) ((Call.sheet s l').ample env)
    hplaces (.initial _)).result

end Calls

/-- The result for a sheet depends only on the sheets that are reached. So it does not matter in which order the others
are given, whether there are copies of the sheet among them, and which are there that are not reached. -/
theorem calculateSheet_reached (env : Environment) (hreg : env.registry.Confined) (s : Sheet) :
    (∀ l l', (∀ name, Reaches env.surroundings.options s l name → standsFor s l name = standsFor s l' name) →
      calculateSheet env s l = calculateSheet env s l') ∧
    (∀ l l' : List Sheet, l.Perm l' → l.Pairwise (fun a b => sameSheet a.name b.name = false) →
      calculateSheet env s l = calculateSheet env s l') ∧
    (∀ l : List Sheet, calculateSheet env s (l.filter fun t => !sameSheet t.name s.name) = calculateSheet env s l) ∧
    ∀ l t l', (∀ name, Reaches env.surroundings.options s (l ++ l') name → sameSheet t.name name = false) →
      calculateSheet env s (l ++ t :: l') = calculateSheet env s (l ++ l') := by
  refine ⟨fun l l' h => calculateSheet_congr hreg h, fun l l' hp hd => ?_, fun l => ?_, fun l t l' h => ?_⟩
  · exact calculateSheet_congr hreg fun name _ => standsFor_perm hp hd name
  · exact calculateSheet_congr hreg fun name _ => standsFor_filter s l name
  · exact (calculateSheet_congr hreg fun name hname => (standsFor_insert (h name hname)).symm).symm

/-- Two sheets with a cycle across them. -/
def summarySheet : Sheet :=
  ⟨"Summary", #[#[{ content := .text "=Data!A1" }], #[{ content := .text "=Data!A2" }]]⟩

def dataSheet : Sheet :=
  ⟨"Data", #[#[{ content := .text "=Summary!A1" }], #[{ content := .text "=2" }]]⟩

/-- A copy of the first of them, and a sheet that none of them names. -/
def givenSheets : List Sheet := [⟨"SUMMARY", #[]⟩, ⟨"Other", #[]⟩, dataSheet]

theorem calculateSheet_reached_summarySheet :
    Registry.builtin.Confined ∧
    (∀ name, Reaches {} summarySheet givenSheets name →
      standsFor summarySheet givenSheets name = standsFor summarySheet [dataSheet] name) ∧
    calculateSheet .plain summarySheet givenSheets = calculateSheet .plain summarySheet [dataSheet] := by
  have hsummary : summarySheet.qualifiers = ["Data", "Data"] := by decide +kernel
  have hdata : dataSheet.qualifiers = ["Summary"] := by decide +kernel
  have hnames : ∀ name, Reaches {} summarySheet givenSheets name → name = "Data" ∨ name = "Summary" := by
    intro name h
    induction h with
    | own _ h => exact Or.inl (by simpa [hsummary] using h)
    | next _ ht h ih =>
      rcases ih with rfl | rfl
      · cases (show standsFor summarySheet givenSheets "Data" = some dataSheet from rfl).symm.trans ht
        exact Or.inr (by simpa [hdata] using h)
      · cases (standsFor_own (sameSheet_self _)).symm.trans ht
        exact Or.inl (by simpa [hsummary] using h)
  have hstands : ∀ name, Reaches {} summarySheet givenSheets name →
      standsFor summarySheet givenSheets name = standsFor summarySheet [dataSheet] name := by
    intro name h
    rcases hnames name h with rfl | rfl <;> rfl
  exact ⟨Registry.confined_builtin, hstands,
    (calculateSheet_reached .plain Registry.confined_builtin summarySheet).1 givenSheets [dataSheet] hstands⟩

end Spreadsheet
