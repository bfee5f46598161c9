import Spreadsheet.Proofs.ConditionalAggregates

/-!
# Ranges of different shapes

The ranges of several criteria are refused with `#VALUE!` if they differ in rows or columns. The range of values is
compared with them by its number of cells only, so it is refused if that differs. Another range of as many cells, such
as a column where the criteria are about a row, is taken, and its values are picked by criteria that hold elsewhere.

* `Statistical.shapes`, `Statistical.Misaligned` : the shapes of ranges, and when they differ;
* `Statistical.numbersWhereAll_rejected` : what is refused for its shapes;
* `Statistical.numbersWhereAll_blanked` : nothing else is, since without contents nothing else can go wrong;
* `Statistical.misaligned_rejected` : the shapes for which calls are refused whatever the ranges hold;
* `Statistical.sumIfs_crossed` : a row of values that is picked by a column.
-/

namespace Spreadsheet.Statistical

open Binary64 (Number)
open Formula (isRectangular)

/-- The rows and columns of each range. -/
def shapes (pairs : List (Value × Value)) : List (Nat × Nat) := pairs.map fun p => p.1.grid.dimensions

/-- Not all shapes are the same. -/
def Misaligned (shapes : List (Nat × Nat)) : Prop := ∃ a ∈ shapes, ∃ b ∈ shapes, a ≠ b

/-- How many cells a range of some rows and columns has. -/
def cellCount (shape : Nat × Nat) : Nat := shape.1 * shape.2

/-! ## What is refused -/

section Rejected

variable {values : Value} {pairs : List (Value × Value)}

theorem hitsOfAll_of_misaligned [RegexLibrary] (h : Misaligned (shapes pairs)) :
    hitsOfAll (criteriaPairs (asArguments pairs)) = .error .value := by
  obtain ⟨a, ha, b, hb, hne⟩ := h
  obtain ⟨p, hp, rfl⟩ := List.mem_map.1 ha
  obtain ⟨q, hq, rfl⟩ := List.mem_map.1 hb
  rw [criteriaPairs_asArguments]
  exact hitsOfAll_eq_error (List.mem_map_of_mem hp) (List.mem_map_of_mem hq) hne

variable (hpairs : pairs ≠ []) (hvalues : isRectangular values.grid) (hranges : ∀ p ∈ pairs, isRectangular p.1.grid)

include hpairs hranges

theorem exists_hasShape (h : ¬Misaligned (shapes pairs)) :
    ∃ shape ∈ shapes pairs, ∀ p ∈ pairs, HasShape shape.1 shape.2 p.1 := by
  obtain ⟨q, hq⟩ := List.exists_mem_of_ne_nil pairs hpairs
  refine ⟨_, List.mem_map_of_mem hq, fun p hp => ⟨hranges p hp, ?_⟩⟩
  by_contra hne
  exact h ⟨_, List.mem_map_of_mem hp, _, List.mem_map_of_mem hq, hne⟩

include hvalues

theorem numbersWhereAll_rejected [RegexLibrary]
    (h : Misaligned (shapes pairs) ∨ ∃ a ∈ shapes pairs, cellCount a ≠ cellCount values.grid.dimensions) :
    numbersWhereAll (values :: asArguments pairs) = .error .value := by
  rw [numbersWhereAll_asArguments]
  by_cases hmisaligned : Misaligned (shapes pairs)
  · rw [hitsOfAll_of_misaligned hmisaligned]
    rfl
  · obtain ⟨a, ha, hcount⟩ := h.resolve_left hmisaligned
    obtain ⟨p, hp, rfl⟩ := List.mem_map.1 ha
    obtain ⟨shape, -, hshape⟩ := exists_hasShape hpairs hranges hmisaligned
    rw [(hshape p hp).dimensions] at hcount
    rw [hitsOfAll_asArguments hpairs hshape, ok_bind, if_pos]
    rwa [List.length_map, Grid.length_places, Grid.length_flatten hvalues]

end Rejected

/-! ## Ranges without contents -/

/-- A range of the same shape with nothing in it. -/
def blanked (v : Value) : Value := .array (v.grid.map fun row => row.map fun _ => .empty)

theorem isRectangular_blanked {v : Value} (h : isRectangular v.grid) : isRectangular (blanked v).grid := by
  show isRectangular (v.grid.map _) = true
  cases hgrid : v.grid with
  | nil => rfl
  | cons row rows =>
    rw [hgrid] at h
    simpa [isRectangular] using h

theorem dimensions_blanked (v : Value) : (blanked v).grid.dimensions = v.grid.dimensions := by
  show Grid.dimensions (v.grid.map _) = _
  rw [Grid.dimensions, Grid.dimensions, List.length_map, Grid.width, Grid.width, List.head?_map]
  cases v.grid.head? <;> simp

theorem eq_empty_of_mem_blanked {v w : Value} (h : w ∈ (blanked v).grid.flatten) : w = .empty := by
  obtain ⟨row, hrow, hw⟩ := List.mem_flatten.1 h
  obtain ⟨row, -, rfl⟩ := List.mem_map.1 hrow
  obtain ⟨-, -, rfl⟩ := List.mem_map.1 hw
  rfl

/-! ## Shapes that are accepted -/

/-- Ranges of the same shapes, with contents and criteria of their own. -/
structure SameShapes (values : Value) (pairs : List (Value × Value)) (values' : Value)
    (pairs' : List (Value × Value)) : Prop where
  rectangular : isRectangular values'.grid
  rectangular_ranges : ∀ p ∈ pairs', isRectangular p.1.grid
  dimensions : values'.grid.dimensions = values.grid.dimensions
  shapes : shapes pairs' = shapes pairs

theorem SameShapes.ne_nil {values values' : Value} {pairs pairs' : List (Value × Value)} (hpairs : pairs ≠ [])
    (h : SameShapes values pairs values' pairs') : pairs' ≠ [] := by
  rintro rfl
  exact hpairs (List.map_eq_nil_iff.1 h.shapes.symm)

theorem SameShapes.three_le_length {values values' : Value} {pairs pairs' : List (Value × Value)} (hpairs : pairs ≠ [])
    (h : SameShapes values pairs values' pairs') : 3 ≤ (values' :: asArguments pairs').length :=
  Nat.succ_le_succ (two_le_length_asArguments (h.ne_nil hpairs))

section Accepted

variable {values : Value} {pairs : List (Value × Value)} (hpairs : pairs ≠ []) (hvalues : isRectangular values.grid)
  (hranges : ∀ p ∈ pairs, isRectangular p.1.grid)

include hpairs hvalues hranges

theorem numbersWhereAll_blanked [RegexLibrary] (haligned : ¬Misaligned (shapes pairs))
    (hcount : ∀ a ∈ shapes pairs, cellCount a = cellCount values.grid.dimensions) :
    numbersWhereAll (blanked values :: asArguments pairs) = .ok [] := by
  obtain ⟨shape, hmem, hshape⟩ := exists_hasShape hpairs hranges haligned
  have hsize : (Grid.places shape.1 shape.2).length = (blanked values).grid.flatten.length := by
    rw [Grid.length_places, Grid.length_flatten (isRectangular_blanked hvalues)]
    exact (hcount shape hmem).trans (congrArg cellCount (dimensions_blanked values)).symm
  rw [numbersWhereAll_asArguments, hitsOfAll_asArguments hpairs hshape, ok_bind, if_neg (by simpa using hsize),
    gather_cellNumbers, numbersAmong_of_empty]
  intro v hv
  obtain ⟨⟨w, hit⟩, hw, hv⟩ := List.mem_filterMap.1 hv
  obtain ⟨-, hv⟩ := Option.ite_none_right_eq_some.1 hv
  cases hv
  exact eq_empty_of_mem_blanked (List.of_mem_zip hw).1

/-- A function of what is picked that does not refuse to be given nothing is refused for its shapes only. -/
theorem ofMatchingAll_rejected_iff [RegexLibrary] {f : List Number → Outcome Number} (hf : f [] ≠ .error .value) :
    (∀ values' pairs', SameShapes values pairs values' pairs' →
      (ofMatchingAll f (values' :: asArguments pairs')).toValue = .error .value) ↔
      Misaligned (shapes pairs) ∨ ∃ a ∈ shapes pairs, cellCount a ≠ cellCount values.grid.dimensions := by
  constructor
  · intro hall
    by_contra hno
    push Not at hno
    obtain ⟨haligned, hcount⟩ := hno
    have hblank := hall (blanked values) pairs
      ⟨isRectangular_blanked hvalues, hranges, dimensions_blanked values, rfl⟩
    rw [ofMatchingAll, numbersWhereAll_blanked hpairs hvalues hranges haligned hcount, ok_bind] at hblank
    cases hresult : f [] with
    | ok x =>
      rw [hresult] at hblank
      cases hblank
    | error e =>
      rw [hresult] at hblank
      cases hblank
      exact hf hresult
  · intro h values' pairs' hsame
    rw [← hsame.shapes, ← hsame.dimensions] at h
    rw [ofMatchingAll, numbersWhereAll_rejected (hsame.ne_nil hpairs) hsame.rectangular hsame.rectangular_ranges h]
    rfl

/-! ## Calls -/

/-- Calls with ranges of different shapes give `#VALUE!` whatever the ranges hold: for counts if the ranges of the
criteria differ in rows or columns, and for sums and means just if these do or if the values are not as many as the
cells of each. So do calls in which a range or a criterion is left over. -/
theorem misaligned_rejected [RegexLibrary] :
    (Misaligned (shapes pairs) → Gives "COUNTIFS" (asArguments pairs) (.error .value)) ∧
    (∀ name ∈ ["SUMIFS", "AVERAGEIFS"],
      (∀ values' pairs', SameShapes values pairs values' pairs' →
        Gives name (values' :: asArguments pairs') (.error .value)) ↔
      Misaligned (shapes pairs) ∨ ∃ a ∈ shapes pairs, cellCount a ≠ cellCount values.grid.dimensions) ∧
    (∀ arguments, 2 ≤ arguments.length → arguments.length % 2 = 1 → Gives "COUNTIFS" arguments (.error .value)) ∧
    ∀ name ∈ ["SUMIFS", "AVERAGEIFS"], ∀ arguments, 3 ≤ arguments.length → arguments.length % 2 = 0 →
      Gives name arguments (.error .value) := by
  have hnothing : ∀ name ∈ ["SUMIFS", "AVERAGEIFS"], ∃ f : List Number → Outcome Number, f [] ≠ .error .value ∧
      ∀ {arguments v}, 3 ≤ arguments.length → (Gives name arguments v ↔ (ofMatchingAll f arguments).toValue = v) := by
    have hmean : mean [] ≠ .error .value := fun h => nomatch Except.error.inj h
    exact List.forall_mem_cons.2 ⟨⟨fun xs => .ok (sum xs), nofun, gives_sumIfs⟩,
      List.forall_mem_singleton.2 ⟨mean, hmean, gives_averageIfs⟩⟩
  refine ⟨fun h => ?_, fun name hname => ?_, fun arguments hlength hodd => ?_,
    fun name hname arguments hlength heven => ?_⟩
  · have hparity : ((asArguments pairs).length % 2 != 0) = false := by simp [length_asArguments]
    rw [gives_countIfs (two_le_length_asArguments hpairs), countIfs, hparity, hitsOfAll_of_misaligned h]
    rfl
  · obtain ⟨f, hf, hgives⟩ := hnothing name hname
    rw [← ofMatchingAll_rejected_iff hpairs hvalues hranges hf]
    exact forall₃_congr fun values' pairs' h => hgives (h.three_le_length hpairs)
  · rw [gives_countIfs hlength, countIfs, hodd]
    rfl
  · obtain ⟨f, -, hgives⟩ := hnothing name hname
    rw [hgives hlength, ofMatchingAll, numbersWhereAll, if_pos heven]
    rfl

end Accepted

/-! ### A row of values and a column of criteria -/

def rowOfTwo : Value := .array [[.number (1.0 : Float), .number (2.0 : Float)]]

def columnOfTwo : Value := .array [[.number (1.0 : Float)], [.number (2.0 : Float)]]

def columnOfThree : Value := .array [[.text "x"], [.error .ref], [.empty]]

/-- Criteria for a column of three cells and for a row of two. -/
def mixedCriteria : List (Value × Value) := [(columnOfThree, .text "x"), (rowOfTwo, .text ">1")]

theorem misaligned_rejected_mixed :
    mixedCriteria ≠ [] ∧ isRectangular rowOfTwo.grid ∧ (∀ p ∈ mixedCriteria, isRectangular p.1.grid) ∧
    Gives "COUNTIFS" [columnOfThree, .text "x", rowOfTwo, .text ">1"] (.error .value) ∧
    Gives "AVERAGEIFS" [rowOfTwo, columnOfThree, .text "x"] (.error .value) ∧
    Gives "SUMIFS" [rowOfTwo, rowOfTwo, .text ">1", rowOfTwo] (.error .value) := by
  have hranges : ∀ p ∈ mixedCriteria, isRectangular p.1.grid :=
    List.forall_mem_cons.2 ⟨rfl, List.forall_mem_singleton.2 rfl⟩
  have hfirst : ∀ p ∈ mixedCriteria.take 1, isRectangular p.1.grid := fun p hp => hranges p (List.mem_of_mem_take hp)
  have hmisaligned : Misaligned (shapes mixedCriteria) := ⟨(3, 1), by decide, (1, 2), by decide, by decide⟩
  have hcount : ∃ a ∈ shapes (mixedCriteria.take 1), cellCount a ≠ cellCount rowOfTwo.grid.dimensions :=
    ⟨(3, 1), by decide, by decide⟩
  obtain ⟨hcountIfs, -, -, hunpaired⟩ := @misaligned_rejected rowOfTwo _ (by decide) rfl hranges Regex.tables
  obtain ⟨-, hiff, -⟩ := @misaligned_rejected rowOfTwo _ (by decide) rfl hfirst Regex.tables
  exact ⟨by decide, rfl, hranges, hcountIfs hmisaligned,
    (hiff "AVERAGEIFS" (by decide)).2 (.inr hcount) rowOfTwo _ ⟨rfl, hfirst, rfl, rfl⟩,
    hunpaired "SUMIFS" (by decide) _ (by decide) rfl⟩

/-- A row of two values is picked by a criterion for a column of two cells. -/
theorem sumIfs_crossed :
    isRectangular rowOfTwo.grid ∧ isRectangular columnOfTwo.grid ∧
    rowOfTwo.grid.dimensions = (1, 2) ∧ columnOfTwo.grid.dimensions = (2, 1) ∧
    Gives "SUMIFS" [rowOfTwo, columnOfTwo, .text ">0"] (.number (3.0 : Float)) ∧
    ¬ ∀ (values : Value) (pairs : List (Value × Value)), pairs ≠ [] → isRectangular values.grid →
      (∀ p ∈ pairs, isRectangular p.1.grid) → Misaligned (values.grid.dimensions :: shapes pairs) →
      Gives "SUMIFS" (values :: asArguments pairs) (.error .value) := by
  have hsum : Gives "SUMIFS" [rowOfTwo, columnOfTwo, .text ">0"] (.number (3.0 : Float)) :=
    (@gives_sumIfs _ [_, _, _] _ (Nat.le_refl 3)).2 rfl
  refine ⟨rfl, rfl, rfl, rfl, hsum, fun h => ?_⟩
  have hmisaligned : Misaligned [(1, 2), (2, 1)] := ⟨(1, 2), by decide, (2, 1), by decide, by decide⟩
  have hrefused := h rowOfTwo [(columnOfTwo, .text ">0")] (List.cons_ne_nil _ _) rfl (List.forall_mem_singleton.2 rfl)
    hmisaligned
  cases hsum.unique hrefused

end Spreadsheet.Statistical
