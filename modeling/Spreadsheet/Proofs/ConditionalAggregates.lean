import Spreadsheet.Proofs.GridIndexes
import Spreadsheet.Proofs.Lookups

/-!
# Conditional aggregates

With one criterion a range is walked cell by cell, and the values are looked up at the same places. With several ones
every range becomes a list of hits, these are put together, and the values are taken where the whole list has a hit. On
ranges of one shape both ways visit the same places in the same order, so they pick the same cells and meet the same
error value first.

* `Grid.places`, `Grid.flatten_eq_map_places` : the places of a grid, and its values in their order;
* `Statistical.numbersAmong` : the numbers among some cells, or the first error value;
* `Statistical.hitsOfAll_eq`, `Statistical.numbersWhereAll_eq`, `Statistical.numbersWhere_eq` : what criteria pick;
* `Statistical.conditionalAggregates_agree` : all of them aggregate the cells at the places where all criteria are met.
-/

namespace Spreadsheet

open Binary64 (Number)
open Formula (isRectangular)

/-! ## Places of a grid -/

namespace Grid

/-- The places of a grid, row by row. -/
def places (rows columns : Nat) : List (Nat × Nat) :=
  (List.range rows).flatMap fun r => (List.range columns).map fun c => (r, c)

theorem mem_places {rows columns : Nat} {place : Nat × Nat} :
    place ∈ places rows columns ↔ place.1 < rows ∧ place.2 < columns := by
  obtain ⟨r, c⟩ := place
  simp [places]

theorem length_places (rows columns : Nat) : (places rows columns).length = rows * columns := by
  simp [places, List.length_flatMap, List.map_const']

theorem zipIdx_eq_map_range {α : Type} (xs : List α) (default : α) :
    xs.zipIdx = (List.range xs.length).map fun i => (xs[i]?.getD default, i) := by
  refine List.ext_getElem (by simp) fun i hi hi' => ?_
  have hlength : i < xs.length := by simpa using hi
  simp [hlength]

variable {g : Grid}

/-- The values of a rectangular grid are those at its places. -/
theorem flatten_eq_map_places (h : isRectangular g) :
    g.flatten = (places g.length g.width).map fun place => g.entry place.1 place.2 := by
  have hrow : ∀ r ∈ List.range g.length, g[r]?.getD [] = (List.range g.width).map (g.entry r) := by
    intro r hr
    have hr : r < g.length := List.mem_range.1 hr
    have hentry : g.entry r = inRow g[r] := by
      funext c
      rw [entry, List.getElem?_eq_getElem hr, Option.getD_some]
    rw [hentry, ← length_eq_width h _ (List.getElem_mem hr), map_inRow_range, List.getElem?_eq_getElem hr,
      Option.getD_some]
  conv_lhs => rw [← map_getD_range g []]
  rw [places, List.map_flatMap, List.flatMap_def]
  congr 1
  refine List.map_congr_left fun r hr => ?_
  rw [List.map_map]
  exact hrow r hr

theorem length_flatten (h : isRectangular g) : g.flatten.length = g.length * g.width := by
  rw [flatten_eq_map_places h, List.length_map, length_places]

/-- A walk through the rows of a rectangular grid, and through the cells of each, visits its places. -/
theorem flatMap_zipIdx_eq {β : Type} (h : isRectangular g) (f : Value → Nat × Nat → Option β) :
    (g.zipIdx.flatMap fun (row, r) => row.zipIdx.filterMap fun (v, c) => f v (r, c)) =
      (places g.length g.width).filterMap fun place => f (g.entry place.1 place.2) place := by
  rw [zipIdx_eq_map_range g [], List.flatMap_map, places, List.filterMap_flatMap]
  refine List.flatMap_congr fun r hr => ?_
  have hr : r < g.length := List.mem_range.1 hr
  dsimp only
  rw [zipIdx_eq_map_range _ Value.empty, List.filterMap_map, List.filterMap_map, List.getElem?_eq_getElem hr,
    Option.getD_some, length_eq_width h _ (List.getElem_mem hr)]
  refine List.filterMap_congr fun c hc => ?_
  simp [entry, inRow, List.getElem?_eq_getElem hr]

end Grid

namespace Statistical

/-! ## Numbers among cells -/

/-- The number of a cell. -/
def numeric? : Value → Option Number
  | .number x => some x
  | _ => none

/-- The numbers among some cells, or the first error value among them. -/
def numbersAmong (cells : List Value) : Outcome (List Number) :=
  match cells.findSome? Value.error? with
  | some e => .error e
  | none => .ok (cells.filterMap numeric?)

theorem gather_cons (adds : Value → Outcome (List Number)) (v : Value) (vs : List Value) :
    gather adds (v :: vs) = adds v >>= fun xs => (xs ++ ·) <$> gather adds vs := by
  simp only [gather, List.mapM_cons, bind_assoc, pure_bind, List.flatten_cons, map_eq_pure_bind]

theorem numbersAmong_cons (v : Value) (cells : List Value) :
    numbersAmong (v :: cells) = cellNumbers v >>= fun xs => (xs ++ ·) <$> numbersAmong cells := by
  cases v with
  | error e => rfl
  | _ =>
    simp only [numbersAmong, List.findSome?_cons, List.filterMap_cons, Value.error?, numeric?, cellNumbers]
    cases cells.findSome? Value.error? <;> rfl

theorem gather_cellNumbers (cells : List Value) : gather cellNumbers cells = numbersAmong cells := by
  induction cells with
  | nil => rfl
  | cons v cells ih => rw [gather_cons, ih, numbersAmong_cons]

theorem numbersAmong_of_empty {cells : List Value} (h : ∀ v ∈ cells, v = .empty) : numbersAmong cells = .ok [] := by
  have herror : cells.findSome? Value.error? = none := List.findSome?_eq_none_iff.2 fun v hv => by rw [h v hv]; rfl
  rw [numbersAmong, herror, List.filterMap_eq_nil_iff.2 fun v hv => by rw [h v hv]; rfl]

/-! ## Hits -/

section Hits

variable {rows columns : Nat} {pairs : List (Grid × Criterion)} {p q : Grid × Criterion}

/-- Whether a range has a cell at a place that its criterion accepts. -/
def meets (q : Grid × Criterion) (place : Nat × Nat) : Bool := q.2.accepts (q.1.entry place.1 place.2)

theorem hits_eq (hq : isRectangular q.1) (hshape : q.1.dimensions = (rows, columns)) :
    hits q = (Grid.places rows columns).map (meets q) := by
  obtain ⟨rfl, rfl⟩ := Prod.mk.inj hshape
  rw [hits, Grid.flatten_eq_map_places hq, List.map_map]
  rfl

/-- Lists of hits at the same places are put together place by place. -/
theorem foldl_zipWith_and {places : List (Nat × Nat)} (hpairs : ∀ q ∈ pairs, hits q = places.map (meets q))
    (mask : Nat × Nat → Bool) :
    pairs.foldl (fun mask q => List.zipWith and mask (hits q)) (places.map mask) =
      places.map fun place => mask place && pairs.all fun q => meets q place := by
  induction pairs generalizing mask with
  | nil => simp
  | cons q qs ih =>
    obtain ⟨hq, hqs⟩ := List.forall_mem_cons.1 hpairs
    rw [List.foldl_cons, hq, List.zipWith_map, List.zipWith_self, ih hqs]
    simp only [List.all_cons, Bool.and_assoc]

theorem hitsOfAll_eq (hpairs : pairs ≠ []) (h : ∀ q ∈ pairs, isRectangular q.1 ∧ q.1.dimensions = (rows, columns)) :
    hitsOfAll pairs = .ok ((Grid.places rows columns).map fun place => pairs.all fun q => meets q place) := by
  cases pairs with
  | nil => exact absurd rfl hpairs
  | cons q qs =>
    obtain ⟨⟨hq, hshape⟩, hqs⟩ := List.forall_mem_cons.1 h
    have hsame : (qs.any fun other => other.1.dimensions != q.1.dimensions) = false :=
      List.any_eq_false.2 fun other ho => by simp [(hqs other ho).2, hshape]
    rw [hitsOfAll, hsame, if_neg Bool.false_ne_true, hits_eq hq hshape,
      foldl_zipWith_and fun q hq => hits_eq (hqs q hq).1 (hqs q hq).2]
    rfl

theorem hitsOfAll_eq_error (hp : p ∈ pairs) (hq : q ∈ pairs) (h : p.1.dimensions ≠ q.1.dimensions) :
    hitsOfAll pairs = .error .value := by
  cases pairs with
  | nil => cases hp
  | cons r rs =>
    have hother : ∃ other ∈ rs, other.1.dimensions ≠ r.1.dimensions := by
      by_contra hall
      push Not at hall
      have hsame : ∀ other ∈ r :: rs, other.1.dimensions = r.1.dimensions := List.forall_mem_cons.2 ⟨rfl, hall⟩
      exact h ((hsame p hp).trans (hsame q hq).symm)
    exact if_pos (List.any_eq_true.2 (by simpa using hother))

end Hits

/-! ## Ranges with criteria as arguments -/

/-- A rectangular range of so many rows and columns. -/
structure HasShape (rows columns : Nat) (v : Value) : Prop where
  rectangular : isRectangular v.grid
  dimensions : v.grid.dimensions = (rows, columns)

/-- Ranges and their criteria as the arguments of a call. -/
def asArguments (pairs : List (Value × Value)) : List Value := pairs.flatMap fun p => [p.1, p.2]

/-- The places where all ranges have cells that meet their criteria, row by row. -/
def pickedPlaces [RegexLibrary] (rows columns : Nat) (pairs : List (Value × Value)) : List (Nat × Nat) :=
  (Grid.places rows columns).filter fun place =>
    pairs.all fun p => (Criterion.ofValue p.2).accepts (p.1.grid.entry place.1 place.2)

/-- The cells of a range at some places. -/
def cellsAt (values : Value) (places : List (Nat × Nat)) : List Value :=
  places.map fun place => values.grid.entry place.1 place.2

variable {rows columns : Nat} {values range c : Value} {pairs : List (Value × Value)}

theorem length_asArguments (pairs : List (Value × Value)) : (asArguments pairs).length = 2 * pairs.length := by
  simp [asArguments, Nat.mul_comm]

theorem criteriaPairs_asArguments [RegexLibrary] (pairs : List (Value × Value)) :
    criteriaPairs (asArguments pairs) = pairs.map fun p => (p.1.grid, Criterion.ofValue p.2) := by
  induction pairs with
  | nil => rfl
  | cons p pairs ih => exact congrArg _ ih

theorem filterMap_zip_map {places : List (Nat × Nat)} (cell : Nat × Nat → Value) (mask : Nat × Nat → Bool) :
    ((places.map cell).zip (places.map mask)).filterMap (fun (v, hit) => if hit then some v else none) =
      (places.filter mask).map cell := by
  rw [List.zip_map', List.filterMap_map, ← List.filterMap_eq_map, List.filterMap_filter]
  rfl

/-- The hits are compared with the values by their number only. -/
theorem numbersWhereAll_asArguments [RegexLibrary] (values : Value) (pairs : List (Value × Value)) :
    numbersWhereAll (values :: asArguments pairs) = hitsOfAll (criteriaPairs (asArguments pairs)) >>= fun mask =>
      if mask.length ≠ values.grid.flatten.length then .error .value
      else gather cellNumbers
        ((values.grid.flatten.zip mask).filterMap fun (v, hit) => if hit then some v else none) := by
  have hparity : ¬(values :: asArguments pairs).length % 2 = 0 := by
    rw [List.length_cons, length_asArguments]
    omega
  rw [numbersWhereAll, if_neg hparity]
  simp only [← bne_iff_ne]
  rfl

section Shape

variable (hpairs : pairs ≠ []) (hranges : ∀ p ∈ pairs, HasShape rows columns p.1)
  (hvalues : HasShape rows columns values)

include hpairs hranges

theorem hitsOfAll_asArguments [RegexLibrary] : hitsOfAll (criteriaPairs (asArguments pairs)) =
    .ok ((Grid.places rows columns).map fun place =>
      pairs.all fun p => (Criterion.ofValue p.2).accepts (p.1.grid.entry place.1 place.2)) := by
  have hshapes : ∀ q ∈ pairs.map (fun p => ((p.1.grid : Grid), Criterion.ofValue p.2)),
      isRectangular q.1 ∧ q.1.dimensions = (rows, columns) :=
    List.forall_mem_map.2 fun p hp => ⟨(hranges p hp).rectangular, (hranges p hp).dimensions⟩
  rw [criteriaPairs_asArguments, hitsOfAll_eq (by simpa using hpairs) hshapes]
  simp only [List.all_map]
  rfl

theorem countIfs_eq [RegexLibrary] :
    countIfs (asArguments pairs) = .ok (countOf (pickedPlaces rows columns pairs).length) := by
  have hparity : ((asArguments pairs).length % 2 != 0) = false := by simp [length_asArguments]
  rw [countIfs, hparity, hitsOfAll_asArguments hpairs hranges]
  show Except.ok (countOf _) = _
  rw [List.countP_map, List.countP_eq_length_filter]
  rfl

include hvalues

theorem numbersWhereAll_eq [RegexLibrary] : numbersWhereAll (values :: asArguments pairs) =
    numbersAmong (cellsAt values (pickedPlaces rows columns pairs)) := by
  obtain ⟨rfl, rfl⟩ := Prod.mk.inj hvalues.dimensions
  rw [numbersWhereAll_asArguments, hitsOfAll_asArguments hpairs hranges, ok_bind,
    Grid.flatten_eq_map_places hvalues.rectangular, if_neg (by simp), filterMap_zip_map, gather_cellNumbers]
  rfl

end Shape

/-! ### One criterion -/

theorem countIf_eq [RegexLibrary] (hrange : HasShape rows columns range) :
    countIf [range, c] = .ok (countOf (pickedPlaces rows columns [(range, c)]).length) := by
  have hcells : scalars [range] = range.grid.flatten := by cases range <;> simp [scalars, cellsOf, Value.grid]
  obtain ⟨rfl, rfl⟩ := Prod.mk.inj hrange.dimensions
  show Except.ok (countOf ((scalars [range]).countP _)) = _
  rw [hcells, Grid.flatten_eq_map_places hrange.rectangular, List.countP_map, List.countP_eq_length_filter]
  simp [pickedPlaces, Function.comp_def, argAt]

theorem numbersWhere_eq [RegexLibrary] (hrange : HasShape rows columns range) (hvalues : HasShape rows columns values) :
    numbersWhere range.grid (.ofValue c) values.grid =
      numbersAmong (cellsAt values (pickedPlaces rows columns [(range, c)])) := by
  obtain ⟨rfl, rfl⟩ := Prod.mk.inj hrange.dimensions
  obtain ⟨hlength, hwidth⟩ := Prod.mk.inj hvalues.dimensions
  have hentry : ∀ place ∈ Grid.places range.grid.length range.grid.width,
      values.grid.cells.get? place.1 place.2 = some (values.grid.entry place.1 place.2) := by
    intro place hplace
    rw [Grid.mem_places, ← hlength, ← hwidth] at hplace
    obtain ⟨hr, hc⟩ := hplace
    rw [← Grid.length_eq_width hvalues.rectangular _ (List.getElem_mem hr)] at hc
    rw [Grid.get?_cells, Grid.entry, Grid.inRow, List.getElem?_eq_getElem hr, Option.bind_some, Option.getD_some,
      List.getElem?_eq_getElem hc, Option.getD_some]
  rw [numbersWhere]
  dsimp only
  rw [Grid.flatMap_zipIdx_eq hrange.rectangular fun v place =>
      if (Criterion.ofValue c).accepts v then some (values.grid.cells.get? place.1 place.2) else none,
    pickedNumbers, gather_cellNumbers, List.filterMap_filterMap, cellsAt, pickedPlaces, ← List.filterMap_eq_map,
    List.filterMap_filter]
  congr 1
  refine List.filterMap_congr fun place hplace => ?_
  rw [hentry place hplace]
  simp only [List.all_cons, List.all_nil, Bool.and_true]
  split <;> rfl

/-! ## Agreement -/

/-- The sum of some numbers, or the error value that stands in their place. -/
def sumOf : Outcome (List Number) → Value
  | .ok xs => .number (sum xs)
  | .error e => .error e

/-- The mean of some numbers, or the error value that stands in their place; no numbers have no mean. -/
def meanOf : Outcome (List Number) → Value
  | .ok [] => .error .divisionByZero
  | .ok xs => .number (sum xs / size xs)
  | .error e => .error e

theorem toValue_sum (picked : Outcome (List Number)) :
    Outcome.toValue (picked >>= fun xs => .ok (sum xs) >>= fun x => pure (.number x)) = sumOf picked := by
  cases picked <;> rfl

theorem toValue_mean (picked : Outcome (List Number)) :
    Outcome.toValue (picked >>= fun xs => mean xs >>= fun x => pure (.number x)) = meanOf picked := by
  cases picked with
  | error e => rfl
  | ok xs => cases xs <;> rfl

/-- The aggregates of several criteria count, add up and average the cells at some places, in their order. -/
structure Aggregates [RegexLibrary] (pairs : List (Value × Value)) (values : Value) (places : List (Nat × Nat)) :
    Prop where
  count : Gives "COUNTIFS" (asArguments pairs) (.number (Float.ofNat places.length))
  sum : Gives "SUMIFS" (values :: asArguments pairs) (sumOf (numbersAmong (cellsAt values places)))
  mean : Gives "AVERAGEIFS" (values :: asArguments pairs) (meanOf (numbersAmong (cellsAt values places)))

/-! ### The functions by name -/

section Names

variable {v : Value} {arguments : List Value}

theorem gives_countIf [RegexLibrary] : Gives "COUNTIF" [range, c] v ↔ (countIf [range, c]).toValue = v :=
  gives_iff_of_getElem? (i := 17) rfl (Nat.le_refl 2) (by simp)

theorem gives_sumIf [RegexLibrary] : Gives "SUMIF" [range, c, values] v ↔
    (ofMatching (fun xs => .ok (sum xs)) [range, c, values]).toValue = v :=
  gives_iff_of_getElem? (i := 18) rfl (Nat.le_succ 2) (by simp)

theorem gives_averageIf [RegexLibrary] : Gives "AVERAGEIF" [range, c, values] v ↔
    (ofMatching mean [range, c, values]).toValue = v :=
  gives_iff_of_getElem? (i := 19) rfl (Nat.le_succ 2) (by simp)

theorem gives_countIfs [RegexLibrary] (h : 2 ≤ arguments.length) : Gives "COUNTIFS" arguments v ↔
    (countIfs arguments).toValue = v :=
  gives_iff_of_getElem? (i := 20) rfl h nofun

theorem gives_sumIfs [RegexLibrary] (h : 3 ≤ arguments.length) : Gives "SUMIFS" arguments v ↔
    (ofMatchingAll (fun xs => .ok (sum xs)) arguments).toValue = v :=
  gives_iff_of_getElem? (i := 21) rfl h nofun

theorem gives_averageIfs [RegexLibrary] (h : 3 ≤ arguments.length) : Gives "AVERAGEIFS" arguments v ↔
    (ofMatchingAll mean arguments).toValue = v :=
  gives_iff_of_getElem? (i := 22) rfl h nofun

end Names

theorem two_le_length_asArguments (hpairs : pairs ≠ []) : 2 ≤ (asArguments pairs).length := by
  have := List.length_pos_iff.2 hpairs
  rw [length_asArguments]
  omega

theorem aggregates_pickedPlaces [RegexLibrary] (hpairs : pairs ≠ []) (hranges : ∀ p ∈ pairs, HasShape rows columns p.1)
    (hvalues : HasShape rows columns values) : Aggregates pairs values (pickedPlaces rows columns pairs) := by
  have hlength := two_le_length_asArguments hpairs
  have hlength' : 3 ≤ (values :: asArguments pairs).length := Nat.succ_le_succ hlength
  have hnumbers := numbersWhereAll_eq hpairs hranges hvalues
  constructor
  · rw [gives_countIfs hlength, countIfs_eq hpairs hranges]
    rfl
  · rw [gives_sumIfs hlength', ofMatchingAll, hnumbers, toValue_sum]
  · rw [gives_averageIfs hlength', ofMatchingAll, hnumbers, toValue_mean]

theorem pickedPlaces_perm [RegexLibrary] {pairs' : List (Value × Value)} (h : pairs'.Perm pairs) :
    pickedPlaces rows columns pairs' = pickedPlaces rows columns pairs := by
  refine List.filter_congr fun place _ => ?_
  rw [Bool.eq_iff_iff, List.all_eq_true, List.all_eq_true]
  exact ⟨fun hall p hp => hall p (h.mem_iff.2 hp), fun hall p hp => hall p (h.mem_iff.1 hp)⟩

/-- On ranges of one shape the aggregates of several criteria are about the cells of the values at the places where all
criteria are met, in whatever order the criteria are given, and with one criterion they are those of that criterion. -/
theorem conditionalAggregates_agree [RegexLibrary] (hpairs : pairs ≠ [])
    (hranges : ∀ p ∈ pairs, HasShape rows columns p.1) (hvalues : HasShape rows columns values) :
    Aggregates pairs values (pickedPlaces rows columns pairs) ∧
    (∀ pairs', pairs'.Perm pairs → Aggregates pairs' values (pickedPlaces rows columns pairs)) ∧
    ∀ range c, pairs = [(range, c)] →
      Gives "COUNTIF" [range, c] (.number (Float.ofNat (pickedPlaces rows columns pairs).length)) ∧
      Gives "SUMIF" [range, c, values] (sumOf (numbersAmong (cellsAt values (pickedPlaces rows columns pairs)))) ∧
      Gives "AVERAGEIF" [range, c, values]
        (meanOf (numbersAmong (cellsAt values (pickedPlaces rows columns pairs)))) := by
  refine ⟨aggregates_pickedPlaces hpairs hranges hvalues, fun pairs' h => ?_, ?_⟩
  · have hpairs' : pairs' ≠ [] := fun hnil => hpairs (List.perm_nil.1 (hnil ▸ h.symm))
    rw [← pickedPlaces_perm h]
    exact aggregates_pickedPlaces hpairs' (fun p hp => hranges p (h.mem_iff.1 hp)) hvalues
  · rintro range c rfl
    have hrange : HasShape rows columns range := hranges _ List.mem_cons_self
    have hnumbers : matchingNumbers [range, c, values] =
        numbersAmong (cellsAt values (pickedPlaces rows columns [(range, c)])) := numbersWhere_eq hrange hvalues
    refine ⟨?_, ?_, ?_⟩
    · rw [gives_countIf, countIf_eq hrange]
      rfl
    · rw [gives_sumIf, ofMatching, hnumbers, toValue_sum]
    · rw [gives_averageIf, ofMatching, hnumbers, toValue_mean]

/-- Ranges of two rows and two columns, with a criterion for the first and one for the second. -/
def orderCriteria : List (Value × Value) :=
  [ (.array [[.text "pen", .text "ink"], [.text "PEN", .text "Pen"]], .text "pen"),
    (.array [[.number (5.0 : Float), .empty], [.number (1.0 : Float), .number (9.0 : Float)]], .text ">=5") ]

def orderPrices : Value := .array [[.number (10.0 : Float), .error .num], [.error .ref, .text "free"]]

/-- The criteria together pick the first and the last cell, and the errors between them do not count. -/
theorem conditionalAggregates_agree_orders :
    orderCriteria ≠ [] ∧ (∀ p ∈ orderCriteria, HasShape 2 2 p.1) ∧ HasShape 2 2 orderPrices ∧
    Gives "COUNTIFS" (asArguments orderCriteria) (.number (2.0 : Float)) ∧
    Gives "SUMIFS" (orderPrices :: asArguments orderCriteria.reverse) (.number (10.0 : Float)) ∧
    Gives "AVERAGEIF" [.array [[.text "pen", .text "ink"], [.text "PEN", .text "Pen"]], .text "pen", orderPrices]
      (.error .ref) := by
  have hshapes : ∀ p ∈ orderCriteria, HasShape 2 2 p.1 :=
    List.forall_mem_cons.2 ⟨⟨rfl, rfl⟩, List.forall_mem_singleton.2 ⟨rfl, rfl⟩⟩
  have hprices : HasShape 2 2 orderPrices := ⟨rfl, rfl⟩
  have hplaces : pickedPlaces 2 2 orderCriteria = [(0, 0), (1, 1)] := by decide +kernel
  obtain ⟨hall, hperm, -⟩ := conditionalAggregates_agree (by decide) hshapes hprices
  have hshape : ∀ p ∈ orderCriteria.take 1, HasShape 2 2 p.1 := fun p hp => hshapes p (List.mem_of_mem_take hp)
  have hfirst := conditionalAggregates_agree (by decide) hshape hprices
  have hpen : pickedPlaces 2 2 (orderCriteria.take 1) = [(0, 0), (1, 0), (1, 1)] := by decide +kernel
  have hsum := (hperm orderCriteria.reverse (List.reverse_perm _)).sum
  have hcount := hall.count
  have hmean := (hfirst.2.2 _ _ rfl).2.2
  rw [hplaces] at hsum hcount
  rw [hpen] at hmean
  exact ⟨by decide, hshapes, hprices, hcount, hsum, hmean⟩

end Statistical

end Spreadsheet
