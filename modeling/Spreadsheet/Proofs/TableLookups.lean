import Spreadsheet.Proofs.GridIndexes
import Spreadsheet.Proofs.Lookups
import Spreadsheet.Proofs.WholeNumbers

/-!
# Table lookups by place and entry

A lookup in a table is the entry at the place where its target stands in the first column. The place is a number there,
counted from one and read back as an index, which it is just as long as numbers are exact; what misses, and what cannot
be looked for, gives the same error value on both ways. A lookup along the first row is one in the transposed table,
whoever transposes it.

* `Lookup.indexOf_ofNat`, `Lookup.indexOf_of_positiveIndex` : numbers as indexes;
* `Grid.Transposed` : what makes a grid the transposed one;
* `Lookup.firstColumn` : the keys of a table as a grid of their own;
* `Lookup.tableLookups_agree` : lookups in tables agree with places and entries, and with each other.
-/

namespace Spreadsheet

/-! ## Numbers as indexes -/

namespace Lookup

open Binary64

theorem indexOf_eq {v : Value} {x : Float} {q : ℚ} (hv : numberOf v = .ok x) (hx : Represents x q) (hq : 0 ≤ q) :
    indexOf v = .ok (toNat64Range x) := by
  have hnonneg : ¬x < 0.0 := by
    rw [hx.lt_iff represents_zero]
    exact hq.not_gt
  obtain ⟨r, hr, hr0⟩ := represents_truncate hx hnonneg
  have htruncate : ¬truncate x < 0.0 := by
    rw [hr.lt_iff represents_zero]
    exact hr0.not_gt
  rw [indexOf, hv, ok_bind, if_neg htruncate]
  exact congrArg (fun z : ℤ => Except.ok z.toNat) (saturate_truncate x)

theorem toNat64Range_ofNat {n : ℕ} (hn : n < 2 ^ 53) : toNat64Range (Float.ofNat n) = n := by
  have hrepresents := represents_ofNat hn
  have hsaturate : saturate 0 (2 ^ 64 - 1) (Float.ofNat n) = max 0 (min (2 ^ 64 - 1) (n : ℤ)) :=
    saturate_of_represents (by exact_mod_cast hrepresents)
  rw [toNat64Range, hsaturate]
  omega

/-- A natural number is read back as an index. -/
theorem indexOf_ofNat {n : ℕ} (hn : n < 2 ^ 53) : indexOf (.number (Float.ofNat n)) = .ok n :=
  (indexOf_eq rfl (represents_ofNat hn) (Nat.cast_nonneg n)).trans (congrArg Except.ok (toNat64Range_ofNat hn))

/-- A positive number is read back as a count from one. -/
theorem positiveIndex_ofNat {n : ℕ} (hpos : 1 ≤ n) (hn : n < 2 ^ 53) : positiveIndex (Float.ofNat n) = .ok n := by
  have hrepresents := represents_ofNat hn
  have hone : ¬Float.ofNat n < 1.0 := by
    rw [hrepresents.lt_iff represents_one]
    exact_mod_cast Nat.not_lt.2 hpos
  have hvalid : (!(Float.ofNat n).isFinite || Float.ofNat n < 1.0) = false := by
    simpa [hrepresents.isFinite] using hone
  rw [positiveIndex, hvalid, toNat64Range_ofNat hn]
  rfl

/-- A count from one is an index. -/
theorem indexOf_of_positiveIndex {v : Value} {k : ℕ} (h : (numberOf v >>= positiveIndex) = .ok k) :
    indexOf v = .ok k := by
  obtain ⟨x, hx, hk⟩ := bind_eq_ok_iff.1 h
  unfold positiveIndex at hk
  split at hk
  · cases hk
  · rename_i hcount
    obtain ⟨hfinite, hone⟩ : x.isFinite = true ∧ ¬x < 1.0 := by simpa using hcount
    obtain ⟨q, hq⟩ := exists_represents hfinite
    rw [hq.lt_iff represents_one, not_lt] at hone
    exact (indexOf_eq hx hq (zero_le_one.trans hone)).trans hk

end Lookup

/-! ## Shapes -/

namespace Grid

variable {g h : Grid}

/-- A grid with the rows and columns of another one exchanged. -/
structure Transposed (g h : Grid) : Prop where
  length : h.length = g.width
  row_length : ∀ row ∈ h, row.length = g.length
  entry : ∀ i < g.width, ∀ j < g.length, h.entry i j = g.entry j i

theorem Transposed.eq_transpose (ht : Transposed g h) : h = g.transpose := by
  rw [transpose_eq_map_column]
  refine List.ext_getElem (by simpa using ht.length) fun i hi hi' => ?_
  have hwidth : i < g.width := by simpa using hi'
  have hrow : h[i].length = g.length := ht.row_length _ (List.getElem_mem hi)
  rw [List.getElem_map, List.getElem_range]
  refine List.ext_getElem (by rw [hrow, column, List.length_map]) fun j hj hj' => ?_
  have hlength : j < g.length := hrow ▸ hj
  have hentry := ht.entry i hwidth j hlength
  rw [Grid.entry, Grid.entry, List.getElem?_eq_getElem hi, List.getElem?_eq_getElem hlength, Option.getD_some,
    Option.getD_some, inRow, List.getElem?_eq_getElem hj, Option.getD_some] at hentry
  simp only [hentry, column, List.getElem_map]

theorem vector?_singletons (vs : List Value) : vector? (vs.map fun v => [v]) = some vs := by
  have hall : (vs.map fun v => [v]).all (·.length == 1) = true := by simp
  have hflatten : (vs.map fun v => [v]).flatten = vs := by rw [← List.flatMap_def, List.flatMap_singleton']
  unfold vector?
  split
  · rename_i row hrow
    rw [hrow, List.flatten_singleton] at hflatten
    rw [hflatten]
  · rw [if_pos hall, hflatten]

end Grid

/-! ## Lookups -/

namespace Lookup

variable {x t row column : Value} {k : ℕ}

theorem index_eq (ht : t.isError = false) (hcolumn : indexOf column = .ok k) :
    index [t, row, column] = indexOf row >>= fun i => part t.grid i k := by
  cases t with
  | error e => cases ht
  | _ =>
    show (indexOf row >>= fun i => indexOf column >>= fun j => part _ i j) = _
    rw [hcolumn]
    rfl

/-- The entry at a place that is there, counted from one. -/
theorem part_eq_entry {g : Grid} {i : ℕ} (hi : i < g.length) (hk : 1 ≤ k) (hwidth : k ≤ g.width) :
    part g (i + 1) k = .ok (g.entry i (k - 1)) := by
  obtain ⟨c, rfl⟩ := Nat.exists_eq_add_of_le' hk
  have hsize : (g.length < i + 1 || g.width < c + 1) = false := by simpa using ⟨hi, hwidth⟩
  rw [part, hsize]
  rfl

theorem listMode_ofTruth (approximate : Bool) : listMode (Value.ofTruth approximate) = tableMode approximate := by
  cases approximate <;> decide +kernel

/-- The first column of a table as a grid of its own. -/
def firstColumn (t : Value) : Value := .array ((t.grid.column 0).map fun v => [v])

theorem vertical_eq_index [RegexLibrary] (ht : t.isError = false)
    (hcolumn : (numberOf column >>= positiveIndex) = .ok k)
    (hk : 1 ≤ k) (hwidth : k ≤ t.grid.width) (hlength : t.grid.length < 2 ^ 53) (approximate : Bool) :
    vertical [x, t, column, .boolean approximate] =
      index [t, (position [x, firstColumn t, .number (Value.ofTruth approximate)]).toValue, column] := by
  have hkeys : (firstColumn t).grid.vector? = some (t.grid.column 0) := Grid.vector?_singletons _
  have hvertical : vertical [x, t, column, .boolean approximate] = (do
      let target ← Target.ofValue x (tableMode approximate).wildcards
      let i ← (tableMode approximate).placeOr target (t.grid.column 0)
      return t.grid.entry i (k - 1)) := inTable_eq rfl hcolumn hwidth
  have hposition : position [x, firstColumn t, .number (Value.ofTruth approximate)] = (do
      let target ← Target.ofValue x (listMode (Value.ofTruth approximate)).wildcards
      let i ← (listMode (Value.ofTruth approximate)).placeOr target (t.grid.column 0)
      return .number (Float.ofNat (i + 1))) := position_eq hkeys rfl
  rw [index_eq ht (indexOf_of_positiveIndex hcolumn), hvertical, hposition, listMode_ofTruth]
  cases Target.ofValue x (tableMode approximate).wildcards with
  | error e => rfl
  | ok target =>
    rw [ok_bind, ok_bind]
    cases hplace : (tableMode approximate).placeOr target (t.grid.column 0) with
    | error e => rfl
    | ok i =>
      have hi : i < t.grid.length := by simpa [Grid.column] using Mode.placeOr_lt hplace
      have hindex : indexOf (.number (Float.ofNat (i + 1))) = .ok (i + 1) := indexOf_ofNat (by omega)
      show .ok _ = indexOf (.number (Float.ofNat (i + 1))) >>= _
      rw [hindex, ok_bind, part_eq_entry hi hk hwidth]

theorem horizontal_eq_vertical [RegexLibrary] {t' : Value} (ht : t.grid.Transposed t'.grid) (rest : List Value) :
    horizontal (x :: t :: rest) = vertical (x :: t' :: rest) := by
  have hgrid : t'.grid = t.grid.transpose := ht.eq_transpose
  show inTable (x :: t :: rest) t.grid.transpose = inTable (x :: t' :: rest) t'.grid
  rw [hgrid]
  rfl

/-- In a table of fewer than `2 ^ 53` rows, so that row numbers are exact, a lookup down the first column is the entry
in the row where the target is found among the keys of that column. A lookup along the first row of a table is one down
the first column of its transpose. -/
theorem tableLookups_agree [RegexLibrary] :
    (∀ (x t column : Value) (k : ℕ) (approximate : Bool), t.isError = false →
      (numberOf column >>= positiveIndex) = .ok k → 1 ≤ k → k ≤ t.grid.width → t.grid.length < 2 ^ 53 →
      vertical [x, t, column, .boolean approximate] =
        index [t, (position [x, firstColumn t, .number (Value.ofTruth approximate)]).toValue, column]) ∧
    ∀ (x t t' : Value) (rest : List Value), t.grid.Transposed t'.grid →
      horizontal (x :: t :: rest) = vertical (x :: t' :: rest) :=
  ⟨fun _ _ _ _ approximate ht hcolumn hk hwidth hlength =>
    vertical_eq_index ht hcolumn hk hwidth hlength approximate, fun _ _ _ rest ht => horizontal_eq_vertical ht rest⟩

/-- A table of two rows, and the same with rows and columns exchanged. -/
def pairsTable : Grid := [[.number (1.0 : Float), .text "one"], [.number (2.0 : Float), .text "two"]]

def pairsTransposed : Grid :=
  [[.number (1.0 : Float), .number (2.0 : Float)], [.text "one", .text "two"]]

theorem tableLookups_agree_pairs :
    Value.isError (.array pairsTable) = false ∧
    (numberOf (.number (Float.ofNat 2)) >>= positiveIndex) = .ok 2 ∧
    pairsTable.Transposed pairsTransposed ∧
    vertical [.number (2.5 : Float), .array pairsTable, .number (Float.ofNat 2), .boolean true] =
      index [.array pairsTable, (position [.number (2.5 : Float), firstColumn (.array pairsTable),
        .number (Value.ofTruth true)]).toValue, .number (Float.ofNat 2)] ∧
    horizontal [.error .num, .array pairsTable, .number (Float.ofNat 2), .boolean false] =
      vertical [.error .num, .array pairsTransposed, .number (Float.ofNat 2), .boolean false] := by
  have hcolumn : (numberOf (.number (Float.ofNat 2)) >>= positiveIndex) = .ok 2 :=
    positiveIndex_ofNat one_le_two (by norm_num)
  have htransposed : pairsTable.Transposed pairsTransposed := by
    refine ⟨rfl, by decide, fun i hi j hj => ?_⟩
    have hi : i < 2 := hi
    have hj : j < 2 := hj
    interval_cases i <;> interval_cases j <;> simp [Grid.entry, Grid.inRow, pairsTable, pairsTransposed]
  have hlength : (Value.array pairsTable).grid.length < 2 ^ 53 := by
    show 2 < 2 ^ 53
    norm_num
  obtain ⟨hvertical, hhorizontal⟩ := tableLookups_agree
  refine ⟨rfl, hcolumn, htransposed, ?_, ?_⟩
  · exact hvertical _ (.array pairsTable) _ 2 true rfl hcolumn one_le_two le_rfl hlength
  · exact hhorizontal _ (.array pairsTable) (.array pairsTransposed) _ htransposed

end Lookup

end Spreadsheet
