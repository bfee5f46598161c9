import Spreadsheet.Proofs.ConditionalAggregates
import Spreadsheet.Proofs.TextArguments

/-!
# Order statistics

The smallest, largest and middle numbers of an array are read off its sorted numbers. No two numbers have the same key
of sorting, so there is one way to sort them, and the other direction is the same list from its end.

* `Binary64.Number.totalKey_injective` : the keys of sorting;
* `Statistical.ascending_perm`, `Statistical.ascending_pairwise`, `Statistical.descending_eq_reverse` : sorted numbers;
* `Statistical.atRank` : the number at a rank, or the error value;
* `Statistical.gives_small`, `Statistical.gives_large`, `Statistical.gives_median` : the calls on an array;
* `Statistical.OrderStatistics`, `Statistical.orderStatistics_agree` : the calls as ranks of one list.
-/

namespace Spreadsheet

open Binary64 (Number Represents represents_one)

/-! ## Keys of sorting -/

namespace Binary64

theorem toBits_injective : Function.Injective Float.toBits := by
  rintro ⟨⟨b, hb⟩⟩ ⟨⟨c, hc⟩⟩ (rfl : b = c)
  rfl

/-- The NaN of a float is the positive one. -/
theorem toBits_ne_ones (x : Float) : x.toBits ≠ 0xFFFFFFFFFFFFFFFF := by
  obtain ⟨⟨b, hb⟩⟩ := x
  rintro (rfl : b = 0xFFFFFFFFFFFFFFFF)
  exact absurd (hb.eq_packedNaN (by decide) (by decide)) (by decide)

theorem toNat_toBits_lt (x : Float) : x.toBits.toNat < 2 ^ 64 - 1 := by
  have hlt := x.toBits.toNat_lt
  have hne : x.toBits.toNat ≠ 2 ^ 64 - 1 := fun h => toBits_ne_ones x (UInt64.toNat_inj.1 h)
  omega

theorem totalKey_injective : Function.Injective totalKey := by
  intro x y h
  apply toBits_injective
  apply UInt64.toNat_inj.1
  unfold totalKey at h
  dsimp only at h
  split_ifs at h <;> omega

theorem lt_totalKey (x : Float) : -2 ^ 63 < totalKey x := by
  have hlt := toNat_toBits_lt x
  unfold totalKey
  dsimp only
  split_ifs <;> omega

namespace Number

theorem totalKey_injective : Function.Injective totalKey := by
  intro x y h
  cases x <;> cases y
  case ofFloat.ofFloat x y => exact congrArg ofFloat (Binary64.totalKey_injective h)
  case ofFloat.negativeNaN x => exact absurd h (lt_totalKey x).ne'
  case negativeNaN.ofFloat y => exact absurd h (lt_totalKey y).ne
  case negativeNaN.negativeNaN => rfl

theorem totalLe_iff {x y : Number} : x.totalLe y ↔ x.totalKey ≤ y.totalKey := decide_eq_true_iff

theorem totalLe_trans (x y z : Number) (hxy : x.totalLe y) (hyz : y.totalLe z) : x.totalLe z :=
  totalLe_iff.2 ((totalLe_iff.1 hxy).trans (totalLe_iff.1 hyz))

theorem totalLe_total (x y : Number) : (x.totalLe y || y.totalLe x) = true := by
  rw [Bool.or_eq_true, totalLe_iff, totalLe_iff]
  exact le_total _ _

theorem totalLe_antisymm {x y : Number} (hxy : x.totalLe y) (hyx : y.totalLe x) : x = y :=
  totalKey_injective ((totalLe_iff.1 hxy).antisymm (totalLe_iff.1 hyx))

end Number

end Binary64

namespace Statistical

open Binary64.Number (totalLe_trans totalLe_total totalLe_antisymm)

/-! ## Sorted numbers -/

section Sorted

variable (xs : List Number)

theorem ascending_perm : (ascending xs).Perm xs := List.mergeSort_perm xs _

theorem ascending_pairwise : (ascending xs).Pairwise fun x y => x.totalLe y :=
  List.pairwise_mergeSort totalLe_trans totalLe_total xs

theorem length_ascending : (ascending xs).length = xs.length := (ascending_perm xs).length_eq

/-- Both directions sort the same numbers, of which no two have one key. -/
theorem descending_eq_reverse : descending xs = (ascending xs).reverse := by
  have hsorted : (descending xs).Pairwise fun x y => y.totalLe x :=
    List.pairwise_mergeSort (fun x y z hxy hyz => totalLe_trans z y x hyz hxy) (fun x y => totalLe_total y x) xs
  have hperm : (descending xs).Perm (ascending xs).reverse :=
    (List.mergeSort_perm xs _).trans ((ascending_perm xs).symm.trans (List.reverse_perm _).symm)
  refine List.Perm.eq_of_pairwise ?_ hsorted (List.pairwise_reverse.2 (ascending_pairwise xs)) hperm
  exact fun x y _ _ hyx hxy => totalLe_antisymm hxy hyx

end Sorted

/-! ## Ranks -/

/-- A number, or the error value that stands for none. -/
def numberOrNum : Option Number → Value
  | some x => .number x
  | none => .error .num

/-- The number at a rank, which counts from one. -/
def atRank (sorted : List Number) (k : ℤ) : Value := numberOrNum (if k < 1 then none else sorted[(k - 1).toNat]?)

section Ranks

variable {sorted : List Number} {k : ℤ}

theorem atRank_succ {i : ℕ} (h : i < sorted.length) : atRank sorted (i + 1 : ℕ) = .number sorted[i] := by
  have hindex : ((i + 1 : ℕ) - 1 : ℤ).toNat = i := by omega
  rw [atRank, if_neg (by omega), hindex, List.getElem?_eq_getElem h]
  rfl

theorem atRank_outside (h : k < 1 ∨ sorted.length < k) : atRank sorted k = .error .num := by
  rw [atRank]
  split_ifs with hleast
  · rfl
  · rw [List.getElem?_eq_none (by omega)]
    rfl

theorem atRank_reverse {k : ℕ} (hleast : 1 ≤ k) (hmost : k ≤ sorted.length) :
    atRank sorted.reverse k = atRank sorted (sorted.length + 1 - k : ℕ) := by
  obtain ⟨i, rfl⟩ : ∃ i, k = i + 1 := ⟨k - 1, by omega⟩
  have hrank : sorted.length + 1 - (i + 1) = sorted.length - 1 - i + 1 := by omega
  have hi : i < sorted.reverse.length := by rwa [List.length_reverse]
  rw [hrank, atRank_succ hi, List.getElem_reverse, atRank_succ]

theorem numberOrNum_middle_odd (h : sorted.length % 2 = 1) :
    numberOrNum (middle sorted) = atRank sorted ((sorted.length + 1) / 2 : ℕ) := by
  have hrank : (sorted.length + 1) / 2 = sorted.length / 2 + 1 := by omega
  rw [hrank, atRank_succ (by omega), middle, if_neg (by omega), List.getElem?_eq_getElem (by omega)]
  rfl

theorem middle_even (h : sorted.length % 2 = 0) (hpos : 0 < sorted.length) :
    middle sorted = some ((sorted[sorted.length / 2 - 1] + sorted[sorted.length / 2]) / (2.0 : Float)) := by
  rw [middle, if_pos h, List.getElem?_eq_getElem (by omega), List.getElem?_eq_getElem (by omega)]
  rfl

end Ranks

/-! ## Calls on an array -/

variable {rows : List (List Value)} {sorted : List Number} {v w : Value} {k : ℤ} {x : Float}

/-- The numbers of an array. -/
def arrayNumbers (rows : List (List Value)) : List Number := rows.flatten.filterMap numeric?

theorem collectNumbers_array (hclean : ∀ v ∈ rows.flatten, v.isError = false) :
    collectNumbers [.array rows] = .ok (arrayNumbers rows) := by
  have herror : rows.flatten.findSome? Value.error? = none := by
    refine List.findSome?_eq_none_iff.2 fun v hv => ?_
    have hv := hclean v hv
    cases v with
    | error e => cases hv
    | _ => rfl
  have hcells : argumentNumbers (.array rows) = .ok (arrayNumbers rows) := by
    rw [argumentNumbers, gather_cellNumbers, numbersAmong, herror]
    rfl
  rw [collectNumbers, gather_cons, hcells, ok_bind]
  show Except.ok (_ ++ []) = _
  rw [List.append_nil]

theorem positiveIndex_of_lt (hx : Represents x k) (hk : k < 1) : positiveIndex x = .error .value := by
  have hlt : x < 1.0 := by
    rw [hx.lt_iff represents_one]
    exact_mod_cast hk
  rw [positiveIndex, decide_eq_true hlt, Bool.or_true, if_pos rfl]

theorem positiveIndex_of_le {n : ℕ} (hx : Represents x (n : ℤ)) (hn : 1 ≤ n) :
    positiveIndex x = .ok (min n (2 ^ 64 - 1)) := by
  have hge : ¬x < 1.0 := by
    rw [hx.lt_iff represents_one]
    exact_mod_cast hn.not_gt
  rw [positiveIndex, hx.isFinite, decide_eq_false hge, hx.toNat64Range]
  rfl

/-- A rank beyond what is read of it is beyond every list. -/
theorem kth_eq (hx : Represents x k) (hsize : sorted.length < 2 ^ 63) :
    (kth sorted x >>= fun y => pure (.number y)).toValue = atRank sorted k := by
  by_cases hk : k < 1
  · rw [kth, positiveIndex_of_lt hx hk, atRank, if_pos hk]
    rfl
  · obtain ⟨n, rfl⟩ : ∃ n : ℕ, k = n := ⟨k.toNat, by omega⟩
    have hindex : ((n : ℤ) - 1).toNat = n - 1 := by omega
    have hread : sorted[min n (2 ^ 64 - 1) - 1]? = sorted[n - 1]? := by
      by_cases hn : n ≤ sorted.length
      · rw [min_eq_left (by omega)]
      · rw [List.getElem?_eq_none (by omega), List.getElem?_eq_none (by omega)]
    rw [kth, positiveIndex_of_le hx (by omega), atRank, if_neg hk, hindex]
    dsimp only
    rw [hread]
    cases sorted[n - 1]? <;> rfl

section Calls

variable (hclean : ∀ v ∈ rows.flatten, v.isError = false)
include hclean

theorem gives_median [RegexLibrary] :
    Gives "MEDIAN" [.array rows] (numberOrNum (middle (ascending (arrayNumbers rows)))) := by
  rw [gives_aggregate_iff (i := 7) (g := ofNumbers median) rfl (List.cons_ne_nil _ _), ofNumbers,
    collectNumbers_array hclean, ok_bind, median]
  cases middle (ascending (arrayNumbers rows)) <;> rfl

variable (hsize : (arrayNumbers rows).length < 2 ^ 63)
include hsize

theorem ranked_eq {sort : List Number → List Number} (hsort : ∀ xs, (sort xs).length = xs.length) (hv : v.Holds k) :
    (ranked sort [.array rows, v]).toValue = atRank (sort (arrayNumbers rows)) k := by
  obtain ⟨x, rfl, hx⟩ := hv
  rw [← kth_eq hx (by rwa [hsort])]
  show (collectNumbers [.array rows] >>= fun xs => kth (sort xs) x >>= fun y => pure (.number y)).toValue = _
  rw [collectNumbers_array hclean, ok_bind]

theorem gives_small [RegexLibrary] (hv : v.Holds k) :
    Gives "SMALL" [.array rows, v] (atRank (ascending (arrayNumbers rows)) k) :=
  (gives_iff_of_getElem? (i := 16) rfl le_rfl (by simp)).2 (ranked_eq hclean hsize length_ascending hv)

theorem gives_large [RegexLibrary] (hv : v.Holds k) :
    Gives "LARGE" [.array rows, v] (atRank (ascending (arrayNumbers rows)).reverse k) := by
  have hsort : ∀ xs, (descending xs).length = xs.length := fun xs => List.length_mergeSort xs
  rw [← descending_eq_reverse]
  exact (gives_iff_of_getElem? (i := 15) rfl le_rfl (by simp)).2 (ranked_eq hclean hsize hsort hv)

end Calls

/-! ## Ranks of one list -/

/-- The calls on an array read their ranks, which are whole numbers, off one list: the largest ones from its end, and
the middle one half way. -/
structure OrderStatistics [RegexLibrary] (a : Value) (sorted : List Number) : Prop where
  small : ∀ (i : ℕ) (hi : i < sorted.length) v, v.Holds (i + 1 : ℕ) → Gives "SMALL" [a, v] (.number sorted[i])
  large : ∀ (k : ℕ) v w u, 1 ≤ k → k ≤ sorted.length → v.Holds k →
    w.Holds (sorted.length + 1 - k : ℕ) → (Gives "LARGE" [a, v] u ↔ Gives "SMALL" [a, w] u)
  outside : ∀ (k : ℤ) v, k < 1 ∨ sorted.length < k → v.Holds k →
    Gives "SMALL" [a, v] (.error .num) ∧ Gives "LARGE" [a, v] (.error .num)
  median_odd : sorted.length % 2 = 1 → ∀ v u, v.Holds ((sorted.length + 1) / 2 : ℕ) →
    (Gives "MEDIAN" [a] u ↔ Gives "SMALL" [a, v] u)
  median_even : sorted.length % 2 = 0 → 0 < sorted.length → ∀ v w, v.Holds (sorted.length / 2 : ℕ) →
    w.Holds (sorted.length / 2 + 1 : ℕ) → ∃ x y : Number, Gives "SMALL" [a, v] (.number x) ∧
    Gives "SMALL" [a, w] (.number y) ∧ Gives "MEDIAN" [a] (.number ((x + y) / (2.0 : Float)))
  median_none : sorted = [] → Gives "MEDIAN" [a] (.error .num)

theorem orderStatistics_ascending [RegexLibrary] (hclean : ∀ v ∈ rows.flatten, v.isError = false)
    (hsize : (arrayNumbers rows).length < 2 ^ 63) :
    OrderStatistics (.array rows) (ascending (arrayNumbers rows)) := by
  have hsmall : ∀ {k : ℤ} {v}, v.Holds k → Gives "SMALL" [.array rows, v] _ := gives_small hclean hsize
  have hlarge : ∀ {k : ℤ} {v}, v.Holds k → Gives "LARGE" [.array rows, v] _ := gives_large hclean hsize
  have hmedian := gives_median hclean
  generalize ascending (arrayNumbers rows) = sorted at hsmall hlarge hmedian
  constructor
  case small =>
    intro i hi v hv
    rw [← atRank_succ hi]
    exact hsmall hv
  case large =>
    intro k v w u hleast hmost hv hw
    rw [(hlarge hv).iff_eq, (hsmall hw).iff_eq, atRank_reverse hleast hmost]
  case outside =>
    intro k v hk hv
    have hsmall := hsmall hv
    have hlarge := hlarge hv
    rw [atRank_outside hk] at hsmall
    rw [atRank_outside (by rwa [List.length_reverse])] at hlarge
    exact ⟨hsmall, hlarge⟩
  case median_odd =>
    intro hodd v u hv
    rw [hmedian.iff_eq, (hsmall hv).iff_eq, numberOrNum_middle_odd hodd]
  case median_even =>
    intro heven hpos v w hv hw
    have hhalf : sorted.length / 2 = sorted.length / 2 - 1 + 1 := by omega
    rw [hhalf] at hv
    have hlow := hsmall hv
    have hhigh := hsmall hw
    rw [atRank_succ (by omega)] at hlow hhigh
    rw [middle_even heven hpos] at hmedian
    exact ⟨_, _, hlow, hhigh, hmedian⟩
  case median_none =>
    rintro rfl
    exact hmedian

/-- The numbers of an array without errors, however many there can be, have a rearrangement in the order of sorting
whose ranks the calls read. -/
theorem orderStatistics_agree [RegexLibrary] (hclean : ∀ v ∈ rows.flatten, v.isError = false)
    (hsize : (arrayNumbers rows).length < 2 ^ 63) :
    ∃ sorted : List Number, sorted.Perm (arrayNumbers rows) ∧ sorted.Pairwise (fun x y => x.totalLe y) ∧
      OrderStatistics (.array rows) sorted :=
  ⟨_, ascending_perm _, ascending_pairwise _, orderStatistics_ascending hclean hsize⟩

/-- A number that is there twice, and values that are no numbers in an array. -/
def gradeRows : List (List Value) :=
  [ [.number (3.0 : Float), .text "7"], [.number (3.0 : Float), .boolean true],
    [.number (1.0 : Float), .empty], [.number (-2.0 : Float), .text "none"] ]

/-- The middle of four numbers, both ranks of the number that is there twice, and a rank that is not there. -/
theorem orderStatistics_agree_grades :
    (∀ v ∈ gradeRows.flatten, v.isError = false) ∧ (arrayNumbers gradeRows).length < 2 ^ 63 ∧
    Gives "SMALL" [.array gradeRows, .ofInt 3] (.number (3.0 : Float)) ∧
    Gives "LARGE" [.array gradeRows, .ofInt 2] (.number (3.0 : Float)) ∧
    Gives "LARGE" [.array gradeRows, .ofInt 5] (.error .num) ∧
    Gives "MEDIAN" [.array gradeRows] (.number (2.0 : Float)) := by
  have hholds : ∀ n : ℕ, n < 2 ^ 53 → (Value.ofInt n).Holds n := fun n => Value.holds_ofInt_natCast
  have hclean : ∀ v ∈ gradeRows.flatten, v.isError = false := by decide
  have hsize : (arrayNumbers gradeRows).length < 2 ^ 63 := by decide
  obtain ⟨sorted, hperm, hsorted, hranks⟩ := orderStatistics_agree hclean hsize
  obtain rfl : sorted = [.ofFloat (-2.0), .ofFloat 1.0, .ofFloat 3.0, .ofFloat 3.0] := by
    have hreverse : sorted.Perm (arrayNumbers gradeRows).reverse := hperm.trans (List.reverse_perm _).symm
    refine List.Perm.eq_of_pairwise (fun x y _ _ hxy hyx => totalLe_antisymm hxy hyx) hsorted ?_ hreverse
    decide +kernel
  have hlow := hranks.small 1 (by decide) _ (hholds 2 (by norm_num))
  have hhigh := hranks.small 2 (by decide) _ (hholds 3 (by norm_num))
  have hlarge := (hranks.large 2 _ _ _ (by decide) (by decide) (hholds 2 (by norm_num))
    (hholds 3 (by norm_num))).2 hhigh
  have houtside := (hranks.outside 5 (.ofInt 5) (.inr (by decide)) (Value.holds_ofInt (by norm_num))).2
  obtain ⟨x, y, hx, hy, hmedian⟩ := hranks.median_even rfl (by decide) _ _ (hholds 2 (by norm_num))
    (hholds 3 (by norm_num))
  obtain rfl : .ofFloat 1.0 = x := Value.number.inj (hlow.unique hx)
  obtain rfl : .ofFloat 3.0 = y := Value.number.inj (hhigh.unique hy)
  have hhalf : (Number.ofFloat 1.0 + Number.ofFloat 3.0) / Number.ofFloat 2.0 = .ofFloat 2.0 :=
    Number.totalKey_injective (by decide +kernel)
  rw [hhalf] at hmedian
  exact ⟨hclean, hsize, hhigh, hlarge, houtside, hmedian⟩

end Statistical

end Spreadsheet
