import Mathlib.Data.List.Nodup
import Spreadsheet.Proofs.CollectedNumbers
import Spreadsheet.Proofs.FloatOrder

/-!
# The most frequent number

A scan through some numbers, each of them once, keeps the one that occurs most often so far, and changes it only for one
that occurs more often. How often a number occurs is counted in the whole list from the start, so numbers that come
again change nothing, and what the scan has found among the numbers passed is the first of them that occurs most often.

* `FirstPeak` : an element with the largest count, in front of which all counts are smaller;
* `Statistical.Found` : what the scan has found; `Statistical.Found.step`, `Statistical.Found.run` : it goes on;
* `Statistical.Found.foldl_eraseDups` : numbers that come again make no difference;
* `Statistical.mode_earliest` : the most frequent number of some arguments, unless their numbers are distinct.
-/

namespace Spreadsheet

open Binary64 (Number extended beq_iff_extended)

/-! ## The first of the largest -/

/-- No element has a larger count, and those in front have smaller ones. -/
def FirstPeak {α : Type} (count : α → ℕ) (xs : List α) (x : α) : Prop :=
  ∃ before after, xs = before ++ x :: after ∧ (∀ y ∈ before, count y < count x) ∧ ∀ y ∈ after, count y ≤ count x

namespace FirstPeak

variable {α : Type} {count : α → ℕ} {xs : List α} {x y : α}

theorem mem (h : FirstPeak count xs x) : x ∈ xs := by
  obtain ⟨before, after, rfl, -, -⟩ := h
  exact List.mem_append_right _ List.mem_cons_self

theorem le (h : FirstPeak count xs x) (hy : y ∈ xs) : count y ≤ count x := by
  obtain ⟨before, after, rfl, hbefore, hafter⟩ := h
  rcases List.mem_append.1 hy with hy | hy
  · exact (hbefore y hy).le
  · rcases List.mem_cons.1 hy with rfl | hy
    · exact le_rfl
    · exact hafter y hy

/-- There is one such element. -/
theorem unique (hx : FirstPeak count xs x) (hy : FirstPeak count xs y) : x = y := by
  have hsame : count x = count y := (hy.le hx.mem).antisymm (hx.le hy.mem)
  obtain ⟨before, after, rfl, hbefore, -⟩ := hx
  obtain ⟨before', after', heq, hbefore', -⟩ := hy
  rcases List.append_eq_append_iff.1 heq with ⟨between, rfl, hbetween⟩ | ⟨between, rfl, hbetween⟩
  · cases between with
    | nil => exact (List.cons.inj hbetween).1
    | cons z between =>
      obtain ⟨rfl, -⟩ := List.cons.inj hbetween
      exact absurd hsame (hbefore' x (List.mem_append_right _ List.mem_cons_self)).ne
  · cases between with
    | nil => exact (List.cons.inj hbetween).1.symm
    | cons z between =>
      obtain ⟨rfl, -⟩ := List.cons.inj hbetween
      exact absurd hsame (hbefore y (List.mem_append_right _ List.mem_cons_self)).ne'

theorem concat (h : FirstPeak count xs x) (hy : count y ≤ count x) : FirstPeak count (xs ++ [y]) x := by
  obtain ⟨before, after, rfl, hbefore, hafter⟩ := h
  refine ⟨before, after ++ [y], by rw [List.append_assoc, List.cons_append], hbefore, fun z hz => ?_⟩
  rcases List.mem_append.1 hz with hz | hz
  · exact hafter z hz
  · rwa [List.mem_singleton.1 hz]

theorem last (h : ∀ z ∈ xs, count z < count y) : FirstPeak count (xs ++ [y]) y := ⟨xs, [], rfl, h, nofun⟩

theorem of_map {β : Type} {f : β → α} {xs : List β} (h : FirstPeak count (xs.map f) x) :
    ∃ y, f y = x ∧ FirstPeak (fun y => count (f y)) xs y := by
  obtain ⟨before, after, heq, hbefore, hafter⟩ := h
  obtain ⟨before, rest, rfl, rfl, hrest⟩ := List.map_eq_append_iff.1 heq
  obtain ⟨y, after, rfl, rfl, rfl⟩ := List.map_eq_cons_iff.1 hrest
  exact ⟨y, rfl, before, after, rfl, List.forall_mem_map.1 hbefore, List.forall_mem_map.1 hafter⟩

end FirstPeak

namespace Statistical

/-! ## The scan -/

/-- How many of some floats are equal to one. -/
def equals (xs : List Float) (x : Float) : ℕ := xs.countP (· == x)

/-- What the scan has found among the numbers passed: the first that occurs most often, if it occurs more than once. -/
inductive Found (xs passed : List Float) : Option (Float × ℕ) → Prop
  | nothing (h : ∀ y ∈ passed, equals xs y ≤ 1) : Found xs passed none
  | peak {x : Float} (h : FirstPeak (equals xs) passed x) (hcount : 1 < equals xs x) :
    Found xs passed (some (x, equals xs x))

variable {xs passed ys : List Float} {best : Option (Float × ℕ)} {x y : Float}

theorem Found.step (h : Found xs passed best) (x : Float) : Found xs (passed ++ [x]) (betterOf xs best x) := by
  have hbetter : betterOf xs best x =
      if 1 < equals xs x && best.all (·.2 < equals xs x) then some (x, equals xs x) else best := rfl
  rw [hbetter]
  cases h with
  | nothing h =>
    rw [Option.all_none, Bool.and_true]
    by_cases hcount : 1 < equals xs x
    · rw [decide_eq_true hcount, if_pos rfl]
      exact .peak (.last fun z hz => (h z hz).trans_lt hcount) hcount
    · rw [decide_eq_false hcount, if_neg Bool.false_ne_true]
      refine .nothing (List.forall_mem_append.2 ⟨h, List.forall_mem_singleton.2 (Nat.le_of_not_lt hcount)⟩)
  | @peak y h hcount =>
    rw [Option.all_some]
    by_cases hmore : equals xs y < equals xs x
    · rw [decide_eq_true (hcount.trans hmore), decide_eq_true hmore, Bool.and_self, if_pos rfl]
      exact .peak (.last fun z hz => (h.le hz).trans_lt hmore) (hcount.trans hmore)
    · rw [decide_eq_false hmore, Bool.and_false, if_neg Bool.false_ne_true]
      exact .peak (h.concat (Nat.le_of_not_lt hmore)) hcount

theorem Found.run (h : Found xs passed best) (ys : List Float) :
    Found xs (passed ++ ys) (ys.foldl (betterOf xs) best) := by
  induction ys generalizing passed best with
  | nil => rwa [List.append_nil]
  | cons y ys ih =>
    rw [List.foldl_cons, ← List.singleton_append, ← List.append_assoc]
    exact ih (h.step y)

/-- A number that occurs as often as one that has been passed changes nothing. -/
theorem Found.betterOf_eq (h : Found xs passed best) (hx : x ∈ passed) (hsame : equals xs y = equals xs x) :
    betterOf xs best y = best := by
  refine if_neg fun hbetter => ?_
  obtain ⟨hcount, hmore⟩ := Bool.and_eq_true_iff.1 hbetter
  have hcount : 1 < equals xs y := of_decide_eq_true hcount
  cases h with
  | nothing h => exact absurd (hsame ▸ hcount) (h x hx).not_gt
  | @peak z h _ =>
    have hmore : equals xs z < equals xs y := of_decide_eq_true hmore
    exact absurd (hsame ▸ hmore) (h.le hx).not_gt

/-! ## Numbers that come again -/

section Repeats

variable (hxs : ∀ x ∈ xs, x.isNaN = false)
include hxs

theorem equals_congr (hx : x.isNaN = false) (hy : y.isNaN = false) (h : y == x) : equals xs y = equals xs x := by
  have hkey : extended y = extended x := (beq_iff_extended hy hx).1 h
  refine List.countP_congr fun z hz => ?_
  rw [beq_iff_extended (hxs z hz) hy, beq_iff_extended (hxs z hz) hx, hkey]

/-- After a number has been passed those equal to it may be left out. -/
theorem Found.foldl_filter (h : Found xs passed best) (hx : x ∈ passed) (hnan : x.isNaN = false)
    (hys : ∀ y ∈ ys, y.isNaN = false) :
    (ys.filter fun y => !y == x).foldl (betterOf xs) best = ys.foldl (betterOf xs) best := by
  induction ys generalizing passed best with
  | nil => rfl
  | cons y ys ih =>
    obtain ⟨hy, hys⟩ := List.forall_mem_cons.1 hys
    rw [List.filter_cons, List.foldl_cons]
    cases hsame : y == x with
    | true =>
      rw [Bool.not_true, if_neg Bool.false_ne_true, h.betterOf_eq hx (equals_congr hxs hnan hy hsame)]
      exact ih h hx hys
    | false =>
      rw [Bool.not_false, if_pos rfl, List.foldl_cons]
      exact ih (h.step y) (List.mem_append_left _ hx) hys

theorem Found.foldl_eraseDups (h : Found xs passed best) : ∀ {ys : List Float}, (∀ y ∈ ys, y.isNaN = false) →
    ys.eraseDups.foldl (betterOf xs) best = ys.foldl (betterOf xs) best := by
  intro ys
  induction hlength : ys.length using Nat.strongRecOn generalizing ys passed best with
  | ind n ih =>
    intro hys
    cases ys with
    | nil => rfl
    | cons y ys =>
      obtain ⟨hy, hys⟩ := List.forall_mem_cons.1 hys
      have hmem : y ∈ passed ++ [y] := List.mem_append_right _ List.mem_cons_self
      have hshort : (ys.filter fun z => !z == y).length < n := by
        rw [← hlength]
        exact Nat.lt_succ_of_le (List.length_filter_le _ _)
      rw [List.eraseDups_cons, List.foldl_cons, List.foldl_cons, ih _ hshort (h.step y) rfl
        fun z hz => hys z (List.mem_of_mem_filter hz), (h.step y).foldl_filter hxs hmem hy hys]

theorem found_eraseDups : Found xs xs (xs.eraseDups.foldl (betterOf xs) none) := by
  have hnone : Found xs [] none := .nothing nofun
  rw [hnone.foldl_eraseDups hxs hxs]
  exact hnone.run xs

end Repeats

/-! ## Modes -/

/-- How often a number occurs among some. -/
def occurrences (xs : List Number) (x : Number) : ℕ := xs.countP fun y => y.float == x.float

/-- No two of some numbers are equal. -/
def Distinct (xs : List Number) : Prop := xs.Pairwise fun x y => (x.float == y.float) = false

section Numbers

variable {xs : List Number} (hxs : ∀ x ∈ xs, x.isNaN = false)
include hxs

theorem distinct_iff : Distinct xs ↔ ∀ x ∈ xs, occurrences xs x ≤ 1 := by
  have hkeys : Distinct xs ↔ (xs.map fun x => extended x.float).Nodup := by
    rw [List.Nodup, List.pairwise_map]
    refine List.Pairwise.iff_of_mem fun {x y} hx hy => ?_
    rw [Ne, ← beq_iff_extended (hxs x hx) (hxs y hy), Bool.not_eq_true]
  have hcount : ∀ x ∈ xs, occurrences xs x = (xs.map fun x => extended x.float).count (extended x.float) := by
    intro x hx
    rw [List.count_eq_countP, List.countP_map]
    refine List.countP_congr fun y hy => ?_
    rw [beq_iff_extended (hxs y hy) (hxs x hx), Function.comp_apply, beq_iff_eq]
  rw [hkeys, List.nodup_iff_count_le_one]
  constructor
  · intro h x hx
    rw [hcount x hx]
    exact h _
  · intro h key
    by_cases hkey : key ∈ xs.map fun x => extended x.float
    · obtain ⟨x, hx, rfl⟩ := List.mem_map.1 hkey
      rw [← hcount x hx]
      exact h x hx
    · rw [List.count_eq_zero_of_not_mem hkey]
      exact Nat.zero_le 1

/-- The first number that occurs most often, unless all are distinct. -/
theorem mostFrequent_cases :
    (Distinct xs ∧ mostFrequent (xs.map (·.float)) = .error .notAvailable) ∨
    (¬Distinct xs ∧ ∃ x, FirstPeak (occurrences xs) xs x ∧ mostFrequent (xs.map (·.float)) = .ok x.float) := by
  have hcount : (fun x : Number => equals (xs.map (·.float)) x.float) = occurrences xs := by
    funext x
    rw [equals, List.countP_map, occurrences]
    rfl
  have hfloats : ∀ x ∈ xs.map (·.float), x.isNaN = false := by
    intro y hy
    obtain ⟨x, hx, rfl⟩ := List.mem_map.1 hy
    exact hxs x hx
  have hfound := found_eraseDups hfloats
  rw [distinct_iff hxs, mostFrequent]
  generalize (xs.map (·.float)).eraseDups.foldl (betterOf (xs.map (·.float))) none = best at hfound ⊢
  cases hfound with
  | nothing h =>
    refine .inl ⟨fun x hx => ?_, rfl⟩
    rw [← hcount]
    exact h _ (List.mem_map_of_mem hx)
  | peak h hmore =>
    obtain ⟨x, rfl, hx⟩ := h.of_map
    rw [hcount] at hx
    have hmore : 1 < occurrences xs x := by rwa [← hcount]
    exact .inr ⟨fun hall => (hall x hx.mem).not_gt hmore, x, hx, rfl⟩

end Numbers

theorem ofFloat_float {x : Number} (hx : x.isNaN = false) : Number.ofFloat x.float = x := by
  cases x with
  | ofFloat x => rfl
  | negativeNaN => exact absurd hx (by decide)

/-- Of numbers without NaN the call gives the one that occurs most often, the earliest one of several such, or an error
value if all of them are distinct. -/
theorem mode_earliest [RegexLibrary] {values : List Value} (hvalues : values ≠ []) (hclean : firstError? values = none)
    (hnan : ∀ x ∈ numbersOf values, x.isNaN = false) :
    (Gives "MODE" values (.error .notAvailable) ↔ Distinct (numbersOf values)) ∧
    (¬Distinct (numbersOf values) →
      ∃ x, FirstPeak (occurrences (numbersOf values)) (numbersOf values) x ∧ Gives "MODE" values (.number x)) := by
  have hgives : ∀ v, Gives "MODE" values v ↔ Outcome.toValue
      (Value.number <$> Number.ofFloat <$> mostFrequent ((numbersOf values).map (·.float))) = v := by
    intro v
    rw [gives_ofNumbers_iff (i := 8) rfl hvalues, hclean]
  rcases mostFrequent_cases hnan with ⟨hdistinct, hresult⟩ | ⟨hrepeated, x, hx, hresult⟩
  · rw [hresult] at hgives
    exact ⟨⟨fun _ => hdistinct, fun _ => (hgives _).2 rfl⟩, fun h => absurd hdistinct h⟩
  · rw [hresult] at hgives
    refine ⟨⟨fun h => ?_, fun h => absurd h hrepeated⟩, fun _ => ⟨x, hx, (hgives _).2 ?_⟩⟩
    · cases (hgives _).1 h
    · exact congrArg Value.number (ofFloat_float (hnan x hx.mem))

/-- Two numbers that occur three times each, both zeros being one number. -/
def tiedValues : List Value :=
  [ .number (5.0 : Float), .array [[.number (1.0 : Float), .number (-0.0 : Float)], [.text "5", .number (1.0 : Float)]],
    .number (0.0 : Float), .boolean true, .boolean false ]

/-- The one that comes first is given, and the first value alone has no mode. -/
theorem mode_earliest_tied :
    tiedValues ≠ [] ∧ firstError? tiedValues = none ∧ (∀ x ∈ numbersOf tiedValues, x.isNaN = false) ∧
    Gives "MODE" tiedValues (.number (1.0 : Float)) ∧ Gives "MODE" (tiedValues.take 1) (.error .notAvailable) := by
  have htied : tiedValues ≠ [] := List.cons_ne_nil _ _
  have hsingle : tiedValues.take 1 ≠ [] := List.cons_ne_nil _ _
  have hclean : firstError? tiedValues = none := by decide +kernel
  have hnan : ∀ x ∈ numbersOf tiedValues, x.isNaN = false := by decide +kernel
  have hrepeated : ¬Distinct (numbersOf tiedValues) := by
    unfold Distinct
    decide +kernel
  have hdistinct : Distinct (numbersOf (tiedValues.take 1)) := by
    unfold Distinct
    decide +kernel
  have hnumbers : numbersOf tiedValues =
      [Number.ofFloat 5.0] ++ Number.ofFloat 1.0 :: [-0.0, 1.0, 0.0, 1.0, 0.0].map Number.ofFloat :=
    Number.totalKey_injective.list_map (by decide +kernel)
  have hfirst : FirstPeak (occurrences (numbersOf tiedValues)) (numbersOf tiedValues) (.ofFloat 1.0) :=
    ⟨_, _, hnumbers, by decide +kernel, by decide +kernel⟩
  obtain ⟨x, hx, hgives⟩ := (mode_earliest htied hclean hnan).2 hrepeated
  obtain rfl := hx.unique hfirst
  have halone := (mode_earliest hsingle (by decide +kernel) (by decide +kernel)).1.2 hdistinct
  exact ⟨htied, hclean, hnan, hgives, halone⟩

end Statistical

end Spreadsheet
