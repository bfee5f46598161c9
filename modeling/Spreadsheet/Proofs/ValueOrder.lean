import Spreadsheet.Proofs.FloatOrder

/-!
# The order of values

Numbers other than NaN, texts, truth values and errors stand in one order, with ties between texts that differ in case
only and between the two zeros. It is the lexicographic order of keys that begin with the kind of a value.

A blank has no place of its own: it is compared as the zero, the empty text or the truth value that it meets, and only
the reversal of comparisons is left of the order.

* `Text.compareText_eq_compare` : the order of texts is that of their characters;
* `Value.isOrdered` : the values that have a place in the order;
* `Value.key`, `Value.compare_eq_key` : their keys, of a kind and a place among the values of this kind;
* `Value.compare_swap`, `Value.compare_of_ne` : the order turned around, and its transitivity;
* `Value.compare_weakOrder` : comparisons are reversed with their sides, blanks among them, and order all other values.
-/

namespace Spreadsheet

open Binary64 (Extended extended)

/-! ## Parts of keys -/

/-- A natural number as part of a key. -/
def whole (n : ℕ) : Extended := ((n : ℚ) : WithTop ℚ)

theorem compare_whole (m n : ℕ) : compare (whole m) (whole n) = compare m n := by
  rw [whole, whole, Binary64.compare_coe, ← cmp_eq_compare, ← cmp_eq_compare]
  exact Nat.strictMono_cast.cmp_map_eq m n

theorem compare_whole_cons (m n : ℕ) (xs ys : List Extended) :
    compare (whole m :: xs) (whole n :: ys) = (compare m n).then (compare xs ys) := by
  rw [List.compare_cons_cons, compare_whole]

/-- The characters of a text as parts of a key. -/
def codes (s : String) : List Extended := s.toList.map fun c => whole c.toNat

theorem Text.compareText_eq_codes (s t : String) : compareText s t = compare (codes s) (codes t) := by
  unfold compareText codes
  generalize s.toList = cs
  generalize t.toList = ds
  induction cs generalizing ds with
  | nil => cases ds <;> rfl
  | cons c cs ih =>
    cases ds with
    | nil => rfl
    | cons d ds => rw [List.map_cons, List.map_cons, compare_whole_cons, ← ih, compareChars]

/-! ## Texts -/

namespace Text

theorem compareText_swap (s t : String) : compareText t s = (compareText s t).swap := by
  rw [compareText_eq_codes, compareText_eq_codes]
  exact Std.OrientedCmp.eq_swap

theorem compareChars_eq_lt (cs ds : List Char) : compareChars cs ds = .lt ↔ cs < ds := by
  induction cs generalizing ds with
  | nil => cases ds <;> simp [compareChars]
  | cons c cs ih =>
    cases ds with
    | nil => simp [compareChars]
    | cons d ds =>
      rw [compareChars, Ordering.then_eq_lt, Nat.compare_eq_lt, Nat.compare_eq_eq, ih, List.cons_lt_cons_iff,
        Char.toNat_inj, Char.lt_def]
      rfl

/-- Texts are ordered as the lists of their characters. -/
theorem compareText_eq_compare (s t : String) : compareText s t = compare s t := by
  have hlt : ∀ {s t : String}, s < t → compareText s t = .lt := fun h => (compareChars_eq_lt _ _).2 h
  rcases lt_trichotomy s t with h | rfl | h
  · rw [hlt h, compare_lt_iff_lt.2 h]
  · rw [compareText_eq_codes]
    exact Std.ReflCmp.compare_self.trans (compare_eq_iff_eq.2 rfl).symm
  · rw [compareText_swap t s, hlt h, compare_gt_iff_gt.2 h]
    rfl

end Text

/-! ## Keys of values -/

namespace Value

/-- Whether a value has a place in the order of values. -/
def isOrdered : Value → Bool
  | number x => !x.float.isNaN
  | text _ => true
  | boolean _ => true
  | error _ => true
  | array _ => false
  | empty => false

/-- The place of a value among those of its kind. -/
def place : Value → List Extended
  | number x => [extended x.float]
  | text s => codes (Text.lower s)
  | boolean b => [whole b.toNat]
  | error e => codes e.text
  | array _ => []
  | empty => []

def key (v : Value) : List Extended := whole v.kindRank :: v.place

variable {u v w : Value} {o : Ordering}

theorem compare_numbers {x y : Binary64.Number} (hx : (number x).isOrdered) (hy : (number y).isOrdered) :
    compareNumbers x.float y.float = Ord.compare [extended x.float] [extended y.float] := by
  rw [isOrdered, Bool.not_eq_true'] at hx hy
  rw [List.compare_cons_cons, ← Binary64.compareNumbers_eq hx hy]
  exact Ordering.then_eq.symm

theorem compare_booleans (a b : Bool) : Ord.compare a b = Ord.compare [whole a.toNat] [whole b.toNat] := by
  rw [compare_whole_cons]
  cases a <;> cases b <;> rfl

theorem compare_eq_key (hv : v.isOrdered) (hw : w.isOrdered) : v.compare w = Ord.compare v.key w.key := by
  rw [key, key, compare_whole_cons]
  cases v with
  | number x =>
    cases w with
    | number y => exact compare_numbers hv hw
    | array _ => cases hw
    | empty => cases hw
    | _ => rfl
  | text s =>
    cases w with
    | text t => exact Text.compareText_eq_codes _ _
    | array _ => cases hw
    | empty => cases hw
    | _ => rfl
  | boolean a =>
    cases w with
    | boolean b => exact compare_booleans a b
    | array _ => cases hw
    | empty => cases hw
    | _ => rfl
  | error e =>
    cases w with
    | error f => exact Text.compareText_eq_codes _ _
    | array _ => cases hw
    | empty => cases hw
    | _ => rfl
  | array _ => cases hv
  | empty => cases hv

theorem compare_swap (hv : v.isOrdered) (hw : w.isOrdered) : w.compare v = (v.compare w).swap := by
  rw [compare_eq_key hv hw, compare_eq_key hw hv]
  exact Std.OrientedCmp.eq_swap

theorem compare_self (hv : v.isOrdered) : v.compare v = .eq := by
  rw [compare_eq_key hv hv]
  exact Std.ReflCmp.compare_self

/-- What does not compare in one way with a value compares in that way with all that the value does. -/
theorem compare_of_ne (hu : u.isOrdered) (hv : v.isOrdered) (hw : w.isOrdered) (ho : o ≠ .eq)
    (hne : u.compare v ≠ o) (h : u.compare w = o) : v.compare w = o := by
  rw [compare_eq_key hu hv] at hne
  rw [compare_eq_key hu hw] at h
  rw [compare_eq_key hv hw]
  have hswap : Ord.compare v.key u.key = (Ord.compare u.key v.key).swap := Std.OrientedCmp.eq_swap
  cases o with
  | lt =>
    refine Std.TransCmp.lt_of_isLE_of_lt (hswap ▸ ?_) h
    simpa [← Ordering.isGE_iff_ne_lt] using hne
  | eq => exact absurd rfl ho
  | gt =>
    refine Std.TransCmp.gt_of_isGE_of_gt (hswap ▸ ?_) h
    simpa [← Ordering.isLE_iff_ne_gt] using hne

theorem isLE_trans (hu : u.isOrdered) (hv : v.isOrdered) (hw : w.isOrdered) (huv : (u.compare v).isLE)
    (hvw : (v.compare w).isLE) : (u.compare w).isLE := by
  rw [compare_eq_key hu hv] at huv
  rw [compare_eq_key hv hw] at hvw
  rw [compare_eq_key hu hw]
  exact Std.TransCmp.isLE_trans huv hvw

theorem isLE_total (hv : v.isOrdered) (hw : w.isOrdered) : (v.compare w).isLE ∨ (w.compare v).isLE := by
  rw [compare_swap hv hw]
  cases v.compare w <;> decide

/-! ## Blanks -/

/-- Single values other than NaN, blanks among them. -/
def isComparable : Value → Bool
  | empty => true
  | v => v.isOrdered

theorem eq_empty_or_isOrdered (h : v.isComparable) : v = empty ∨ v.isOrdered := by
  cases v with
  | empty => exact .inl rfl
  | _ => exact .inr h

/-- What stands for a blank is the same on either side. -/
theorem compare_empty_swap (hw : w.isOrdered) : w.compare empty = (empty.compare w).swap := by
  cases w with
  | number x => exact compare_swap (v := number (0.0 : Float)) (by decide +kernel) hw
  | text s => exact Text.compareText_swap "" s
  | boolean b => cases b <;> rfl
  | error e => rfl
  | array _ => cases hw
  | empty => cases hw

theorem compare_swap_of_isComparable (hv : v.isComparable) (hw : w.isComparable) :
    w.compare v = (v.compare w).swap := by
  rcases eq_empty_or_isOrdered hv with rfl | hv
  · rcases eq_empty_or_isOrdered hw with rfl | hw
    · rfl
    · exact compare_empty_swap hw
  · rcases eq_empty_or_isOrdered hw with rfl | hw
    · rw [compare_empty_swap hv, Ordering.swap_swap]
    · exact compare_swap hv hw

/-- Comparisons are reversed when their sides are exchanged. Among values other than blanks they are transitive and
total, with all numbers before all texts, these before truth values and those before errors; texts are ordered by their
lower-case forms. -/
theorem compare_weakOrder :
    (∀ v w : Value, v.isComparable → w.isComparable → w.compare v = (v.compare w).swap) ∧
    (∀ u v w : Value, u.isOrdered → v.isOrdered → w.isOrdered → (u.compare v).isLE → (v.compare w).isLE →
      (u.compare w).isLE) ∧
    (∀ v w : Value, v.isOrdered → w.isOrdered → (v.compare w).isLE ∨ (w.compare v).isLE) ∧
    (∀ x s b e, [number x, text s, boolean b, error e].Pairwise fun v w => v.compare w = .lt) ∧
    ∀ s t, (text s).compare (text t) = Ord.compare (Text.lower s) (Text.lower t) := by
  refine ⟨fun _ _ => compare_swap_of_isComparable, fun _ _ _ => isLE_trans, fun _ _ => isLE_total, fun x s b e => ?_,
    fun s t => Text.compareText_eq_compare _ _⟩
  simp only [List.pairwise_cons, List.forall_mem_cons]
  exact ⟨⟨rfl, rfl, rfl, List.forall_mem_nil _⟩, ⟨rfl, rfl, List.forall_mem_nil _⟩, ⟨rfl, List.forall_mem_nil _⟩,
    List.forall_mem_nil _, .nil⟩

/-- A blank beside a text, and three values of different kinds: a negative zero, a text in capitals, and an error. -/
theorem compare_weakOrder_mixed :
    empty.isComparable ∧ (text "a").isComparable ∧ (text "a").compare empty = (empty.compare (text "a")).swap ∧
    (number (-0.0 : Float)).isOrdered ∧ (text "SMITH").isOrdered ∧ (error .num).isOrdered ∧
    ((number (-0.0 : Float)).compare (text "SMITH")).isLE ∧ ((text "SMITH").compare (error .num)).isLE ∧
    ((number (-0.0 : Float)).compare (error .num)).isLE ∧
    (((text "SMITH").compare (text "jones")).isLE ∨ ((text "jones").compare (text "SMITH")).isLE) := by
  obtain ⟨hswap, htrans, htotal, -, -⟩ := compare_weakOrder
  have hzero : (number (-0.0 : Float)).isOrdered := by decide +kernel
  have hfirst : ((number (-0.0 : Float)).compare (text "SMITH")).isLE := by decide
  have hsecond : ((text "SMITH").compare (error .num)).isLE := by decide
  exact ⟨rfl, rfl, hswap _ _ rfl rfl, hzero, rfl, rfl, hfirst, hsecond, htrans _ _ _ hzero rfl rfl hfirst hsecond,
    htotal _ _ rfl rfl⟩

end Value

end Spreadsheet
