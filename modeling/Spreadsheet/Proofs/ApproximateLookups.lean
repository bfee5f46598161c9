import Spreadsheet.Proofs.Lookups
import Spreadsheet.Proofs.ValueOrder

/-!
# Approximate lookups

A lookup that needs no equal key goes through the keys of the target's kind as long as they do not lie beyond the
target, and takes the last one. Keys of other kinds are passed over wherever they stand. In keys that are in order the
last key passed is the last one of all that do not lie beyond the target, since what follows a key beyond the target
lies beyond it, too.

* `Lookup.At` : keys of the target's kind, by how they compare with it;
* `Lookup.Within` : those that do not lie beyond it; `Lookup.InOrder` : keys whose order the search relies on;
* `Lookup.approximately?_step` : what a key does to the search;
* `Lookup.within_of_approximately?`, `Lookup.approximately?_eq_find?` : what the search gives for any keys, and for keys
  in order;
* `Lookup.approximateLookups` : all approximate lookups, in lists and in tables.
-/

namespace Spreadsheet

/-- Whether a value is a NaN. -/
def Value.isNaN : Value → Bool
  | .number x => x.float.isNaN
  | _ => false

namespace Lookup

/-! ## Keys of the target's kind -/

/-- Whether two values are both numbers, both texts or both truth values. -/
def sameKind : Value → Value → Bool
  | .number _, .number _ => true
  | .text _, .text _ => true
  | .boolean _, .boolean _ => true
  | _, _ => false

/-- Whether a value can be looked up by order: a number other than NaN, a text or a truth value. -/
def isSought : Value → Bool
  | .number x => !x.float.isNaN
  | .text _ => true
  | .boolean _ => true
  | _ => false

/-- A key of the target's kind that compares with it as `o`. -/
def At (x : Value) (o : Ordering) (key : Value) : Prop := sameKind key x ∧ key.compare x = o

/-- A key of the target's kind that does not lie beyond it. -/
def Within (x : Value) (beyond : Ordering) (key : Value) : Prop := sameKind key x ∧ key.compare x ≠ beyond

/-- The keys of the target's kind are in order: none of them lies beyond a later one. -/
def InOrder (x : Value) (beyond : Ordering) (keys : List Value) : Prop :=
  keys.Pairwise fun v w => sameKind v x → sameKind w x → v.compare w ≠ beyond

variable {x key : Value} {o beyond : Ordering} {t : Target} {keys : List Value} {i : Nat}

instance : Decidable (At x o key) := inferInstanceAs (Decidable (_ ∧ _))

instance : Decidable (Within x beyond key) := inferInstanceAs (Decidable (_ ∧ _))

instance : Decidable (InOrder x beyond keys) := inferInstanceAs (Decidable (List.Pairwise _ _))

theorem isOrdered_of_isSought (h : isSought x) : x.isOrdered := by
  cases x with
  | error e => cases h
  | _ => exact h

theorem isOrdered_of_sameKind (hkind : sameKind key x) (hnan : key.isNaN = false) : key.isOrdered := by
  cases key with
  | number y => exact Bool.not_eq_true' _ ▸ hnan
  | text _ => rfl
  | boolean _ => rfl
  | _ => cases hkind

theorem ofValue_of_isSought [RegexLibrary] (h : isSought x) (wildcards : Bool) :
    ∃ t, Target.ofValue x wildcards = .ok t ∧ t.value = x := by
  cases x with
  | error e => cases h
  | array rows => cases h
  | _ => exact ⟨_, rfl, rfl⟩

theorem ordering?_eq (t : Target) (key : Value) :
    t.ordering? key = if sameKind key t.value then some (key.compare t.value) else none := by
  unfold Target.ordering?
  cases t.value <;> cases key <;> rfl

theorem ordering?_eq_some : t.ordering? key = some o ↔ At t.value o key := by
  rw [ordering?_eq, Option.ite_none_right_eq_some, Option.some_inj]
  rfl

theorem not_at_of_ordering? (h : t.ordering? key = none) : ¬ At t.value o key := fun hat => by
  rw [ordering?_eq_some.2 hat] at h
  cases h

theorem At.unique {o' : Ordering} (h : At x o key) (h' : At x o' key) : o = o' := h.2.symm.trans h'.2

/-! ## The search -/

/-- A key ends the search, is taken for now, or is passed over. -/
theorem approximately?_step (t : Target) (beyond : Ordering) (found : Option Nat) (key : Value) (j : Nat)
    (keys : List (Value × Nat)) :
    (At t.value beyond key ∧ approximately? t beyond found ((key, j) :: keys) = found) ∨
    (Within t.value beyond key ∧
      approximately? t beyond found ((key, j) :: keys) = approximately? t beyond (some j) keys) ∨
    (¬ Within t.value beyond key ∧
      approximately? t beyond found ((key, j) :: keys) = approximately? t beyond found keys) := by
  rw [approximately?]
  split
  · rename_i o hordering
    obtain ⟨hkind, rfl⟩ := ordering?_eq_some.1 hordering
    split
    · rename_i hbeyond
      exact .inl ⟨⟨hkind, beq_iff_eq.1 hbeyond⟩, rfl⟩
    · rename_i hbeyond
      exact .inr (.inl ⟨⟨hkind, by simpa using hbeyond⟩, rfl⟩)
  · rename_i hordering
    exact .inr (.inr ⟨fun hwithin => not_at_of_ordering? hordering ⟨hwithin.1, rfl⟩, rfl⟩)

/-- In any keys, what is taken is a key of the target's kind that does not lie beyond it. -/
theorem within_of_approximately? {keys : List (Value × Nat)} {found : Option Nat}
    (h : approximately? t beyond found keys = some i) :
    found = some i ∨ ∃ key, (key, i) ∈ keys ∧ Within t.value beyond key := by
  induction keys generalizing found with
  | nil => exact .inl h
  | cons entry keys ih =>
    obtain ⟨key, j⟩ := entry
    have hlater : ∀ {found : Option Nat}, approximately? t beyond found keys = some i →
        found = some i ∨ ∃ k, (k, i) ∈ (key, j) :: keys ∧ Within t.value beyond k := fun h =>
      (ih h).imp_right fun ⟨k, hk, hwithin⟩ => ⟨k, List.mem_cons_of_mem _ hk, hwithin⟩
    rcases approximately?_step t beyond found key j keys with ⟨-, heq⟩ | ⟨hwithin, heq⟩ | ⟨-, heq⟩
    · exact .inl (heq.symm.trans h)
    · rcases hlater (heq.symm.trans h) with hi | hlater
      · obtain rfl := Option.some.inj hi
        exact .inr ⟨key, List.mem_cons_self, hwithin⟩
      · exact .inr hlater
    · exact hlater (heq.symm.trans h)

/-- In keys that are in order, what follows a key beyond the target lies beyond it. -/
theorem not_within_of_beyond {rest : List Value} (hx : isSought x) (ho : beyond ≠ .eq)
    (hnan : ∀ k ∈ key :: rest, k.isNaN = false) (horder : InOrder x beyond (key :: rest)) (h : At x beyond key) :
    ∀ k ∈ key :: rest, ¬ Within x beyond k := by
  obtain ⟨hkind, hbeyond⟩ := h
  have hkey := isOrdered_of_sameKind hkind (hnan key List.mem_cons_self)
  rintro k hk ⟨hkind', hwithin⟩
  rcases List.mem_cons.1 hk with rfl | hlater
  · exact hwithin hbeyond
  · have hne := (List.pairwise_cons.1 horder).1 k hlater hkind hkind'
    exact hwithin (Value.compare_of_ne hkey (isOrdered_of_sameKind hkind' (hnan k hk)) (isOrdered_of_isSought hx) ho hne
      hbeyond)

/-- In keys that are in order, the last one that does not lie beyond the target is taken. -/
theorem approximately?_eq_find? {keys : List (Value × Nat)} {found : Option Nat} (hx : isSought t.value)
    (ho : beyond ≠ .eq) (hnan : ∀ k ∈ keys.map (·.1), k.isNaN = false)
    (horder : InOrder t.value beyond (keys.map (·.1))) : approximately? t beyond found keys =
      ((keys.reverse.find? fun key => Within t.value beyond key.1).map (·.2)).or found := by
  induction keys generalizing found with
  | nil => rfl
  | cons entry keys ih =>
    obtain ⟨key, j⟩ := entry
    have hrest : ∀ found, approximately? t beyond found keys =
        ((keys.reverse.find? fun key => Within t.value beyond key.1).map (·.2)).or found := fun _ =>
      ih (fun k hk => hnan k (List.mem_cons_of_mem _ hk)) (List.pairwise_cons.1 horder).2
    have hsplit : ((key, j) :: keys).reverse.find? (fun key => Within t.value beyond key.1) =
        (keys.reverse.find? fun key => Within t.value beyond key.1).or
          (if Within t.value beyond key then some (key, j) else none) := by
      rw [List.reverse_cons, List.find?_append, List.find?_singleton]
      simp only [decide_eq_true_eq]
    rcases approximately?_step t beyond found key j keys with ⟨hbeyond, heq⟩ | ⟨hwithin, heq⟩ | ⟨hwithin, heq⟩
    · have hnone := not_within_of_beyond hx ho hnan horder hbeyond
      have hfind : ((key, j) :: keys).reverse.find? (fun key => Within t.value beyond key.1) = none := by
        refine List.find?_eq_none.2 fun entry hentry => ?_
        simpa using hnone entry.1 (List.mem_map_of_mem (List.mem_reverse.1 hentry))
      rw [heq, hfind]
      rfl
    · rw [heq, hrest, hsplit, if_pos hwithin]
      cases keys.reverse.find? _ <;> rfl
    · rw [heq, hrest, hsplit, if_neg hwithin, Option.or_none]

/-! ## Lookups -/

/-- What an approximate lookup gives. For any keys, it finds a key of the target's kind that does not lie beyond it, or
misses; for keys in order, it finds the last such key, or misses if there is none. -/
structure Approximates (x : Value) (beyond : Ordering) (keys : List Value) (found : Nat → Outcome Value)
    (outcome : Outcome Value) : Prop where
  sound : (∃ i, ∃ key ∈ keys[i]?, Within x beyond key ∧ outcome = found i) ∨ outcome = .error .notAvailable
  exact : InOrder x beyond keys → Finds (Within x beyond) keys true found (.error .notAvailable) outcome

theorem approximates_placeOr {mode : Mode} {found : Nat → Outcome Value} (hx : isSought t.value) (ho : beyond ≠ .eq)
    (hnan : ∀ key ∈ keys, key.isNaN = false)
    (hplace : mode.place t keys false = approximately? t beyond none keys.zipIdx) :
    Approximates t.value beyond keys found (mode.placeOr t keys >>= found) where
  sound := by
    rw [Mode.placeOr, hplace]
    cases hfound : approximately? t beyond none keys.zipIdx with
    | none => exact .inr rfl
    | some i =>
      rcases within_of_approximately? hfound with hnone | ⟨key, hkey, hwithin⟩
      · cases hnone
      · exact .inl ⟨i, key, List.mk_mem_zipIdx_iff_getElem?.1 hkey, hwithin, rfl⟩
  exact horder := by
    have hkeys : keys.zipIdx.map (·.1) = keys := List.zipIdx_map_fst 0 keys
    rw [approximately?_eq_find? hx ho (by rwa [hkeys]) (by rwa [hkeys]), Option.or_none] at hplace
    refine .of_cases (fun i h => ?_) fun h => ?_
    · have hfind := find?_of_isFirst (q := fun key => Within t.value beyond key) (by simpa using h)
      rw [Mode.placeOr, hplace.trans hfind]
      rfl
    · have hfind : ((visited keys true).find? fun key => Within t.value beyond key.1).map (·.2) = none :=
        find?_of_none (q := fun key => Within t.value beyond key) (by simpa using h)
      rw [Mode.placeOr, hplace.trans hfind]
      rfl

/-- All lookups of a target that need no equal key: in a list from below and from above, and from below in the first
column or the first row of a table. -/
structure ApproximateLookups [RegexLibrary] (x : Value) (keys : List Value) : Prop where
  ascending : ∀ (arguments : List Value) (kind : Float), argAt arguments 0 = x →
    (argAt arguments 1).grid.vector? = some keys → optionalNumber arguments 2 1.0 = .ok kind → 0.0 < kind →
    Approximates x .gt keys (fun i => .ok (.number (Float.ofNat (i + 1)))) (position arguments)
  descending : ∀ (arguments : List Value) (kind : Float), argAt arguments 0 = x →
    (argAt arguments 1).grid.vector? = some keys → optionalNumber arguments 2 1.0 = .ok kind → kind < 0.0 →
    Approximates x .lt keys (fun i => .ok (.number (Float.ofNat (i + 1)))) (position arguments)
  vertical : ∀ (arguments : List Value) (column : Nat), argAt arguments 0 = x →
    (isMissing arguments 3 ∨ truthOf (argAt arguments 3) = .ok true) →
    (numberArg arguments 2 >>= positiveIndex) = .ok column → column ≤ (argAt arguments 1).grid.width →
    (argAt arguments 1).grid.column 0 = keys →
    Approximates x .gt keys (fun i => .ok ((argAt arguments 1).grid.entry i (column - 1))) (vertical arguments)
  horizontal : ∀ (arguments : List Value) (row : Nat), argAt arguments 0 = x →
    (isMissing arguments 3 ∨ truthOf (argAt arguments 3) = .ok true) →
    (numberArg arguments 2 >>= positiveIndex) = .ok row → row ≤ (argAt arguments 1).grid.length →
    keys ≠ [] → (argAt arguments 1).grid.head? = some keys →
    Approximates x .gt keys (fun i => .ok ((argAt arguments 1).grid.entry (row - 1) i)) (horizontal arguments)

variable {arguments : List Value}

theorem Approximates.congr {found found' : Nat → Outcome Value} {outcome : Outcome Value}
    (h : Approximates x beyond keys found outcome) (hfound : ∀ i < keys.length, found i = found' i) :
    Approximates x beyond keys found' outcome where
  sound := h.sound.imp_left fun ⟨i, key, hkey, hwithin, heq⟩ =>
    ⟨i, key, hkey, hwithin, heq.trans (hfound i (List.getElem?_eq_some_iff.1 hkey).1)⟩
  exact horder := (h.exact horder).congr (fun _ _ => Iff.rfl) hfound

theorem inTable_approximates [RegexLibrary] {table : Grid} {column : Nat} (hx : isSought x)
    (hnan : ∀ key ∈ keys, key.isNaN = false) (h0 : argAt arguments 0 = x)
    (happroximate : isMissing arguments 3 ∨ truthOf (argAt arguments 3) = .ok true)
    (hcolumn : (numberArg arguments 2 >>= positiveIndex) = .ok column) (hwidth : column ≤ table.width)
    (hkeys : table.column 0 = keys) :
    Approximates x .gt keys (fun i => .ok (table.entry i (column - 1))) (inTable arguments table) := by
  have htruth : (if isMissing arguments 3 then .ok true else truthOf (argAt arguments 3)) = .ok true := by
    rw [ite_eq_left_iff]
    exact happroximate.resolve_left
  obtain ⟨t, ht, rfl⟩ := ofValue_of_isSought hx (tableMode true).wildcards
  rw [inTable_eq htruth hcolumn hwidth, h0, ht, ok_bind, hkeys]
  exact approximates_placeOr hx nofun hnan rfl

/-- In any keys without NaN, an approximate lookup of a number, a text or a truth value finds a key of that kind on the
right side of it or misses, and if those keys are in order it finds the last one, or misses if there is none. -/
theorem approximateLookups [RegexLibrary] (hx : isSought x) (hnan : ∀ key ∈ keys, key.isNaN = false) :
    ApproximateLookups x keys where
  ascending arguments kind h0 hlist hkind hpos := by
    have hmode : listMode kind = .ascending := if_pos hpos
    obtain ⟨t, ht, rfl⟩ := ofValue_of_isSought hx (listMode kind).wildcards
    rw [position_eq hlist hkind, h0, ht, ok_bind, hmode]
    exact approximates_placeOr hx nofun hnan rfl
  descending arguments kind h0 hlist hkind hneg := by
    have hmode : listMode kind = .descending := by rw [listMode, if_neg (Binary64.lt_asymm hneg), if_pos hneg]
    obtain ⟨t, ht, rfl⟩ := ofValue_of_isSought hx (listMode kind).wildcards
    rw [position_eq hlist hkind, h0, ht, ok_bind, hmode]
    exact approximates_placeOr hx nofun hnan rfl
  vertical _ _ h0 happroximate hcolumn hwidth hkeys := inTable_approximates hx hnan h0 happroximate hcolumn hwidth hkeys
  horizontal arguments row h0 happroximate hrow hlength hnonempty hhead := by
    obtain ⟨rows, hgrid⟩ := List.head?_eq_some_iff.1 hhead
    have hwidth : (argAt arguments 1).grid.width = keys.length := by simp [Grid.width, hgrid]
    have hpos : 0 < (argAt arguments 1).grid.width := hwidth ▸ List.length_pos_iff.2 hnonempty
    have hkeys : (argAt arguments 1).grid.transpose.column 0 = keys := by rw [hgrid, Grid.column_zero_transpose]
    refine (inTable_approximates hx hnan h0 happroximate hrow ?_ hkeys).congr fun i hi => ?_
    · rwa [Grid.width_transpose hpos]
    · rw [Grid.entry_transpose _ (hwidth ▸ hi)]

/-- Numbers in order among other values. -/
def interspersedKeys : List Value :=
  [.number (5.0 : Float), .text "x", .number (10.0 : Float), .boolean true, .number (10.0 : Float), .empty,
    .number (40.0 : Float), .text "y"]

theorem approximateLookups_interspersed : isSought (.number (25.0 : Float)) ∧
    (∀ key ∈ interspersedKeys, key.isNaN = false) ∧ InOrder (.number (25.0 : Float)) .gt interspersedKeys ∧
    position [.number (25.0 : Float), .array [interspersedKeys], .number (1.0 : Float)] =
      .ok (.number (Float.ofNat 5)) ∧
    horizontal [.number (25.0 : Float), .array [interspersedKeys, interspersedKeys.reverse], .number (2.0 : Float)] =
      .ok (.boolean true) := by
  have hx : isSought (.number (25.0 : Float)) := by decide +kernel
  have hnan : ∀ key ∈ interspersedKeys, key.isNaN = false := by decide +kernel
  have horder : InOrder (.number (25.0 : Float)) .gt interspersedKeys := by decide +kernel
  have hlast : IsFirst (Within (.number (25.0 : Float)) .gt) interspersedKeys true 4 := by
    refine ⟨⟨.number (10.0 : Float), rfl, by decide +kernel⟩, fun j hj y hy => ?_⟩
    have hlength : j < 8 := (List.getElem?_eq_some_iff.1 hy).1
    rw [if_pos rfl] at hj
    interval_cases j <;> obtain rfl := Option.some.inj hy <;> decide +kernel
  have hlookups := approximateLookups hx hnan
  refine ⟨hx, hnan, horder, ?_, ?_⟩
  · exact ((hlookups.ascending _ 1.0 rfl rfl rfl (by decide +kernel)).exact horder).of_isFirst hlast
  · refine ((hlookups.horizontal _ 2 rfl (.inl rfl) ?_ ?_ nofun rfl).exact horder).of_isFirst hlast
    · decide +kernel
    · decide

end Lookup

end Spreadsheet
