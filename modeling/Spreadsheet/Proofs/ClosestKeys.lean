import Mathlib.Data.List.Find
import Spreadsheet.Proofs.ApproximateLookups

/-!
# The closest key

A search for a target or the next smaller or larger key goes through the keys once. It stops at the first equal key, and
until then keeps the closest key on the side where it looks, in which a later key takes the place of an earlier one only
if it is closer. What it keeps stands for all keys passed: the search goes on as if it had just passed that key and
nothing else.

* `Lookup.IsNearest`, `Lookup.IsChoice` : the keys that such a search may choose;
* `Lookup.firstChoice` : the first of them;
* `Lookup.firstChoice_drop` : a key may be left out if another one is at least as close;
* `Lookup.closest?_step`, `Lookup.closest?_eq_firstChoice` : what a key does to the search, and that it gives the
  first choice;
* `Lookup.aligned_closest` : what is found along with the keys.
-/

namespace Spreadsheet.Lookup

/-- A key on a side of the target to which no key on that side is closer: it is the largest of the smaller ones or the
smallest of the larger ones. -/
def IsNearest (x : Value) (side : Ordering) (keys : List Value) (key : Value) : Prop :=
  At x side key ∧ ∀ other ∈ keys, At x side other → other.compare key ≠ side.swap

/-- A key that is equal to the target, or a nearest key if there is no equal one. -/
def IsChoice (x : Value) (side : Ordering) (keys : List Value) (key : Value) : Prop :=
  At x .eq key ∨ (∀ other ∈ keys, ¬ At x .eq other) ∧ IsNearest x side keys key

instance (x : Value) (side : Ordering) (keys : List Value) (key : Value) : Decidable (IsNearest x side keys key) :=
  inferInstanceAs (Decidable (_ ∧ _))

instance (x : Value) (side : Ordering) (keys : List Value) (key : Value) : Decidable (IsChoice x side keys key) :=
  inferInstanceAs (Decidable (_ ∨ _))

/-- The place of the first choice among keys with their places. -/
def firstChoice (x : Value) (side : Ordering) (keys : List (Value × Nat)) : Option Nat :=
  (keys.find? fun key => IsChoice x side (keys.map (·.1)) key.1).map (·.2)

variable {x key : Value} {side : Ordering} {i : Nat}

/-! ## Keys that make no difference -/

/-- Keys without NaN, for a search on one side of a target. -/
structure Searchable (x : Value) (side : Ordering) (keys : List Value) : Prop where
  sought : isSought x
  side_ne : side ≠ .eq
  no_nan : ∀ key ∈ keys, key.isNaN = false

namespace Searchable

variable {keys keys' : List Value} {o : Ordering} {u v : Value}

theorem mono (h : Searchable x side keys) (hsub : keys' ⊆ keys) : Searchable x side keys' :=
  ⟨h.sought, h.side_ne, fun key hkey => h.no_nan key (hsub hkey)⟩

theorem swap_ne (h : Searchable x side keys) : side.swap ≠ .eq := by simpa using h.side_ne

theorem not_equal (h : Searchable x side keys) (hat : At x side v) : ¬ At x .eq v := fun heq =>
  h.side_ne (hat.unique heq)

theorem isOrdered (h : Searchable x side keys) (hkey : key ∈ keys) (hat : At x o key) : key.isOrdered :=
  isOrdered_of_sameKind hat.1 (h.no_nan key hkey)

/-- Of two keys on the same side one is closer if the other one is farther. -/
theorem compare_swap (h : Searchable x side keys) (hu : u ∈ keys) (hv : v ∈ keys) (hatu : At x side u)
    (hatv : At x side v) : u.compare v = side ↔ v.compare u = side.swap := by
  rw [Value.compare_swap (h.isOrdered hu hatu) (h.isOrdered hv hatv), Ordering.swap_inj]

end Searchable

section Drop

variable {before after : List Value}

/-- A key that is not equal to the target and that is on the other side of it, or behind a key that is as close, or in
front of a closer one. -/
def Dispensable (x : Value) (side : Ordering) (before after : List Value) (key : Value) : Prop :=
  ¬ At x .eq key ∧ (At x side key → ∃ other, At x side other ∧
    (other ∈ before ∧ key.compare other ≠ side.swap ∨ other ∈ after ∧ other.compare key = side.swap))

theorem mem_drop {v : Value} : v ∈ before ++ key :: after ↔ v = key ∨ v ∈ before ++ after := by
  simp only [List.mem_append, List.mem_cons]
  tauto

theorem Dispensable.exists_close (hkey : Dispensable x side before after key)
    (h : Searchable x side (before ++ key :: after)) (hside : At x side key) :
    ∃ other ∈ before ++ after, At x side other ∧ key.compare other ≠ side.swap := by
  obtain ⟨other, hother, ⟨hmem, hne⟩ | ⟨hmem, hcloser⟩⟩ := hkey.2 hside
  · exact ⟨other, List.mem_append_left _ hmem, hother, hne⟩
  · refine ⟨other, List.mem_append_right _ hmem, hother, fun hfarther => ?_⟩
    have hmem' : other ∈ before ++ key :: after := mem_drop.2 (.inr (List.mem_append_right _ hmem))
    rw [(h.compare_swap (mem_drop.2 (.inl rfl)) hmem' hside hother).2 hcloser] at hfarther
    cases side with
    | eq => exact h.side_ne rfl
    | lt => cases hfarther
    | gt => cases hfarther

theorem isChoice_drop (h : Searchable x side (before ++ key :: after)) (hkey : Dispensable x side before after key)
    {k : Value} (hk : k ∈ before ++ after) :
    IsChoice x side (before ++ key :: after) k ↔ IsChoice x side (before ++ after) k := by
  refine or_congr_right (and_congr ?_ (and_congr_right fun hside => ?_))
  · exact ⟨fun hnone v hv => hnone v (mem_drop.2 (.inr hv)), fun hnone v hv =>
      (mem_drop.1 hv).elim (fun heq => heq ▸ hkey.1) (hnone v)⟩
  · refine ⟨fun hnearest v hv => hnearest v (mem_drop.2 (.inr hv)), fun hnearest v hv hv' => ?_⟩
    rcases mem_drop.1 hv with rfl | hv
    · -- a key that this one is closer than is no nearest one, since another key is as close as this one
      obtain ⟨other, hother, hother', hne⟩ := hkey.exists_close h hv'
      intro hcloser
      refine hnearest other hother hother' (Value.compare_of_ne ?_ ?_ ?_ h.swap_ne hne hcloser)
      · exact h.isOrdered (mem_drop.2 (.inl rfl)) hv'
      · exact h.isOrdered (mem_drop.2 (.inr hother)) hother'
      · exact h.isOrdered (mem_drop.2 (.inr hk)) hside
    · exact hnearest v hv hv'

/-- If such a key is a choice it is not the first one. -/
theorem Dispensable.exists_before (hkey : Dispensable x side before after key)
    (h : Searchable x side (before ++ key :: after)) (hchoice : IsChoice x side (before ++ key :: after) key) :
    ∃ k ∈ before, IsChoice x side (before ++ key :: after) k := by
  obtain ⟨hnone, hside, hnearest⟩ := hchoice.resolve_left hkey.1
  obtain ⟨other, hother, ⟨hmem, hne⟩ | ⟨hmem, hcloser⟩⟩ := hkey.2 hside
  · have hmem' : other ∈ before ++ key :: after := List.mem_append_left _ hmem
    refine ⟨other, hmem, .inr ⟨hnone, hother, fun v hv hv' hcloser => hnearest v hv hv' ?_⟩⟩
    have hmemkey : key ∈ before ++ key :: after := mem_drop.2 (.inl rfl)
    rw [← h.compare_swap hmem' hv hother hv'] at hcloser
    rw [← h.compare_swap hmemkey hv hside hv']
    refine Value.compare_of_ne ?_ ?_ ?_ h.side_ne (fun heq => hne ?_) hcloser
    · exact h.isOrdered hmem' hother
    · exact h.isOrdered hmemkey hside
    · exact h.isOrdered hv hv'
    · exact (h.compare_swap hmem' hmemkey hother hside).1 heq
  · exact absurd hcloser (hnearest other (mem_drop.2 (.inr (List.mem_append_right _ hmem))) hother)

end Drop

theorem firstChoice_drop {before after : List (Value × Nat)}
    (h : Searchable x side ((before ++ (key, i) :: after).map (·.1)))
    (hkey : Dispensable x side (before.map (·.1)) (after.map (·.1)) key) :
    firstChoice x side (before ++ (key, i) :: after) = firstChoice x side (before ++ after) := by
  rw [List.map_append, List.map_cons] at h
  have hsame : ∀ k ∈ before ++ after, decide (IsChoice x side ((before ++ (key, i) :: after).map (·.1)) k.1) =
      decide (IsChoice x side ((before ++ after).map (·.1)) k.1) := by
    intro k hk
    rw [List.map_append, List.map_cons, List.map_append]
    refine decide_eq_decide.2 (isChoice_drop h hkey ?_)
    rw [← List.map_append]
    exact List.mem_map_of_mem hk
  rw [firstChoice, firstChoice, ← List.find?_congr hsame, List.find?_append, List.find?_append, List.find?_cons]
  split
  · rename_i hchoice
    have hchoice : IsChoice x side (before.map (·.1) ++ key :: after.map (·.1)) key := by simpa using hchoice
    obtain ⟨k, hk, hchoice⟩ := hkey.exists_before h hchoice
    obtain ⟨entry, hentry, rfl⟩ := List.mem_map.1 hk
    have hfound : (before.find? fun k =>
        decide (IsChoice x side ((before ++ (key, i) :: after).map (·.1)) k.1)).isSome :=
      List.find?_isSome.2 ⟨entry, hentry, by simpa using hchoice⟩
    obtain ⟨first, hfirst⟩ := Option.isSome_iff_exists.1 hfound
    rw [hfirst]
    rfl
  · rfl

/-! ## The search -/

theorem firstChoice_of_equal {before after : List (Value × Nat)} (hbefore : ∀ k ∈ before, ¬ At x .eq k.1)
    (hkey : At x .eq key) : firstChoice x side (before ++ (key, i) :: after) = some i := by
  have hnone : before.find? (fun k => IsChoice x side ((before ++ (key, i) :: after).map (·.1)) k.1) = none := by
    refine List.find?_eq_none.2 fun k hk hchoice => ?_
    rcases of_decide_eq_true hchoice with hequal | ⟨hother, -⟩
    · exact hbefore k hk hequal
    · exact hother key (by simp) hkey
  rw [firstChoice, List.find?_append, hnone, List.find?_cons_of_pos (by exact decide_eq_true (.inl hkey))]
  rfl

theorem firstChoice_single {b : Value × Nat} (h : Searchable x side [b.1]) (hb : At x side b.1) :
    firstChoice x side [b] = some b.2 := by
  have hordered : b.1.isOrdered := h.isOrdered (by simp) hb
  have hchoice : IsChoice x side [b.1] b.1 := by
    refine .inr ⟨by simpa using h.not_equal hb, hb, ?_⟩
    simpa [Value.compare_self hordered] using fun _ => h.swap_ne.symm
  rw [firstChoice]
  simp [hchoice]

/-- A closer key makes the key kept dispensable. -/
theorem firstChoice_closer {best : Option (Value × Nat)} {keys : List (Value × Nat)}
    (h : Searchable x side ((best.toList ++ (key, i) :: keys).map (·.1))) (hbest : ∀ b ∈ best, At x side b.1)
    (hkey : At x side key) (hcloser : ∀ b ∈ best, key.compare b.1 = side.swap) :
    firstChoice x side (best.toList ++ (key, i) :: keys) = firstChoice x side ((key, i) :: keys) := by
  cases best with
  | none => rfl
  | some b =>
    have hb : Dispensable x side [] (key :: keys.map (·.1)) b.1 :=
      ⟨h.not_equal (hbest b rfl), fun _ => ⟨key, hkey, .inr ⟨List.mem_cons_self, hcloser b rfl⟩⟩⟩
    have hdrop : firstChoice x side ([] ++ b :: (key, i) :: keys) = firstChoice x side ([] ++ (key, i) :: keys) :=
      firstChoice_drop h hb
    exact hdrop

variable {t : Target} {best : Option (Value × Nat)} {keys : List (Value × Nat)}

/-- A key ends the search, takes the place of the key kept, or is passed by. -/
theorem closest?_step (t : Target) (side : Ordering) (best : Option (Value × Nat)) (key : Value) (i : Nat)
    (keys : List (Value × Nat)) :
    (At t.value .eq key ∧ closest? t side best ((key, i) :: keys) = some i) ∨
    (At t.value side key ∧ (∀ b ∈ best, key.compare b.1 = side.swap) ∧
      closest? t side best ((key, i) :: keys) = closest? t side (some (key, i)) keys) ∨
    (¬ At t.value .eq key ∧ (At t.value side key → ∃ b ∈ best, key.compare b.1 ≠ side.swap) ∧
      closest? t side best ((key, i) :: keys) = closest? t side best keys) := by
  rw [closest?]
  split
  · rename_i hordering
    exact .inl ⟨ordering?_eq_some.1 hordering, rfl⟩
  · rename_i o hne hordering
    have hat := ordering?_eq_some.1 hordering
    split
    · rename_i hcloser
      obtain ⟨rfl, hcloser⟩ : o = side ∧ ∀ b ∈ best, key.compare b.1 = side.swap := by
        simpa [Option.all_eq_true] using hcloser
      exact .inr (.inl ⟨hat, hcloser, rfl⟩)
    · rename_i hfarther
      refine .inr (.inr ⟨fun heq => hne (hat.unique heq), fun hside => ?_, rfl⟩)
      obtain rfl := hat.unique hside
      simpa [Option.all_eq_false] using hfarther
  · rename_i hordering
    exact .inr (.inr ⟨not_at_of_ordering? hordering, fun hside => absurd hside (not_at_of_ordering? hordering), rfl⟩)

/-- The search gives the first choice, where the key kept is on the side where it looks and goes before the others. -/
theorem closest?_eq_firstChoice (h : Searchable t.value side ((best.toList ++ keys).map (·.1)))
    (hbest : ∀ b ∈ best, At t.value side b.1) :
    closest? t side best keys = firstChoice t.value side (best.toList ++ keys) := by
  induction keys generalizing best with
  | nil =>
    cases best with
    | none => rfl
    | some b => exact (firstChoice_single h (hbest b rfl)).symm
  | cons entry keys ih =>
    obtain ⟨key, i⟩ := entry
    rcases closest?_step t side best key i keys with ⟨hequal, heq⟩ | ⟨hside, hcloser, heq⟩ | ⟨hnot, hfarther, heq⟩
    · have hbefore : ∀ b ∈ best.toList, ¬ At t.value .eq b.1 := fun b hb =>
        h.not_equal (hbest b (Option.mem_toList.1 hb))
      rw [heq, firstChoice_of_equal hbefore hequal]
    · rw [heq, firstChoice_closer h hbest hside hcloser]
      exact ih (h.mono (List.map_subset _ (by simp))) (by simpa using hside)
    · -- a key that is passed by is no choice beside the key kept
      have hkey : Dispensable t.value side (best.toList.map (·.1)) (keys.map (·.1)) key := by
        refine ⟨hnot, fun hside => ?_⟩
        obtain ⟨b, hb, hne⟩ := hfarther hside
        exact ⟨b.1, hbest b hb, .inl ⟨List.mem_map_of_mem (Option.mem_toList.2 hb), hne⟩⟩
      rw [heq, firstChoice_drop h hkey]
      exact ih (h.mono (List.map_subset _ (by simp))) hbest

/-- A search that gives nothing has passed no equal key and none on the side where it looks. -/
theorem eq_none_of_closest? (h : closest? t side best keys = none) :
    best = none ∧ ∀ k ∈ keys, ¬ At t.value .eq k.1 ∧ ¬ At t.value side k.1 := by
  induction keys generalizing best with
  | nil => exact ⟨Option.map_eq_none_iff.1 h, nofun⟩
  | cons entry keys ih =>
    obtain ⟨key, i⟩ := entry
    rcases closest?_step t side best key i keys with ⟨-, heq⟩ | ⟨-, -, heq⟩ | ⟨hnot, hfarther, heq⟩
    · rw [heq] at h
      cases h
    · rw [heq] at h
      cases (ih h).1
    · rw [heq] at h
      obtain ⟨rfl, hkeys⟩ := ih h
      exact ⟨rfl, List.forall_mem_cons.2 ⟨⟨hnot, fun hside => by simpa using hfarther hside⟩, hkeys⟩⟩

/-! ## Lookups -/

section Keys

variable {keys : List Value} {backward : Bool}

theorem map_fst_visited (keys : List Value) (backward : Bool) :
    (visited keys backward).map (·.1) = if backward then keys.reverse else keys := by
  cases backward with
  | false => exact List.zipIdx_map_fst 0 keys
  | true => exact List.map_reverse.trans (congrArg List.reverse (List.zipIdx_map_fst 0 keys))

theorem mem_map_fst_visited : key ∈ (visited keys backward).map (·.1) ↔ key ∈ keys := by
  rw [map_fst_visited]
  cases backward with
  | false => rfl
  | true => exact List.mem_reverse

/-- What the choices are does not depend on the order of the keys. -/
theorem isChoice_visited : IsChoice x side ((visited keys backward).map (·.1)) key ↔ IsChoice x side keys key := by
  simp only [IsChoice, IsNearest, mem_map_fst_visited]

theorem closest?_visited (h : Searchable t.value side keys) (backward : Bool) :
    (∃ i, IsFirst (IsChoice t.value side keys) keys backward i ∧
        closest? t side none (visited keys backward) = some i) ∨
      (∀ key ∈ keys, ¬ At t.value .eq key ∧ ¬ At t.value side key) ∧
        closest? t side none (visited keys backward) = none := by
  have hsearch : closest? t side none (visited keys backward) =
      ((visited keys backward).find? fun key => IsChoice t.value side keys key.1).map (·.2) := by
    refine (closest?_eq_firstChoice (h.mono fun k hk => ?_) (by simp)).trans ?_
    · exact mem_map_fst_visited.1 hk
    · simp only [firstChoice, Option.toList_none, List.nil_append, isChoice_visited]
  rcases exists_isFirst (IsChoice t.value side keys) keys backward with ⟨i, hi⟩ | hnone
  · have hfind := find?_of_isFirst (q := fun key => IsChoice t.value side keys key) (by simpa using hi)
    exact .inl ⟨i, hi, hsearch.trans hfind⟩
  · have hfind : ((visited keys backward).find? fun key => IsChoice t.value side keys key.1).map (·.2) = none :=
      find?_of_none (q := fun key => IsChoice t.value side keys key) (by simpa using hnone)
    refine .inr ⟨fun key hkey => ?_, hsearch.trans hfind⟩
    obtain ⟨entry, hentry, rfl⟩ := List.mem_map.1 (mem_map_fst_visited.2 hkey)
    exact (eq_none_of_closest? (hsearch.trans hfind)).2 entry hentry

/-- The side on which the next smaller or the next larger key is. -/
def nextSide (larger : Bool) : Ordering := if larger then .gt else .lt

/-- Along keys without NaN in any order, a search for the next smaller or larger key finds the first one, in the order
of the search, of the keys that are equal or else nearest on that side, and misses if no key of the target's kind is
equal or on that side. -/
theorem aligned_closest [RegexLibrary] (arguments : List Value) (larger backward : Bool) (hx : isSought x)
    (hnan : ∀ key ∈ keys, key.isNaN = false) (h0 : argAt arguments 0 = x)
    (hlist : (argAt arguments 1).grid.vector? = some keys)
    (hmode : optionalNumber arguments 4 0.0 = .ok (if larger then 1.0 else -1.0))
    (hdirection : optionalNumber arguments 5 1.0 = .ok (if backward then -1.0 else 1.0))
    (hlines : (lines (argAt arguments 1).grid (argAt arguments 2).grid).length = keys.length) :
    (∃ i, IsFirst (IsChoice x (nextSide larger) keys) keys backward i ∧
        aligned arguments = .ok (resultOf (alongColumn (argAt arguments 1).grid)
          ((lines (argAt arguments 1).grid (argAt arguments 2).grid)[i]?.getD []))) ∨
      (∀ key ∈ keys, ¬ At x .eq key ∧ ¬ At x (nextSide larger) key) ∧
        aligned arguments = if isMissing arguments 3 then .error .notAvailable else .ok (argAt arguments 3) := by
  have hcode : modeOf (if larger then 1.0 else -1.0) = .ok (if larger then .nextLarger else .nextSmaller) := by
    cases larger <;> decide +kernel
  have hbackward : isBackward (if backward then -1.0 else 1.0) = .ok backward := by
    cases backward <;> decide +kernel
  obtain ⟨t, ht, rfl⟩ := ofValue_of_isSought hx false
  have hwildcards : (if larger then Mode.nextLarger else .nextSmaller).wildcards = false := by cases larger <;> rfl
  have hplace : (if larger then Mode.nextLarger else .nextSmaller).place t keys backward =
      closest? t (nextSide larger) none (visited keys backward) := by
    cases larger <;> rfl
  rw [aligned_eq hlist (by rw [hmode, ok_bind, hcode]) (by rw [hdirection, ok_bind, hbackward])
    (by rw [hwildcards, h0, ht]) hlines, hplace]
  have hside : nextSide larger ≠ .eq := by cases larger <;> decide
  rcases closest?_visited ⟨hx, hside, hnan⟩ backward with ⟨i, hi, hfound⟩ | ⟨hnone, hmissed⟩
  · exact .inl ⟨i, hi, by rw [hfound, Option.elim_some]⟩
  · exact .inr ⟨hnone, by rw [hmissed, Option.elim_none]⟩

/-- Numbers in no order among other values. -/
def scatteredKeys : List Value :=
  [.number (3.0 : Float), .text "x", .number (7.0 : Float), .number (1.0 : Float), .number (3.0 : Float), .boolean true,
    .number (9.0 : Float), .empty]

theorem aligned_closest_scattered : isSought (.number (4.0 : Float)) ∧ (∀ key ∈ scatteredKeys, key.isNaN = false) ∧
    aligned [.number (4.0 : Float), .array [scatteredKeys], .array [scatteredKeys.reverse], .text "none",
      .number (-1.0 : Float), .number (-1.0 : Float)] = .ok (.number (1.0 : Float)) := by
  have hx : isSought (.number (4.0 : Float)) := by decide +kernel
  have hnan : ∀ key ∈ scatteredKeys, key.isNaN = false := by decide +kernel
  -- the later one of two keys that are nearest, since the search goes backward
  have hfirst : IsFirst (IsChoice (.number (4.0 : Float)) .lt scatteredKeys) scatteredKeys true 4 := by
    refine ⟨⟨.number (3.0 : Float), rfl, by decide +kernel⟩, fun j hj y hy => ?_⟩
    have hlength : j < 8 := (List.getElem?_eq_some_iff.1 hy).1
    rw [if_pos rfl] at hj
    interval_cases j <;> obtain rfl := Option.some.inj hy <;> decide +kernel
  have hfound := aligned_closest [.number (4.0 : Float), .array [scatteredKeys], .array [scatteredKeys.reverse],
    .text "none", .number (-1.0 : Float), .number (-1.0 : Float)] false true hx hnan rfl rfl rfl rfl rfl
  rcases hfound with ⟨i, hi, heq⟩ | ⟨hnone, -⟩
  · rw [hi.unique hfirst] at heq
    exact ⟨hx, hnan, heq⟩
  · exact absurd (hnone (.number (3.0 : Float)) List.mem_cons_self) (by decide +kernel)

end Keys

end Spreadsheet.Lookup
