import Spreadsheet.Proofs.Finding
import Spreadsheet.Proofs.FiniteValues
import Spreadsheet.Proofs.GridIndexes

/-!
# Counts

What a function counts, or where it finds something, is no larger than the values that it is given. As long as these fit
in memory, it is a finite number. Functions that make texts give no numbers.

* `InMemory` : values that fit in memory;
* `Implementation.Yields` : what a function gives for values with a property;
* `Statistical.countIf_finite`, `TextFunction.placeOf_finite`, `Lookup.position_finite` and their like : counts, and
  places in texts and lists;
* `counting_yields`, `textMaking_yields` : all functions that count, and all that make texts.
-/

namespace Spreadsheet

/-! ## Sizes -/

/-- Values that fit in memory: their cells, the rows of each, and the characters of each as a text. -/
structure InMemory (vs : List Value) : Prop where
  cells : (scalars vs).length < 2 ^ 63
  rows : ∀ v ∈ vs, v.grid.length < 2 ^ 63
  texts : ∀ v ∈ vs, OnSuccess (fun s => s.length < 2 ^ 63) (textOf v)

instance {ε α : Type} {Q : α → Prop} [DecidablePred Q] : (x : Except ε α) → Decidable (OnSuccess Q x)
  | .ok _ => decidable_of_iff _ onSuccess_ok.symm
  | .error _ => isTrue (onSuccess_error.2 trivial)

instance (vs : List Value) : Decidable (InMemory vs) :=
  decidable_of_iff ((scalars vs).length < 2 ^ 63 ∧ (∀ v ∈ vs, v.grid.length < 2 ^ 63) ∧
      ∀ v ∈ vs, OnSuccess (fun s => s.length < 2 ^ 63) (textOf v))
    ⟨fun h => ⟨h.1, h.2.1, h.2.2⟩, fun h => ⟨h.cells, h.rows, h.texts⟩⟩

section Sizes

variable {vs : List Value} {v : Value} {g : Grid} {i : Nat}

theorem scalars_cons (v : Value) (vs : List Value) : scalars (v :: vs) = v.grid.flatten ++ scalars vs := by
  cases v <;> simp [scalars, cellsOf, Value.grid]

theorem length_flatten_le (h : v ∈ vs) : v.grid.flatten.length ≤ (scalars vs).length := by
  induction vs with
  | nil => cases h
  | cons w vs ih =>
    rw [scalars_cons, List.length_append]
    rcases List.mem_cons.1 h with rfl | h
    · exact Nat.le_add_right _ _
    · exact (ih h).trans (Nat.le_add_left _ _)

theorem length_scalars_take_le (n : Nat) (vs : List Value) : (scalars (vs.take n)).length ≤ (scalars vs).length :=
  ((List.take_sublist n vs).flatMap cellsOf).length_le

theorem Grid.width_le (g : Grid) : g.width ≤ g.flatten.length := by
  cases g with
  | nil => exact Nat.le_refl 0
  | cons row rows => simp [width]

theorem Grid.length_vector?_le {keys : List Value} (h : g.vector? = some keys) : keys.length ≤ g.flatten.length := by
  unfold vector? at h
  split at h
  · cases h
    simp
  · rw [Option.ite_none_right_eq_some] at h
    rw [← Option.some.inj h.2]

namespace InMemory

variable (h : InMemory vs)
include h

theorem argAt_flatten (i : Nat) : (argAt vs i).grid.flatten.length < 2 ^ 63 := by
  rw [argAt]
  cases hi : vs[i]? with
  | none => decide
  | some v => exact (length_flatten_le (List.mem_of_getElem? hi)).trans_lt h.cells

theorem argAt_rows (i : Nat) : (argAt vs i).grid.length < 2 ^ 63 := by
  rw [argAt]
  cases hi : vs[i]? with
  | none => decide
  | some v => exact h.rows v (List.mem_of_getElem? hi)

theorem textArg (i : Nat) : OnSuccess (fun s => s.length < 2 ^ 63) (textArg vs i) := by
  unfold Spreadsheet.textArg
  split
  · rename_i hv
    exact h.texts _ (List.mem_of_getElem? hv)
  · exact onSuccess_error.2 trivial

theorem charsArg (i : Nat) : OnSuccess (fun cs => cs.length < 2 ^ 63) (TextFunction.charsArg vs i) :=
  (h.textArg i).bind fun _ hs => onSuccess_pure.2 (String.length_toList ▸ hs)

end InMemory

end Sizes

/-! ## What functions give -/

/-- What a function gives in given surroundings for values with a property. -/
def Implementation.Yields (s : Surroundings) (Q : List Value → Prop) (P : Value → Prop) : Implementation → Prop
  | .eager apply => ∀ vs, Q vs → OnSuccess P (apply s vs)
  | .lazy _ => False

/-- The same for a function with one of some names. -/
def Function.Yields (s : Surroundings) (names : List String) (Q : List Value → Prop) (P : Value → Prop)
    (f : Function) : Prop := f.name ∈ names → f.implementation.Yields s Q P

section Functions

variable {s : Surroundings} {names : List String} {Q : List Value → Prop} {P : Value → Prop} {name : String}
  {category : Category} {least : Nat} {most : Option Nat} {ignoresBlanks : Bool}

theorem yields_of_notMem {implementation : Implementation} (h : name ∉ names) :
    Function.Yields s names Q P ⟨name, category, least, most, implementation, ignoresBlanks⟩ :=
  fun hmem => absurd hmem h

theorem yields_of_pure {f : Surroundings → List Value → Outcome Value} (herror : ∀ e, P (.error e))
    (h : ∀ vs, Q vs → OnSuccess P (f s vs)) :
    Function.Yields s names Q P ⟨name, category, least, most, pureFunction f, ignoresBlanks⟩ := by
  intro _ vs hvs
  refine onSuccess_ok.2 ?_
  have hf := h vs hvs
  cases hresult : f s vs with
  | ok v => exact hf v hresult
  | error e => exact herror e

/-- Functions that do not have such a name. -/
theorem yields_of_names {fs : List Function} (h : ∀ name ∈ fs.map Function.name, name ∉ names) :
    ∀ f ∈ fs, f.Yields s names Q P := fun f hf hmem => absurd hmem (h f.name (List.mem_map_of_mem hf))

end Functions

/-! ## Counts -/

section Counts

variable {vs : List Value} (h : InMemory vs)
include h

namespace Statistical

omit h in
theorem countOf_finite {n : Nat} (hn : n < 2 ^ 63) : (countOf n).IsFinite :=
  Value.isFinite_number.2 (Binary64.isFinite_ofNat hn.le)

omit h in
theorem numberCount_le (v : Value) : numberCount v ≤ v.grid.flatten.length := by
  unfold numberCount
  split
  · exact List.countP_le_length
  · exact Nat.le_refl 1
  · exact Nat.le_refl 1
  · split
    · exact Nat.le_refl 1
    · exact Nat.zero_le 1
  · exact Nat.zero_le _

omit h in
theorem foldl_numberCount_le (vs : List Value) :
    ∀ n, vs.foldl (fun n v => n + numberCount v) n ≤ n + (scalars vs).length := by
  induction vs with
  | nil => exact fun n => Nat.le_refl n
  | cons v vs ih =>
    intro n
    have hv := numberCount_le v
    have hvs := ih (n + numberCount v)
    rw [List.foldl_cons, scalars_cons, List.length_append]
    omega

theorem count_finite : OnSuccess Value.IsFinite (count vs) := by
  have hcount := foldl_numberCount_le vs 0
  have hcells := h.cells
  exact onSuccess_ok.2 (countOf_finite (by omega))

theorem countFilled_finite : OnSuccess Value.IsFinite (countFilled vs) :=
  onSuccess_ok.2 (countOf_finite (List.countP_le_length.trans_lt h.cells))

theorem countBlank_finite : OnSuccess Value.IsFinite (countBlank vs) :=
  onSuccess_ok.2 (countOf_finite (List.countP_le_length.trans_lt h.cells))

variable [RegexLibrary]

theorem countIf_finite : OnSuccess Value.IsFinite (countIf vs) :=
  onSuccess_ok.2 (countOf_finite (List.countP_le_length.trans_lt ((length_scalars_take_le 1 vs).trans_lt h.cells)))

omit h [RegexLibrary] in
theorem length_foldl_zipWith_le {α : Type} (masks : List α) (hits : α → List Bool) (mask : List Bool) :
    (masks.foldl (fun mask other => List.zipWith and mask (hits other)) mask).length ≤ mask.length := by
  induction masks generalizing mask with
  | nil => exact Nat.le_refl _
  | cons other masks ih => exact (ih _).trans (by simp)

omit h in
/-- There is no more to hit than the cells of the first range. -/
theorem hitsOfAll_length (arguments : List Value) :
    OnSuccess (fun mask => mask.length ≤ (argAt arguments 0).grid.flatten.length)
      (hitsOfAll (criteriaPairs arguments)) := by
  match arguments with
  | [] => exact onSuccess_ok.2 (Nat.zero_le _)
  | [_] => exact onSuccess_ok.2 (Nat.zero_le _)
  | range :: criterion :: rest =>
    rw [criteriaPairs, hitsOfAll]
    split
    · exact onSuccess_error.2 trivial
    · refine onSuccess_ok.2 ((length_foldl_zipWith_le _ hits _).trans ?_)
      rw [hits, List.length_map]
      exact Nat.le_refl _

theorem countIfs_finite : OnSuccess Value.IsFinite (countIfs vs) := by
  have hmask : OnSuccess Value.IsFinite (do
      let mask ← hitsOfAll (criteriaPairs vs)
      return countOf (mask.countP id)) := (hitsOfAll_length vs).bind fun mask hlength =>
    onSuccess_pure.2 (countOf_finite (List.countP_le_length.trans_lt (hlength.trans_lt (h.argAt_flatten 0))))
  unfold countIfs
  split
  · exact onSuccess_error.2 trivial
  · exact hmask

end Statistical

namespace TextFunction

theorem length_finite : OnSuccess Value.IsFinite (length vs) :=
  (h.charsArg 0).bind fun _ hcs => onSuccess_pure.2 (Statistical.countOf_finite hcs)

/-- A place that is found lies in the text or behind its end. -/
theorem placeOf_finite {search : List Char → List Char → Nat → Option Nat}
    (hsearch : ∀ needle cs start k, start ≤ cs.length → search needle cs start = some k → k ≤ cs.length) :
    OnSuccess Value.IsFinite (placeOf search vs) := by
  refine .after fun needle => (h.charsArg 1).bind fun cs hcs => .after fun start => ?_
  by_cases houtside : decide (start = 0) || decide (cs.length + 1 < start)
  · rw [if_pos houtside]
    exact onSuccess_error.2 trivial
  · rw [if_neg houtside]
    rw [Bool.or_eq_true, not_or, decide_eq_true_eq, decide_eq_true_eq] at houtside
    cases hk : search needle cs (start - 1) with
    | some k =>
      have hle := hsearch needle cs (start - 1) k (by omega) hk
      exact onSuccess_pure.2 (Value.isFinite_number.2 (Binary64.isFinite_ofNat (by omega)))
    | none => exact onSuccess_error.2 trivial

omit h in
theorem place?_le (needle cs : List Char) (start k : Nat) (hstart : start ≤ cs.length)
    (hk : Text.place? needle cs start = some k) : k ≤ cs.length := by
  obtain ⟨⟨hle, hpart⟩, -⟩ := Text.placeFrom?_eq_some hk
  have hrest := hpart.le
  rw [List.length_drop] at hrest
  omega

omit h in
theorem searchFrom?_le [RegexLibrary] (needle cs : List Char) (start k : Nat) (_ : start ≤ cs.length)
    (hk : searchFrom? needle cs start = some k) : k ≤ cs.length := by
  obtain ⟨r, -, hk⟩ := Option.bind_eq_some_iff.1 hk
  obtain ⟨offset, -, hk⟩ := Option.bind_eq_some_iff.1 hk
  rw [← Option.some.inj hk]
  exact Text.charsWithin_le cs offset

end TextFunction

namespace Lookup

theorem position_finite [RegexLibrary] : OnSuccess Value.IsFinite (position vs) := by
  refine .after fun kind => .after fun t => ?_
  split
  · exact onSuccess_error.2 trivial
  · rename_i keys hkeys
    refine onSuccess_bind.2 fun i hi => onSuccess_pure.2 (Value.isFinite_number.2 (Binary64.isFinite_ofNat ?_))
    have hlt := Mode.placeOr_lt hi
    have hle := Grid.length_vector?_le hkeys
    have hcells := h.argAt_flatten 1
    omega

/-- Rows and columns. -/
theorem measure_finite {f : Grid → Nat} (hf : ∀ g : Grid, f g ≤ max g.length g.flatten.length) :
    OnSuccess Value.IsFinite (measureOf f vs) := by
  have hrows := h.argAt_rows 0
  have hcells := h.argAt_flatten 0
  unfold measureOf
  split
  · exact onSuccess_error.2 trivial
  · have hle := hf (argAt vs 0).grid
    exact onSuccess_ok.2 (Value.isFinite_number.2 (Binary64.isFinite_ofNat (by omega)))

end Lookup

end Counts

/-! ## Texts -/

/-- A value is a text, or shows finite numbers only. -/
def Value.ShowsFinite (v : Value) : Prop := v.IsFinite ∨ ∃ s, v = .text s

namespace TextFunction

variable {vs : List Value}

theorem showsFinite_ofChars (cs : List Char) : (ofChars cs).ShowsFinite := .inr ⟨_, rfl⟩

theorem substitute_shows : OnSuccess Value.ShowsFinite (substitute vs) := by
  unfold substitute
  refine .after fun cs => .after fun old => .after fun new => ?_
  split
  · exact onSuccess_pure.2 (showsFinite_ofChars _)
  · split
    · exact onSuccess_pure.2 (showsFinite_ofChars _)
    · exact .after fun _ => onSuccess_pure.2 (showsFinite_ofChars _)

theorem replicate_shows : OnSuccess Value.ShowsFinite (replicate vs) := by
  refine .after fun s => .after fun times => ?_
  split
  · exact onSuccess_error.2 trivial
  · exact onSuccess_pure.2 (.inr ⟨_, rfl⟩)

theorem formatted_shows : OnSuccess Value.ShowsFinite (formatted vs) := by
  refine .after fun code => ?_
  split
  · split
    · exact onSuccess_pure.2 (.inr ⟨_, rfl⟩)
    · exact onSuccess_pure.2 (.inr ⟨_, rfl⟩)
  · exact .after fun _ => onSuccess_pure.2 (.inr ⟨_, rfl⟩)

end TextFunction

/-! ## All functions -/

section Builtin

variable [RegexLibrary] {s : Surroundings}

open Statistical in
theorem statistical_counts :
    ∀ f ∈ statisticalFunctions, f.Yields s counting InMemory Value.IsFinite := by
  repeat first
    | exact List.forall_mem_nil _
    | refine List.forall_mem_cons.2 ⟨yields_of_notMem (by decide), ?_⟩
    | refine List.forall_mem_cons.2 ⟨yields_of_pure .error fun _ => count_finite, ?_⟩
    | refine List.forall_mem_cons.2 ⟨yields_of_pure .error fun _ => countFilled_finite, ?_⟩
    | refine List.forall_mem_cons.2 ⟨yields_of_pure .error fun _ => countBlank_finite, ?_⟩
    | refine List.forall_mem_cons.2 ⟨yields_of_pure .error fun _ h => countIf_finite h, ?_⟩
    | refine List.forall_mem_cons.2 ⟨yields_of_pure .error fun _ h => countIfs_finite h, ?_⟩

open TextFunction in
theorem text_counts : ∀ f ∈ textFunctions, f.Yields s counting InMemory Value.IsFinite := by
  repeat first
    | exact List.forall_mem_nil _
    | refine List.forall_mem_cons.2 ⟨yields_of_notMem (by decide), ?_⟩
    | refine List.forall_mem_cons.2 ⟨yields_of_pure .error fun _ => length_finite, ?_⟩
    | refine List.forall_mem_cons.2 ⟨yields_of_pure .error fun _ h => placeOf_finite h place?_le, ?_⟩
    | refine List.forall_mem_cons.2 ⟨yields_of_pure .error fun _ h => placeOf_finite h searchFrom?_le, ?_⟩

open Lookup in
theorem lookup_counts : ∀ f ∈ lookupFunctions, f.Yields s counting InMemory Value.IsFinite := by
  refine List.forall_mem_cons.2 ⟨yields_of_notMem (by decide), ?_⟩
  refine List.forall_mem_cons.2 ⟨yields_of_notMem (by decide), ?_⟩
  refine List.forall_mem_cons.2 ⟨yields_of_pure .error fun _ h => position_finite h, ?_⟩
  refine List.forall_mem_cons.2 ⟨yields_of_notMem (by decide), ?_⟩
  refine List.forall_mem_cons.2 ⟨yields_of_notMem (by decide), ?_⟩
  refine List.forall_mem_cons.2 ⟨yields_of_notMem (by decide), ?_⟩
  refine List.forall_mem_cons.2 ⟨yields_of_pure .error fun _ h => measure_finite h fun g => le_max_left _ _, ?_⟩
  refine List.forall_mem_singleton.2 (yields_of_pure .error fun _ h => measure_finite h fun g => ?_)
  exact (Grid.width_le g).trans (le_max_right _ _)

/-- What is counted in memory is a finite number. -/
theorem counting_yields : ∀ f ∈ builtinFunctions, f.Yields s counting InMemory Value.IsFinite := by
  simp only [builtinFunctions, List.forall_mem_append]
  exact ⟨⟨⟨⟨⟨⟨statistical_counts, yields_of_names (by decide +kernel)⟩, yields_of_names (by decide +kernel)⟩,
    text_counts⟩, lookup_counts⟩, yields_of_names (by decide +kernel)⟩, yields_of_names (by decide +kernel)⟩

open TextFunction in
theorem text_shows :
    ∀ f ∈ textFunctions, f.Yields s textMaking (fun _ => True) Value.ShowsFinite := by
  have herror : ∀ e, (Value.error e).ShowsFinite := fun e => .inl (.error e)
  repeat first
    | exact List.forall_mem_nil _
    | refine List.forall_mem_cons.2 ⟨yields_of_notMem (by decide), ?_⟩
    | refine List.forall_mem_cons.2 ⟨yields_of_pure herror fun _ _ => substitute_shows, ?_⟩
    | refine List.forall_mem_cons.2 ⟨yields_of_pure herror fun _ _ => replicate_shows, ?_⟩
    | refine List.forall_mem_cons.2 ⟨yields_of_pure herror fun _ _ => formatted_shows, ?_⟩
    | refine List.forall_mem_cons.2 ⟨yields_of_pure herror fun _ _ => .after fun _ =>
        onSuccess_pure.2 (.inr ⟨_, rfl⟩), ?_⟩
    | refine List.forall_mem_cons.2 ⟨yields_of_pure herror fun _ _ => .after fun _ => .after fun _ =>
        onSuccess_pure.2 (.inr ⟨_, rfl⟩), ?_⟩
    | refine List.forall_mem_cons.2 ⟨yields_of_pure herror fun _ _ => .after fun _ => .after fun _ =>
        .after fun _ => onSuccess_pure.2 (.inr ⟨_, rfl⟩), ?_⟩
    | refine List.forall_mem_cons.2 ⟨yields_of_pure herror fun _ _ => .after fun _ => .after fun _ =>
        .after fun _ => .after fun _ => onSuccess_pure.2 (.inr ⟨_, rfl⟩), ?_⟩

/-- Functions that make texts give texts or error values. -/
theorem textMaking_yields :
    ∀ f ∈ builtinFunctions, f.Yields s textMaking (fun _ => True) Value.ShowsFinite := by
  have hstatistical : ∀ f ∈ statisticalFunctions, f.Yields s textMaking (fun _ => True) Value.ShowsFinite := by
    repeat first | exact List.forall_mem_nil _ | refine List.forall_mem_cons.2 ⟨yields_of_notMem (by decide), ?_⟩
  have hlookup : ∀ f ∈ lookupFunctions, f.Yields s textMaking (fun _ => True) Value.ShowsFinite := by
    repeat first | exact List.forall_mem_nil _ | refine List.forall_mem_cons.2 ⟨yields_of_notMem (by decide), ?_⟩
  simp only [builtinFunctions, List.forall_mem_append]
  exact ⟨⟨⟨⟨⟨⟨hstatistical, yields_of_names (by decide +kernel)⟩, yields_of_names (by decide +kernel)⟩, text_shows⟩,
    hlookup⟩, yields_of_names (by decide +kernel)⟩, yields_of_names (by decide +kernel)⟩

end Builtin

end Spreadsheet
