import Mathlib.Data.Nat.Find
import Spreadsheet.Function.Lookup
import Spreadsheet.Proofs.Globs

/-!
# Looking up patterns

Lookups that ask for equality take a text with wildcards for a pattern, and any other text for what it is, escapes
included. So a text without wildcards in which something is escaped is looked up as it is written, and not as what the
pattern stands for.

* `IsFirst`, `Finds` : the first place with a property, and what is found there or missed;
* `Lookup.place_exact` : the key that is chosen for equality;
* `Lookup.readsGlob`, `Lookup.accepts_textTarget_iff` : the texts that are looked up as patterns;
* `Lookup.SelectFirst` : the lookups choose the first text with a property;
* `Lookup.selectFirst_glob_iff` : which texts are looked up as patterns by all of them.
-/

namespace Spreadsheet

open Text (Ascii)

/-! ## First places -/

variable {α : Type} {p : α → Prop} {q : α → Bool} {xs : List α} {backward : Bool} {i : Nat}

/-- The first place of something with a property, from the front of a list or from its back. -/
def IsFirst (p : α → Prop) (xs : List α) (backward : Bool) (i : Nat) : Prop :=
  (∃ x ∈ xs[i]?, p x) ∧ ∀ j, (if backward then i < j else j < i) → ∀ x ∈ xs[j]?, ¬ p x

theorem zipIdx_split {x : α} (h : xs[i]? = some x) :
    xs.zipIdx = (xs.take i).zipIdx ++ (x, i) :: (xs.drop (i + 1)).zipIdx (i + 1) := by
  obtain ⟨hi, rfl⟩ := List.getElem?_eq_some_iff.1 h
  have hlength : (xs.take i).length = i := List.length_take_of_le (Nat.le_of_lt hi)
  conv_lhs => rw [← List.take_append_drop i xs, List.drop_eq_getElem_cons hi]
  rw [List.zipIdx_append, List.zipIdx_cons, hlength, Nat.zero_add]

/-- Things with their places, in the order in which they are visited. -/
def visited (xs : List α) (backward : Bool) : List (α × Nat) := if backward then xs.zipIdx.reverse else xs.zipIdx

theorem find?_of_isFirst (h : IsFirst (q ·) xs backward i) :
    ((visited xs backward).find? fun x => q x.1).map (·.2) = some i := by
  obtain ⟨⟨x, hx, hqx⟩, hbefore⟩ := h
  have hsplit := zipIdx_split hx
  suffices hfind : (visited xs backward).find? (fun x => q x.1) = some (x, i) by
    rw [hfind]
    rfl
  cases backward with
  | false =>
    refine List.find?_eq_some_iff_append.2 ⟨hqx, _, _, hsplit, fun ⟨y, j⟩ hmem => ?_⟩
    have hy := List.mk_mem_zipIdx_iff_getElem?.1 hmem
    rw [List.getElem?_take, Option.ite_none_right_eq_some] at hy
    simpa using hbefore j hy.1 y hy.2
  | true =>
    have hreverse : visited xs true = ((xs.drop (i + 1)).zipIdx (i + 1)).reverse ++
        (x, i) :: (xs.take i).zipIdx.reverse := by
      rw [visited, if_pos rfl, hsplit]
      simp
    refine List.find?_eq_some_iff_append.2 ⟨hqx, _, _, hreverse, fun ⟨y, j⟩ hmem => ?_⟩
    obtain ⟨hij, hy⟩ := List.mk_mem_zipIdx_iff_le_and_getElem?_sub.1 (List.mem_reverse.1 hmem)
    rw [List.getElem?_drop, Nat.add_sub_cancel' hij] at hy
    simpa using hbefore j hij y hy

theorem find?_of_none (h : ∀ x ∈ xs, q x = false) :
    ((visited xs backward).find? fun x => q x.1).map (·.2) = none := by
  rw [Option.map_eq_none_iff, List.find?_eq_none]
  rintro ⟨x, j⟩ hmem
  have hplace : (x, j) ∈ xs.zipIdx := by
    cases backward with
    | false => exact hmem
    | true => exact List.mem_reverse.1 hmem
  simp [h x (List.mem_of_getElem? (List.mk_mem_zipIdx_iff_getElem?.1 hplace))]

/-- A property of the things that a list is made of. -/
theorem isFirst_map {β : Type} {f : β → α} {xs : List β} :
    IsFirst p (xs.map f) backward i ↔ IsFirst (fun x => p (f x)) xs backward i := by
  simp [IsFirst]

theorem IsFirst.unique {j : Nat} (hi : IsFirst p xs backward i) (hj : IsFirst p xs backward j) : i = j := by
  obtain ⟨⟨x, hx, hpx⟩, hi⟩ := hi
  obtain ⟨⟨y, hy, hpy⟩, hj⟩ := hj
  rcases Nat.lt_trichotomy i j with hlt | heq | hlt
  · cases backward with
    | false => exact absurd hpx (hj i hlt x hx)
    | true => exact absurd hpy (hi j hlt y hy)
  · exact heq
  · cases backward with
    | false => exact absurd hpy (hi j hlt y hy)
    | true => exact absurd hpx (hj i hlt x hx)

/-- There is a first place unless there is none. -/
theorem exists_isFirst (p : α → Prop) (xs : List α) (backward : Bool) :
    (∃ i, IsFirst p xs backward i) ∨ ∀ x ∈ xs, ¬ p x := by
  classical
  by_cases h : ∃ j : Nat, ∃ x ∈ xs[j]?, p x
  · left
    cases backward with
    | false => exact ⟨Nat.find h, Nat.find_spec h, fun j hj x hx hpx => Nat.find_min h hj ⟨x, hx, hpx⟩⟩
    | true =>
      obtain ⟨j, x, hx, hpx⟩ := h
      have hbound : ∀ {k : Nat} {y : α}, y ∈ xs[k]? → k ≤ xs.length := fun hy =>
        Nat.le_of_lt (List.getElem?_eq_some_iff.1 hy).1
      refine ⟨Nat.findGreatest (fun k : Nat => ∃ y ∈ xs[k]?, p y) xs.length,
        Nat.findGreatest_spec (P := fun k : Nat => ∃ y ∈ xs[k]?, p y) (hbound hx) ⟨x, hx, hpx⟩, fun k hk y hy hpy => ?_⟩
      exact Nat.findGreatest_is_greatest hk (hbound hy) ⟨y, hy, hpy⟩
  · right
    intro x hx hpx
    obtain ⟨j, hj⟩ := List.getElem?_of_mem hx
    exact h ⟨j, x, hj, hpx⟩

/-- An outcome is what `found` says of the first place with a property, or there is none and it is `missed`. -/
def Finds (p : α → Prop) (xs : List α) (backward : Bool) (found : Nat → Outcome Value) (missed : Outcome Value)
    (outcome : Outcome Value) : Prop :=
  (∃ i, IsFirst p xs backward i ∧ outcome = found i) ∨ (∀ x ∈ xs, ¬ p x) ∧ outcome = missed

namespace Finds

variable {found found' : Nat → Outcome Value} {missed outcome : Outcome Value}

theorem of_cases (hfound : ∀ i, IsFirst p xs backward i → outcome = found i)
    (hmissed : (∀ x ∈ xs, ¬ p x) → outcome = missed) : Finds p xs backward found missed outcome :=
  (exists_isFirst p xs backward).imp (fun ⟨i, hi⟩ => ⟨i, hi, hfound i hi⟩) fun h => ⟨h, hmissed h⟩

theorem of_isFirst (h : Finds p xs backward found missed outcome) (hi : IsFirst p xs backward i) :
    outcome = found i := by
  rcases h with ⟨j, hj, heq⟩ | ⟨hnone, -⟩
  · rw [heq, hi.unique hj]
  · obtain ⟨⟨x, hx, hpx⟩, -⟩ := hi
    exact absurd hpx (hnone x (List.mem_of_getElem? hx))

theorem of_none (h : Finds p xs backward found missed outcome) (hnone : ∀ x ∈ xs, ¬ p x) : outcome = missed := by
  rcases h with ⟨i, ⟨⟨x, hx, hpx⟩, -⟩, -⟩ | ⟨-, heq⟩
  · exact absurd hpx (hnone x (List.mem_of_getElem? hx))
  · exact heq

theorem congr {p' : α → Prop} (h : Finds p xs backward found missed outcome) (hp : ∀ x ∈ xs, (p x ↔ p' x))
    (hfound : ∀ j < xs.length, found j = found' j) : Finds p' xs backward found' missed outcome := by
  rcases h with ⟨i, ⟨⟨x, hx, hpx⟩, hbefore⟩, heq⟩ | ⟨hnone, heq⟩
  · refine .inl ⟨i, ⟨⟨x, hx, (hp x (List.mem_of_getElem? hx)).1 hpx⟩, fun j hj y hy hpy => ?_⟩, ?_⟩
    · exact hbefore j hj y hy ((hp y (List.mem_of_getElem? hy)).2 hpy)
    · rw [heq, hfound i (List.getElem?_eq_some_iff.1 hx).1]
  · exact .inr ⟨fun x hx hpx => hnone x hx ((hp x hx).2 hpx), heq⟩

end Finds

/-! ## Transposed grids -/

namespace Grid

variable {g : Grid} {row : List Value} {rows : Grid}

/-- A list has what stands at its places. -/
theorem map_getD_range (xs : List α) (default : α) :
    (List.range xs.length).map (fun i => xs[i]?.getD default) = xs := by
  refine List.ext_getElem (by simp) fun i hi hi' => ?_
  rw [List.getElem_map, List.getElem_range, List.getElem?_eq_getElem hi', Option.getD_some]

theorem map_inRow_range (row : List Value) : (List.range row.length).map (inRow row) = row := map_getD_range row .empty

/-- The first column of the transposed grid is the first row. -/
theorem column_zero_transpose (row : List Value) (rows : Grid) : (transpose (row :: rows)).column 0 = row := by
  rw [transpose_eq_map_column, column, List.map_map]
  exact map_inRow_range row

theorem width_transpose (h : 0 < g.width) : g.transpose.width = g.length := by
  obtain ⟨w, hw⟩ := Nat.exists_eq_succ_of_ne_zero (Nat.ne_of_gt h)
  rw [transpose_eq_map_column, hw, List.range_succ_eq_map]
  simp [width, column]

theorem entry_transpose (r : Nat) (h : i < g.width) : g.transpose.entry i r = g.entry r i := by
  rw [transpose_eq_map_column, entry, List.getElem?_map, List.getElem?_range h]
  show inRow (g.column i) r = inRow (g[r]?.getD []) i
  rw [inRow, column, List.getElem?_map]
  cases g[r]? <;> rfl

end Grid

namespace Lookup

/-! ## Targets -/

theorem compareChars_eq_iff {cs ds : List Char} : Text.compareChars cs ds = .eq ↔ cs = ds := by
  induction cs generalizing ds with
  | nil => cases ds <;> simp [Text.compareChars]
  | cons c cs ih =>
    cases ds with
    | nil => simp [Text.compareChars]
    | cons d ds => simp [Text.compareChars, Ordering.then_eq_eq, ih, Char.toNat_inj]

section Targets

variable [RegexLibrary]

/-- A text as a target, where wildcards are allowed. -/
def textTarget (s : String) : Target :=
  ⟨.text s, if Wildcard.hasWildcards s.toList then Wildcard.compile? s.toList else none⟩

theorem ofValue_text (s : String) : Target.ofValue (.text s) true = .ok (textTarget s) := rfl

/-- The texts that are looked up as the patterns that they write: those with wildcards, if they compile, and those
without escapes. -/
def readsGlob (cs : List Char) : Bool :=
  if Wildcard.hasWildcards cs then (Wildcard.compile? cs).isSome else Wildcard.unescape cs == cs

/-- Without a pattern texts are equal in lower case. -/
theorem accepts_textTarget_of_exact {s t : String} (h : (textTarget s).pattern = none) :
    (textTarget s).accepts (.text t) ↔ Text.lower t = Text.lower s := by
  unfold Target.accepts
  rw [h]
  show (some (Text.compareText (Text.lower t) (Text.lower s)) == some .eq) = true ↔ _
  rw [beq_iff_eq, Option.some_inj, Text.compareText, compareChars_eq_iff, String.toList_inj]

/-- A text that is read as its pattern is looked up as criteria take it. -/
theorem accepts_textTarget_eq {s t : String} (h : readsGlob s.toList) :
    (textTarget s).accepts (.text t) = (TextPattern.ofText s).accepts t := by
  unfold readsGlob at h
  split at h
  · rename_i hwild
    obtain ⟨r, hr⟩ := Option.isSome_iff_exists.1 h
    have hpattern : (textTarget s).pattern = some r := (if_pos hwild).trans hr
    rw [TextPattern.ofText_of_compile? hwild hr]
    unfold Target.accepts
    rw [hpattern]
    rfl
  · rename_i hplain
    rw [TextPattern.ofText_of_not_hasWildcards (Bool.not_eq_true _ ▸ hplain), beq_iff_eq.1 h, String.ofList_toList,
      TextPattern.accepts, Bool.eq_iff_iff, accepts_textTarget_of_exact (if_neg hplain), beq_iff_eq]

theorem accepts_textTarget_iff {s t : String} (hlib : RegexLibrary.Documented) (hs : Ascii s.toList)
    (ht : Ascii t.toList) (h : readsGlob s.toList) : (textTarget s).accepts (.text t) ↔ Glob s.toList t.toList := by
  rw [accepts_textTarget_eq h]
  unfold readsGlob at h
  split at h
  · rename_i hwild
    exact TextPattern.accepts_of_compile? hlib hs ht hwild h
  · rename_i hplain
    exact TextPattern.accepts_of_not_hasWildcards hs ht (Bool.not_eq_true _ ▸ hplain)

/-- A text that is not read as its pattern misses some text that the pattern stands for. -/
theorem exists_glob_of_not_readsGlob {s : String} (hs : Ascii s.toList) (h : ¬ readsGlob s.toList) :
    ∃ t : String, Ascii t.toList ∧ Glob s.toList t.toList ∧ ¬ (textTarget s).accepts (.text t) := by
  have hpattern : (textTarget s).pattern = none := by
    refine ite_eq_right_iff.2 fun hwild => ?_
    rw [readsGlob, if_pos hwild] at h
    exact Option.not_isSome_iff_eq_none.1 h
  have hsample : Ascii (String.ofList (Wildcard.sample s.toList)).toList := by
    rw [String.toList_ofList]
    exact Wildcard.ascii_sample hs
  refine ⟨_, hsample, ?_, fun haccepts => h ?_⟩
  · rw [String.toList_ofList]
    exact Wildcard.glob_sample s.toList
  · -- accepted by its lower-case form, the sample would have to be the pattern itself
    rw [accepts_textTarget_of_exact hpattern, Text.lower_eq_iff hsample hs, String.toList_ofList] at haccepts
    obtain ⟨hwild, hescapes⟩ := Wildcard.plain_of_map_sample haccepts
    rw [readsGlob, if_neg (by simp [hwild]), hescapes, beq_self_eq_true]

end Targets

/-! ## Lookups -/

variable {t : Target} {s : String} {texts : List String} {arguments : List Value}

/-- The place that equality chooses among texts. -/
theorem place_exact (h : IsFirst (fun s => t.accepts (.text s)) texts backward i) :
    (Mode.exact true).place t (texts.map .text) backward = some i :=
  find?_of_isFirst (isFirst_map.2 h)

theorem place_exact_none (h : ∀ s ∈ texts, ¬ t.accepts (.text s)) :
    (Mode.exact true).place t (texts.map .text) backward = none := by
  refine find?_of_none fun key hkey => ?_
  obtain ⟨s, hs, rfl⟩ := List.mem_map.1 hkey
  exact Bool.eq_false_iff.2 (h s hs)

/-- What follows from the place of a key. -/
theorem finds_placeOr (found : Nat → Outcome Value) : Finds (fun s => t.accepts (.text s)) texts false found
    (.error .notAvailable) ((Mode.exact true).placeOr t (texts.map .text) >>= found) := by
  refine .of_cases (fun i h => ?_) fun h => ?_
  · rw [Mode.placeOr, place_exact h]
    rfl
  · rw [Mode.placeOr, place_exact_none h]
    rfl

/-- The mode that a number asks for in a list. -/
def listMode (kind : Float) : Mode := if kind > 0.0 then .ascending else if kind < 0.0 then .descending else .exact true

section Lookups

variable [RegexLibrary]

theorem position_eq {kind : Float} {keys : List Value} (hlist : (argAt arguments 1).grid.vector? = some keys)
    (hkind : optionalNumber arguments 2 1.0 = .ok kind) : position arguments = (do
      let t ← Target.ofValue (argAt arguments 0) (listMode kind).wildcards
      let i ← (listMode kind).placeOr t keys
      return .number (Float.ofNat (i + 1))) := by
  rw [position, hkind, ok_bind]
  simp only [hlist]
  rfl

theorem position_finds (hs : argAt arguments 0 = .text s)
    (hlist : (argAt arguments 1).grid.vector? = some (texts.map .text))
    (hkind : optionalNumber arguments 2 1.0 = .ok 0.0) :
    Finds (fun t => (textTarget s).accepts (.text t)) texts false (fun i => .ok (.number (Float.ofNat (i + 1))))
      (.error .notAvailable) (position arguments) := by
  have hmode : listMode 0.0 = .exact true := by decide +kernel
  rw [position_eq hlist hkind, hmode, hs, Mode.wildcards, ofValue_text, ok_bind]
  exact finds_placeOr _

/-- The mode of a table. -/
def tableMode (approximate : Bool) : Mode := if approximate then .ascending else .exact true

theorem inTable_eq {table : Grid} {approximate : Bool} {column : Nat}
    (happroximate : (if isMissing arguments 3 then .ok true else truthOf (argAt arguments 3)) = .ok approximate)
    (hcolumn : (numberArg arguments 2 >>= positiveIndex) = .ok column) (hwidth : column ≤ table.width) :
    inTable arguments table = (do
      let t ← Target.ofValue (argAt arguments 0) (tableMode approximate).wildcards
      let i ← (tableMode approximate).placeOr t (table.column 0)
      return table.entry i (column - 1)) := by
  obtain ⟨x, hx, hindex⟩ := bind_eq_ok_iff.1 hcolumn
  have hread (f : Bool → Outcome Value) : (if isMissing arguments 3 then .ok true >>= f
      else truthOf (argAt arguments 3) >>= f) = f approximate := by
    rw [← apply_ite (· >>= f), happroximate, ok_bind]
  rw [inTable, hread, hx]
  simp only [ok_bind, hindex, if_neg (Nat.not_lt.2 hwidth)]
  rfl

theorem inTable_finds {table : Grid} {column : Nat} (hs : argAt arguments 0 = .text s)
    (hexact : isMissing arguments 3 = false ∧ truthOf (argAt arguments 3) = .ok false)
    (hcolumn : (numberArg arguments 2 >>= positiveIndex) = .ok column) (hwidth : column ≤ table.width)
    (hkeys : table.column 0 = texts.map .text) :
    Finds (fun t => (textTarget s).accepts (.text t)) texts false (fun i => .ok (table.entry i (column - 1)))
      (.error .notAvailable) (inTable arguments table) := by
  have happroximate : (if isMissing arguments 3 then .ok true else truthOf (argAt arguments 3)) = .ok false := by
    rw [hexact.1, hexact.2]
    rfl
  rw [inTable_eq happroximate hcolumn hwidth, hkeys, hs, tableMode, if_neg Bool.false_ne_true, Mode.wildcards,
    ofValue_text, ok_bind]
  exact finds_placeOr _

/-- Whether keys stand in a column, one in each row. -/
def alongColumn (keys : Grid) : Bool := 1 < keys.length || keys.width = 1

/-- The rows or columns that line up with keys. -/
def lines (keys results : Grid) : Grid := if alongColumn keys then results else results.transpose

theorem aligned_eq {mode : Mode} {keys : List Value} (hlist : (argAt arguments 1).grid.vector? = some keys)
    (hmode : (optionalNumber arguments 4 0.0 >>= modeOf) = .ok mode)
    (hdirection : (optionalNumber arguments 5 1.0 >>= isBackward) = .ok backward)
    (ht : Target.ofValue (argAt arguments 0) mode.wildcards = .ok t)
    (hlines : (lines (argAt arguments 1).grid (argAt arguments 2).grid).length = keys.length) :
    aligned arguments = (mode.place t keys backward).elim
      (if isMissing arguments 3 then .error .notAvailable else .ok (argAt arguments 3))
      fun i => .ok (resultOf (alongColumn (argAt arguments 1).grid)
        ((lines (argAt arguments 1).grid (argAt arguments 2).grid)[i]?.getD [])) := by
  obtain ⟨x, hx, hmode⟩ := bind_eq_ok_iff.1 hmode
  obtain ⟨y, hy, hbackward⟩ := bind_eq_ok_iff.1 hdirection
  have hlength : ((lines (argAt arguments 1).grid (argAt arguments 2).grid).length != keys.length) = false := by
    simp [hlines]
  rw [aligned, hx, ok_bind, hmode, ok_bind, hy, ok_bind, hbackward, ok_bind, ht, ok_bind]
  simp only [hlist]
  refine (if_neg (Bool.eq_false_iff.1 hlength)).trans ?_
  cases mode.place t keys backward <;> rfl

theorem aligned_finds (hs : argAt arguments 0 = .text s)
    (hlist : (argAt arguments 1).grid.vector? = some (texts.map .text))
    (hmode : optionalNumber arguments 4 0.0 = .ok 2.0)
    (hdirection : (optionalNumber arguments 5 1.0 >>= isBackward) = .ok backward)
    (hlines : (lines (argAt arguments 1).grid (argAt arguments 2).grid).length = texts.length) :
    Finds (fun t => (textTarget s).accepts (.text t)) texts backward
      (fun i => .ok (resultOf (alongColumn (argAt arguments 1).grid)
        ((lines (argAt arguments 1).grid (argAt arguments 2).grid)[i]?.getD [])))
      (if isMissing arguments 3 then .error .notAvailable else .ok (argAt arguments 3)) (aligned arguments) := by
  have hcode : modeOf 2.0 = .ok (.exact true) := by decide +kernel
  rw [aligned_eq hlist (by rw [hmode, ok_bind, hcode]) hdirection (by rw [hs, Mode.wildcards, ofValue_text])
    (by rw [hlines, List.length_map])]
  refine .of_cases (fun i h => ?_) fun h => ?_
  · rw [place_exact h, Option.elim_some]
  · rw [place_exact_none h, Option.elim_none]

/-! ## All lookups -/

/-- The lookups of a text for equality choose the first of some texts with a property, or miss if there is none: in a
list, in the first column or the first row of a table, and in keys that line up with results. -/
structure SelectFirst (s : String) (p : String → Prop) (texts : List String) : Prop where
  position : ∀ arguments : List Value, argAt arguments 0 = .text s →
    (argAt arguments 1).grid.vector? = some (texts.map .text) → optionalNumber arguments 2 1.0 = .ok 0.0 →
    Finds p texts false (fun i => .ok (.number (Float.ofNat (i + 1)))) (.error .notAvailable) (position arguments)
  vertical : ∀ (arguments : List Value) (column : Nat), argAt arguments 0 = .text s →
    isMissing arguments 3 = false → truthOf (argAt arguments 3) = .ok false →
    (numberArg arguments 2 >>= positiveIndex) = .ok column → column ≤ (argAt arguments 1).grid.width →
    (argAt arguments 1).grid.column 0 = texts.map .text →
    Finds p texts false (fun i => .ok ((argAt arguments 1).grid.entry i (column - 1))) (.error .notAvailable)
      (vertical arguments)
  horizontal : ∀ (arguments : List Value) (row : Nat), argAt arguments 0 = .text s →
    isMissing arguments 3 = false → truthOf (argAt arguments 3) = .ok false →
    (numberArg arguments 2 >>= positiveIndex) = .ok row → row ≤ (argAt arguments 1).grid.length →
    texts ≠ [] → (argAt arguments 1).grid.head? = some (texts.map .text) →
    Finds p texts false (fun i => .ok ((argAt arguments 1).grid.entry (row - 1) i)) (.error .notAvailable)
      (horizontal arguments)
  aligned : ∀ (arguments : List Value) (backward : Bool), argAt arguments 0 = .text s →
    (argAt arguments 1).grid.vector? = some (texts.map .text) → optionalNumber arguments 4 0.0 = .ok 2.0 →
    (optionalNumber arguments 5 1.0 >>= isBackward) = .ok backward →
    (lines (argAt arguments 1).grid (argAt arguments 2).grid).length = texts.length →
    Finds p texts backward (fun i => .ok (resultOf (alongColumn (argAt arguments 1).grid)
        ((lines (argAt arguments 1).grid (argAt arguments 2).grid)[i]?.getD [])))
      (if isMissing arguments 3 then .error .notAvailable else .ok (argAt arguments 3)) (aligned arguments)

theorem selectFirst_accepts (s : String) (texts : List String) :
    SelectFirst s (fun t => (textTarget s).accepts (.text t)) texts where
  position _ := position_finds
  vertical _ _ hs hpresent hexact := inTable_finds hs ⟨hpresent, hexact⟩
  horizontal arguments row hs hpresent hexact hrow hlength hnonempty hhead := by
    obtain ⟨rows, hgrid⟩ := List.head?_eq_some_iff.1 hhead
    have hwidth : (argAt arguments 1).grid.width = texts.length := by simp [Grid.width, hgrid]
    have hpos : 0 < (argAt arguments 1).grid.width := hwidth ▸ List.length_pos_iff.2 hnonempty
    have hkeys : (argAt arguments 1).grid.transpose.column 0 = texts.map .text := by
      rw [hgrid, Grid.column_zero_transpose]
    refine (inTable_finds hs ⟨hpresent, hexact⟩ hrow ?_ hkeys).congr (fun _ _ => Iff.rfl) fun j hj => ?_
    · rwa [Grid.width_transpose hpos]
    · rw [Grid.entry_transpose _ (hwidth ▸ hj)]
  aligned _ _ := aligned_finds

theorem SelectFirst.congr {p p' : String → Prop} (h : SelectFirst s p texts) (hp : ∀ t ∈ texts, (p t ↔ p' t)) :
    SelectFirst s p' texts where
  position arguments h0 h1 h2 := (h.position arguments h0 h1 h2).congr hp fun _ _ => rfl
  vertical arguments k h0 h1 h2 h3 h4 h5 := (h.vertical arguments k h0 h1 h2 h3 h4 h5).congr hp fun _ _ => rfl
  horizontal arguments k h0 h1 h2 h3 h4 h5 h6 :=
    (h.horizontal arguments k h0 h1 h2 h3 h4 h5 h6).congr hp fun _ _ => rfl
  aligned arguments d h0 h1 h2 h3 h4 := (h.aligned arguments d h0 h1 h2 h3 h4).congr hp fun _ _ => rfl

/-- Among ASCII texts, the lookups of a text choose the first one that it stands for as a pattern, and that is the first
one that it accepts as a criterion, just if it is read as a pattern or has nothing escaped. -/
theorem selectFirst_glob_iff (hlib : RegexLibrary.Documented) (hs : Ascii s.toList) :
    (∀ texts : List String, (∀ t ∈ texts, Ascii t.toList) →
        SelectFirst s (fun t => Glob s.toList t.toList) texts ∧
          SelectFirst s (fun t => (TextPattern.ofText s).accepts t) texts) ↔
      readsGlob s.toList := by
  constructor
  · intro h
    by_contra hreads
    obtain ⟨t, ht, hglob, hmiss⟩ := exists_glob_of_not_readsGlob hs hreads
    -- a list of this text alone, in which it is not found
    have hkind : optionalNumber [.text s, .array [[.text t]], .number (0.0 : Float)] 2 1.0 = .ok 0.0 := rfl
    have hlist : (argAt [.text s, .array [[.text t]], .number (0.0 : Float)] 1).grid.vector? =
        some ([t].map .text) := rfl
    have hselect := (h [t] (by simpa using ht)).1.position _ rfl hlist hkind
    have hfound := hselect.of_isFirst (i := 0) ⟨⟨t, rfl, hglob⟩, by simp⟩
    have hmissed := (position_finds rfl hlist hkind).of_none (by simpa using hmiss)
    rw [hfound] at hmissed
    cases hmissed
  · intro h texts htexts
    have hselect := selectFirst_accepts s texts
    exact ⟨hselect.congr fun t ht => accepts_textTarget_iff hlib hs (htexts t ht) h,
      hselect.congr fun t _ => by rw [accepts_textTarget_eq h]⟩

end Lookups

theorem selectFirst_glob_star : readsGlob "b*d".toList ∧
    position [.text "b*d", .array [[.text "abd", .text "BAD", .text "bd"]], .number (0.0 : Float)] =
      .ok (.number (Float.ofNat 2)) ∧
    aligned [.text "b*d", .array [[.text "abd", .text "BAD", .text "bd"]], .array [[.text "x", .text "y", .text "z"]],
      .empty, .number (2.0 : Float), .number (-1.0 : Float)] = .ok (.text "z") := by
  have hreads : readsGlob "b*d".toList := by decide +kernel
  have hselect := (selectFirst_glob_iff (s := "b*d") RegexLibrary.documented_tables (by decide)).2 hreads
    ["abd", "BAD", "bd"] (by decide) |>.1
  have hsecond : Glob "b*d".toList "BAD".toList :=
    .char (by decide) rfl <| .star ['A'] <| .char (by decide) rfl .nil
  have hthird : Glob "b*d".toList "bd".toList := .char (by decide) rfl <| .star [] <| .char (by decide) rfl .nil
  have hfirst : ¬ Glob ['b', '*', 'd'] ['a', 'b', 'd'] := by
    intro h
    cases h with
    | char _ hd _ => exact absurd hd (by decide)
  refine ⟨hreads, ?_, ?_⟩
  · refine (hselect.position _ rfl rfl rfl).of_isFirst (i := 1) ⟨⟨"BAD", rfl, hsecond⟩, fun j hj t ht => ?_⟩
    obtain rfl : j = 0 := by simpa using hj
    obtain rfl := Option.some.inj ht
    exact hfirst
  · refine (hselect.aligned _ true rfl rfl rfl rfl rfl).of_isFirst (i := 2) ⟨⟨"bd", rfl, hthird⟩, fun j hj t ht => ?_⟩
    exact absurd (List.getElem?_eq_some_iff.1 ht).1 (Nat.not_lt.2 hj)

/-- What a criterion finds with an escaped wildcard no lookup finds. -/
theorem position_escapedStar : (TextPattern.ofText "a~*").accepts "a*" ∧ Glob "a~*".toList "a*".toList ∧
    position [.text "a~*", .array [[.text "a*"]], .number (0.0 : Float)] = .error .notAvailable ∧
    ¬ ∀ (s : String) (texts : List String), Ascii s.toList → (∀ t ∈ texts, Ascii t.toList) →
      SelectFirst s (fun t => Glob s.toList t.toList) texts := by
  have hglob : Glob "a~*".toList "a*".toList := .char (by decide) rfl <| .escaped rfl .nil
  have hmissed : position [.text "a~*", .array [[.text "a*"]], .number (0.0 : Float)] = .error .notAvailable := by
    have hlist : (argAt [.text "a~*", .array [[.text "a*"]], .number (0.0 : Float)] 1).grid.vector? =
        some (["a*"].map .text) := rfl
    refine (position_finds rfl hlist rfl).of_none fun t ht => ?_
    obtain rfl := List.mem_singleton.1 ht
    decide +kernel
  refine ⟨by decide +kernel, hglob, hmissed, fun h => ?_⟩
  have hselect := (h "a~*" ["a*"] (by decide) (by decide)).position
    [.text "a~*", .array [[.text "a*"]], .number (0.0 : Float)] rfl rfl rfl
  have hfound := hselect.of_isFirst (i := 0) ⟨⟨"a*", rfl, hglob⟩, fun j hj => absurd hj (by simp)⟩
  rw [hmissed] at hfound
  cases hfound

end Lookup

end Spreadsheet
