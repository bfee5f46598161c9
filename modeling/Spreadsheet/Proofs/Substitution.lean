import Spreadsheet.Proofs.TextArguments

/-!
# Replacing the occurrences of a text

The occurrences of a text in another one are found from the left and do not overlap, so they take the other text apart
into what stands in front of each and what is left after the last. A replacement keeps these gaps. What is put in place
of an occurrence makes no difference for those before it, so all of them may as well be replaced one by one, the last
one first.

* `Text.Occurrences` : the gaps between the occurrences; `Text.nonempty_occurrences` : every text has them;
* `Text.Occurrences.filled` : the text with other texts in place of the occurrences;
* `Text.Occurrences.substitute_eq`, `Text.Occurrences.substitute_filled` : what a replacement does, also after others;
* `TextFunction.substitute_instances` : one occurrence, all of them, and all of them one by one.
-/

namespace Spreadsheet

namespace Text

/-- Gaps with a text after each of them, which may depend on its number. -/
def fill (f : ℕ → List Char) : ℕ → List (List Char) → List Char
  | _, [] => []
  | k, gap :: gaps => gap ++ f k ++ fill f (k + 1) gaps

/-- How a text is taken apart by the occurrences of `old` that are found from the left and do not overlap. -/
structure Occurrences (old s : List Char) where
  /-- What stands in front of each of them, after the one before. -/
  gaps : List (List Char)
  rest : List Char
  text : gaps.flatMap (· ++ old) ++ rest = s
  first : ∀ gap ∈ gaps, ∀ k < gap.length, ¬old <+: (gap ++ old).drop k
  last : ¬old <:+: rest

variable {o : Char} {old new s gap tail : List Char} {gaps : List (List Char)} {f g : ℕ → List Char} {pick : ℕ → Bool}
  {i k : ℕ}

/-! ## Gaps -/

theorem fill_const (old : List Char) (k : ℕ) (gaps : List (List Char)) :
    fill (fun _ => old) k gaps = gaps.flatMap (· ++ old) := by
  induction gaps generalizing k with
  | nil => rfl
  | cons gap gaps ih => rw [fill, ih, List.flatMap_cons]

theorem fill_append (f : ℕ → List Char) (k : ℕ) (gaps gaps' : List (List Char)) :
    fill f k (gaps ++ gaps') = fill f k gaps ++ fill f (k + gaps.length) gaps' := by
  induction gaps generalizing k with
  | nil => rfl
  | cons gap gaps ih =>
    rw [List.cons_append, fill, fill, ih, List.length_cons, Nat.add_right_comm, Nat.add_assoc k, List.append_assoc,
      List.append_assoc, List.append_assoc]

theorem fill_congr (h : ∀ i, k ≤ i → i < k + gaps.length → f i = g i) : fill f k gaps = fill g k gaps := by
  induction gaps generalizing k with
  | nil => rfl
  | cons gap gaps ih =>
    rw [List.length_cons] at h
    rw [fill, fill, h k le_rfl (by omega), ih fun i hi hlt => h i (by omega) (by omega)]

/-! ## One occurrence after another -/

/-- A gap is passed over, up to the occurrence after it. -/
theorem replaceWhere_gap (hfirst : ∀ j < gap.length, ¬(o :: old) <+: (gap ++ o :: old).drop j) :
    replaceWhere o old new pick k (gap ++ o :: old ++ tail) =
      gap ++ (if pick k then new else o :: old) ++ replaceWhere o old new pick (k + 1) tail := by
  induction gap with
  | nil =>
    have hhere : (o :: old).isPrefixOf (o :: (old ++ tail)) := List.isPrefixOf_iff_prefix.2 (List.prefix_append _ _)
    rw [List.nil_append, List.cons_append, replaceWhere, if_pos hhere, List.drop_left, List.nil_append]
  | cons c gap ih =>
    have hnot : ¬(o :: old).isPrefixOf (c :: (gap ++ o :: old ++ tail)) := by
      rw [List.isPrefixOf_iff_prefix]
      intro hstarts
      exact hfirst 0 (Nat.succ_pos _) (List.prefix_of_prefix_length_le hstarts
        (List.prefix_append (c :: (gap ++ o :: old)) tail) (by simp; omega))
    rw [List.cons_append, List.cons_append, replaceWhere, if_neg hnot,
      ih fun j hj => hfirst (j + 1) (Nat.succ_lt_succ hj)]
    rfl

theorem replaceWhere_flatMap (hfirst : ∀ gap ∈ gaps, ∀ j < gap.length, ¬(o :: old) <+: (gap ++ o :: old).drop j) :
    replaceWhere o old new pick k (gaps.flatMap (· ++ o :: old) ++ tail) =
      fill (fun i => if pick i then new else o :: old) k gaps ++
        replaceWhere o old new pick (k + gaps.length) tail := by
  induction gaps generalizing k with
  | nil => rfl
  | cons gap gaps ih =>
    obtain ⟨hgap, hgaps⟩ := List.forall_mem_cons.1 hfirst
    rw [List.flatMap_cons, List.append_assoc, replaceWhere_gap hgap, ih hgaps, fill, List.length_cons,
      Nat.add_right_comm, Nat.add_assoc k, ← List.append_assoc]

theorem replaceWhere_of_not_pick (h : ∀ i, k ≤ i → pick i = false) : replaceWhere o old new pick k s = s := by
  fun_induction replaceWhere o old new pick k s with
  | case1 => rfl
  | case2 k c cs hstarts ih =>
    have hsplit := List.prefix_iff_eq_append.1 (List.isPrefixOf_iff_prefix.1 hstarts)
    rw [h k le_rfl, if_neg Bool.false_ne_true, ih fun i hi => h i (by omega)]
    exact hsplit
  | case3 k c cs hnot ih => rw [ih h]

theorem replaceWhere_of_not_infix (h : ¬(o :: old) <:+: s) : replaceWhere o old new pick k s = s := by
  induction s with
  | nil => rw [replaceWhere]
  | cons c cs ih =>
    rw [List.infix_cons_iff, not_or, ← List.isPrefixOf_iff_prefix] at h
    rw [replaceWhere, if_neg h.1, ih h.2]

/-! ## All occurrences -/

/-- A text that is not empty takes every text apart. The cases are those of a replacement. -/
theorem nonempty_occurrences (hold : old ≠ []) (s : List Char) : Nonempty (Occurrences old s) := by
  obtain ⟨o, old, rfl⟩ := List.exists_cons_of_ne_nil hold
  fun_induction replaceWhere o old [] (fun _ => true) 1 s with
  | case1 => exact ⟨⟨[], [], rfl, nofun, by simp⟩⟩
  | case2 k c cs hstarts ih =>
    obtain ⟨gaps, rest, htext, hfirst, hlast⟩ := ih
    have hsplit : o :: old ++ cs.drop old.length = c :: cs :=
      List.prefix_iff_eq_append.1 (List.isPrefixOf_iff_prefix.1 hstarts)
    refine ⟨⟨[] :: gaps, rest, ?_, List.forall_mem_cons.2 ⟨nofun, hfirst⟩, hlast⟩⟩
    rw [List.flatMap_cons, List.append_assoc, htext]
    exact hsplit
  | case3 k c cs hnot ih =>
    obtain ⟨gaps, rest, rfl, hfirst, hlast⟩ := ih
    rw [List.isPrefixOf_iff_prefix] at hnot
    cases gaps with
    | nil => exact ⟨⟨[], c :: rest, rfl, nofun, by rw [List.infix_cons_iff]; exact not_or.2 ⟨hnot, hlast⟩⟩⟩
    | cons gap gaps =>
      obtain ⟨hgap, hgaps⟩ := List.forall_mem_cons.1 hfirst
      refine ⟨⟨(c :: gap) :: gaps, rest, rfl, List.forall_mem_cons.2 ⟨fun j hj => ?_, hgaps⟩, hlast⟩⟩
      cases j with
      | zero =>
        intro hstarts
        refine hnot (hstarts.trans ?_)
        rw [List.flatMap_cons, List.append_assoc]
        exact List.prefix_append (c :: (gap ++ o :: old)) _
      | succ j => exact hgap j (Nat.lt_of_succ_lt_succ hj)

namespace Occurrences

/-- How many they are. -/
def count (h : Occurrences old s) : ℕ := h.gaps.length

/-- The text with other texts in place of the occurrences, the first of which has number one. -/
def filled (h : Occurrences old s) (f : ℕ → List Char) : List Char := fill f 1 h.gaps ++ h.rest

theorem filled_const (h : Occurrences old s) : h.filled (fun _ => old) = s := by
  rw [filled, fill_const, h.text]

theorem filled_congr (h : Occurrences old s) (hfg : ∀ i, 1 ≤ i → i ≤ h.count → f i = g i) : h.filled f = h.filled g :=
  congrArg (· ++ h.rest) (fill_congr fun i hi hlt => hfg i hi (by rw [count]; omega))

theorem count_le_length (h : Occurrences old s) (hold : old ≠ []) : h.count ≤ s.length := by
  have hlength : ∀ gaps : List (List Char), gaps.length ≤ (gaps.flatMap (· ++ old)).length := by
    intro gaps
    have hpos := List.length_pos_of_ne_nil hold
    induction gaps with
    | nil => rfl
    | cons gap gaps ih =>
      rw [List.flatMap_cons, List.length_append, List.length_append, List.length_cons]
      omega
  calc h.count ≤ (h.gaps.flatMap (· ++ old)).length := hlength h.gaps
    _ ≤ s.length := by
        rw [← congrArg List.length h.text, List.length_append]
        exact Nat.le_add_right _ _

/-- A replacement puts the new text in place of the occurrences that are picked. -/
theorem substitute_eq (h : Occurrences old s) (hold : old ≠ []) (new : List Char) (pick : ℕ → Bool) :
    substitute old new pick s = h.filled fun i => if pick i then new else old := by
  obtain ⟨o, old, rfl⟩ := List.exists_cons_of_ne_nil hold
  calc substitute (o :: old) new pick s = replaceWhere o old new pick 1 (h.gaps.flatMap (· ++ o :: old) ++ h.rest) := by
        rw [h.text]
        rfl
    _ = h.filled fun i => if pick i then new else o :: old := by
        rw [replaceWhere_flatMap h.first, replaceWhere_of_not_infix h.last, filled]

/-- With the occurrences after it replaced, an occurrence is found under the same number. -/
theorem substitute_filled (h : Occurrences old s) (hold : old ≠ []) (new : List Char) (hi : i < h.count) :
    substitute old new (· == i + 1) (h.filled fun j => if i + 1 < j then new else old) =
      h.filled fun j => if i < j then new else old := by
  obtain ⟨o, old, rfl⟩ := List.exists_cons_of_ne_nil hold
  have hlength : (h.gaps.take (i + 1)).length = i + 1 := List.length_take_of_le hi
  -- the gaps up to the occurrence, and the rest
  have hsplit : ∀ f, h.filled f = fill f 1 (h.gaps.take (i + 1)) ++
      (fill f (1 + (i + 1)) (h.gaps.drop (i + 1)) ++ h.rest) := by
    intro f
    conv_lhs => rw [filled, ← List.take_append_drop (i + 1) h.gaps, fill_append, hlength, List.append_assoc]
  have hafter : ∀ k ≤ i + 1, fill (fun j => if k < j then new else o :: old) (1 + (i + 1)) (h.gaps.drop (i + 1)) =
      fill (fun _ => new) (1 + (i + 1)) (h.gaps.drop (i + 1)) :=
    fun k hk => fill_congr fun j hj _ => if_pos (by omega)
  have hbefore : fill (fun j => if i + 1 < j then new else o :: old) 1 (h.gaps.take (i + 1)) =
      (h.gaps.take (i + 1)).flatMap (· ++ o :: old) := by
    rw [← fill_const (o :: old) 1]
    exact fill_congr fun j _ hj => if_neg (by omega)
  rw [hsplit, hsplit, hafter _ le_rfl, hafter i (Nat.le_succ i), hbefore]
  show replaceWhere o old new (· == i + 1) 1 _ = _
  rw [replaceWhere_flatMap fun gap hgap => h.first gap (List.mem_of_mem_take hgap), hlength,
    replaceWhere_of_not_pick fun j hj => beq_eq_false_iff_ne.2 (by omega)]
  congr 1
  refine fill_congr fun j hj hlt => ?_
  simp only [beq_iff_eq]
  exact if_congr (by omega) rfl rfl

end Occurrences

end Text

/-! ## Calls -/

namespace TextFunction

open Text (Occurrences)

variable {s old new : String} {v : Value} {i : ℕ}

theorem gives_substitute_all [RegexLibrary] (hold : old ≠ "") (h : Occurrences old.toList s.toList) (new : String) :
    Gives "SUBSTITUTE" [.text s, .text old, .text new] (ofChars (h.filled fun _ => new.toList)) := by
  have hchars : old.toList ≠ [] := by simpa using hold
  have hfilled := h.substitute_eq hchars new.toList fun _ => true
  simp only [if_true] at hfilled
  refine gives_of_getElem? (j := 8) rfl le_rfl (Nat.le_succ 3) ?_
  rw [← hfilled]
  show (if old.toList.isEmpty then pure _ else _ : Outcome Value) = _
  rw [if_neg (by simpa using hchars)]
  rfl

theorem gives_substitute_one [RegexLibrary] (hold : old ≠ "") (hv : v.Holds i) (hi : 1 ≤ i) (s new : String) :
    Gives "SUBSTITUTE" [.text s, .text old, .text new, v]
      (ofChars (Text.substitute old.toList new.toList (· == min i (2 ^ 64 - 1)) s.toList)) := by
  have hplace : placeArg [.text s, .text old, .text new, v] 3 = _ := placeArg_eq rfl hv hi
  refine gives_of_getElem? (j := 8) rfl (Nat.le_succ 3) le_rfl ?_
  show (if old.toList.isEmpty then pure _ else (placeArg _ 3 >>= _) : Outcome Value) = _
  rw [if_neg (by simpa using hold), hplace]
  rfl

/-- Where the occurrences of a text are found from the left and do not overlap, a call with a number replaces the
occurrence that has it and keeps the others, and changes nothing if there are fewer. Without a number all of them are
replaced, and that is what replacing one after the other gives, from the last to the first. -/
theorem substitute_instances [RegexLibrary] (hold : old ≠ "") (hsize : s.length < 2 ^ 63) (new : String) :
    Nonempty (Occurrences old.toList s.toList) ∧ ∀ h : Occurrences old.toList s.toList,
      (∀ (v : Value) (i : ℕ), v.Holds i → 1 ≤ i → i ≤ h.count → Gives "SUBSTITUTE" [.text s, .text old, .text new, v]
        (ofChars (h.filled fun j => if j = i then new.toList else old.toList))) ∧
      (∀ (v : Value) (i : ℕ), v.Holds i → h.count < i →
        Gives "SUBSTITUTE" [.text s, .text old, .text new, v] (.text s)) ∧
      ∃ t : ℕ → String, t h.count = s ∧
        (∀ i < h.count, ∀ v : Value, v.Holds (i + 1 : ℕ) →
          Gives "SUBSTITUTE" [.text (t (i + 1)), .text old, .text new, v] (.text (t i))) ∧
        Gives "SUBSTITUTE" [.text s, .text old, .text new] (.text (t 0)) := by
  have hchars : old.toList ≠ [] := by simpa using hold
  refine ⟨Text.nonempty_occurrences hchars _, fun h => ?_⟩
  have hcount : h.count < 2 ^ 63 := (h.count_le_length hchars).trans_lt (by rwa [String.length_toList])
  refine ⟨fun v i hv hi hle => ?_, fun v i hv hlt => ?_,
    fun i => String.ofList (h.filled fun j => if i < j then new.toList else old.toList), ?_, fun i hi v hv => ?_, ?_⟩
  · have hgives := gives_substitute_one hold hv hi s new
    rw [min_eq_left (by omega), h.substitute_eq hchars] at hgives
    simpa only [beq_iff_eq] using hgives
  · -- no occurrence has the number, also where it is held within 64 bits
    have hgives := gives_substitute_one hold hv (by omega) s new
    have hsame : (h.filled fun j => if (j == min i (2 ^ 64 - 1)) = true then new.toList else old.toList) =
        s.toList := by
      rw [h.filled_congr fun j _ hj => if_neg (by rw [beq_iff_eq]; omega)]
      exact h.filled_const
    rw [h.substitute_eq hchars, hsame, ofChars, String.ofList_toList] at hgives
    exact hgives
  · dsimp only
    rw [h.filled_congr fun j _ hj => if_neg (by omega), h.filled_const, String.ofList_toList]
  · have hgives := gives_substitute_one hold hv (Nat.succ_pos i)
      (String.ofList (h.filled fun j => if i + 1 < j then new.toList else old.toList)) new
    rw [min_eq_left (by omega), String.toList_ofList, h.substitute_filled hchars _ hi] at hgives
    exact hgives
  · have hall : h.filled (fun j => if 0 < j then new.toList else old.toList) = h.filled fun _ => new.toList :=
      h.filled_congr fun j hj _ => if_pos hj
    dsimp only
    rw [hall]
    exact gives_substitute_all hold h new

/-- Three occurrences that do not overlap in a text with two more that do, and a replacement that makes new ones. -/
theorem substitute_instances_overlapping : "aa" ≠ "" ∧ "aaaa-aaa".length < 2 ^ 63 ∧
    ∃ h : Occurrences "aa".toList "aaaa-aaa".toList, h.count = 3 ∧ (Value.ofInt 2).Holds (2 : ℕ) ∧
      Gives "SUBSTITUTE" [.text "aaaa-aaa", .text "aa", .text "a", .ofInt 2] (.text "aaa-aaa") ∧
      (Value.ofInt 4).Holds (4 : ℕ) ∧
      Gives "SUBSTITUTE" [.text "aaaa-aaa", .text "aa", .text "a", .ofInt 4] (.text "aaaa-aaa") ∧
      ∃ t : ℕ → String, t 3 = "aaaa-aaa" ∧
        (∀ i < 3, ∀ v : Value, v.Holds (i + 1 : ℕ) →
          Gives "SUBSTITUTE" [.text (t (i + 1)), .text "aa", .text "a", v] (.text (t i))) ∧
        Gives "SUBSTITUTE" [.text "aaaa-aaa", .text "aa", .text "a"] (.text (t 0)) := by
  have hsize : "aaaa-aaa".length < 2 ^ 63 := by decide
  let h : Occurrences "aa".toList "aaaa-aaa".toList :=
    ⟨[[], [], ['-']], ['a'], by decide, by decide, by decide⟩
  have htwo : (Value.ofInt 2).Holds (2 : ℕ) := Value.holds_ofInt (by norm_num)
  have hfour : (Value.ofInt 4).Holds (4 : ℕ) := Value.holds_ofInt (by norm_num)
  obtain ⟨-, hall⟩ := substitute_instances (by decide : "aa" ≠ "") hsize "a"
  obtain ⟨hone, hnone, hchain⟩ := hall h
  exact ⟨by decide, hsize, h, rfl, htwo, hone _ 2 htwo (by decide) (by decide), hfour, hnone _ 4 hfour (by decide),
    hchain⟩

end TextFunction

end Spreadsheet
