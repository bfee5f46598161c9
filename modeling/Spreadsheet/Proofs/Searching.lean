import Mathlib.Data.Nat.Find
import Mathlib.Order.Bounds.Defs
import Spreadsheet.Function.Text
import Spreadsheet.Proofs.Globs

/-!
# Searching for patterns

A search gives the first place where a part of a text starts that its pattern stands for. The place is that of the first
match of an expression; a pattern without wildcards becomes the expression for it as it is written, escapes included.

* `PartAt` : a part of a text with a property, and where it starts;
* `Wildcard.beginsAt_items_iff`, `Wildcard.beginsAt_chars_iff` : where an expression matches, in terms of parts;
* `TextFunction.FindsFrom` : what a search gives;
* `TextFunction.search_finds` : searches find the first match of their expression;
* `TextFunction.searchesGlob`, `TextFunction.search_glob_iff` : which patterns are searched for as such.
-/

namespace Spreadsheet

open Text (Ascii ascii_append foldChar)

/-- Whether a part of a text that starts at a place, counted from one, has a property. -/
def PartAt (q : List Char → Prop) (cs : List Char) (k : Nat) : Prop :=
  ∃ front part rest, cs = front ++ (part ++ rest) ∧ front.length + 1 = k ∧ q part

variable {q : List Char → Prop} {c : Char} {cs : List Char} {k : Nat}

theorem partAt_succ_iff : PartAt q cs (k + 1) ↔ k ≤ cs.length ∧ ∃ part rest, cs.drop k = part ++ rest ∧ q part := by
  constructor
  · rintro ⟨front, part, rest, rfl, hk, hq⟩
    obtain rfl := Nat.succ.inj hk
    exact ⟨by simp, part, rest, by simp, hq⟩
  · rintro ⟨hk, part, rest, hdrop, hq⟩
    refine ⟨cs.take k, part, rest, ?_, by simp [hk], hq⟩
    rw [← hdrop, List.take_append_drop]

theorem PartAt.pos (h : PartAt q cs k) : 0 < k := by
  obtain ⟨front, _, _, -, rfl, -⟩ := h
  exact Nat.succ_pos _

theorem PartAt.le (h : PartAt q cs k) : k ≤ cs.length + 1 := by
  obtain ⟨front, part, rest, rfl, rfl, -⟩ := h
  exact Nat.succ_le_succ (by simp)

theorem partAt_congr {q' : List Char → Prop} (hcs : Ascii cs) (h : ∀ part, Ascii part → (q part ↔ q' part)) :
    PartAt q cs k ↔ PartAt q' cs k := by
  have hpart : ∀ {front part rest}, cs = front ++ (part ++ rest) → (q part ↔ q' part) := by
    rintro front part rest rfl
    exact h part (ascii_append.1 (ascii_append.1 hcs).2).1
  constructor
  · rintro ⟨front, part, rest, hsplit, hk, hq⟩
    exact ⟨front, part, rest, hsplit, hk, (hpart hsplit).1 hq⟩
  · rintro ⟨front, part, rest, hsplit, hk, hq⟩
    exact ⟨front, part, rest, hsplit, hk, (hpart hsplit).2 hq⟩

namespace Wildcard

open Regex (BeginsAt)

/-! ## Matches and parts -/

/-- The items of a pattern match where a part begins that it stands for. -/
theorem beginsAt_items_iff {p t : String} {j : Nat} (hp : Ascii p.toList) (ht : Ascii t.toList) :
    BeginsAt (items p.toList) t j ↔ PartAt (Glob p.toList) t.toList (j + 1) := by
  have hrest : Ascii (t.toList.drop j) := fun c hc => ht c (List.mem_of_mem_drop hc)
  have hitems : Regex.Begins (items p.toList ++ []) (j == 0) (t.toList.drop j) ↔
      ∃ part rest, t.toList.drop j = part ++ rest ∧ Glob p.toList part ∧
        Regex.Begins [] (j == 0 && part.isEmpty) rest := begins_items_append_iff hp hrest
  rw [List.append_nil] at hitems
  rw [BeginsAt, partAt_succ_iff, hitems]
  simp [Regex.Begins.nil]

/-- Characters match where a part begins that differs from them at most in case. -/
theorem beginsAt_chars_iff {p : List Char} {t : String} {j : Nat} :
    BeginsAt (p.map .char) t j ↔ PartAt (fun part => part.map foldChar = p.map foldChar) t.toList (j + 1) := by
  rw [BeginsAt, partAt_succ_iff, begins_chars_iff]

end Wildcard

namespace TextFunction

open Wildcard

/-! ## Searches -/

/-- A search from a place on gives the first place where a part with a property starts; if there is none, it fails. -/
def FindsFrom (q : List Char → Prop) (cs : List Char) (start : Nat) (outcome : Outcome Value) : Prop :=
  (∃ k, IsLeast {k | start ≤ k ∧ PartAt q cs k} k ∧ outcome = .ok (.number (Float.ofNat k))) ∨
    (∀ k, start ≤ k → ¬ PartAt q cs k) ∧ outcome = .error .value

variable {p t : String} {arguments : List Value} {start : Nat}

theorem placeOf_eq (search : List Char → List Char → Nat → Option Nat) (hp : textArg arguments 0 = .ok p)
    (ht : textArg arguments 1 = .ok t) (hstart : placeArg arguments 2 = .ok start) (hpos : 1 ≤ start) :
    placeOf search arguments = if t.toList.length + 1 < start then .error .value
      else match search p.toList t.toList (start - 1) with
        | some k => .ok (.number (Float.ofNat (k + 1)))
        | none => .error .value := by
  have hneedle : charsArg arguments 0 = .ok p.toList := by
    rw [charsArg, hp]
    rfl
  have hcs : charsArg arguments 1 = .ok t.toList := by
    rw [charsArg, ht]
    rfl
  have hbad : (decide (start = 0) || decide (t.toList.length + 1 < start)) = decide (t.toList.length + 1 < start) := by
    rw [decide_eq_false (Nat.ne_of_gt hpos), Bool.false_or]
  rw [placeOf, hneedle, hcs, hstart]
  simp only [ok_bind, hbad, decide_eq_true_eq]
  rfl

theorem findsFrom_placeOf {q : List Char → Prop} {search : List Char → List Char → Nat → Option Nat}
    (hp : textArg arguments 0 = .ok p) (ht : textArg arguments 1 = .ok t) (hstart : placeArg arguments 2 = .ok start)
    (hpos : 1 ≤ start) (hinside : start ≤ t.toList.length + 1)
    (hsome : ∀ k, search p.toList t.toList (start - 1) = some k →
      IsLeast {j | start - 1 ≤ j ∧ PartAt q t.toList (j + 1)} k)
    (hnone : search p.toList t.toList (start - 1) = none → ∀ j, start - 1 ≤ j → ¬ PartAt q t.toList (j + 1)) :
    FindsFrom q t.toList start (placeOf search arguments) := by
  rw [placeOf_eq search hp ht hstart hpos, if_neg (Nat.not_lt.2 hinside)]
  cases hsearch : search p.toList t.toList (start - 1) with
  | some k =>
    obtain ⟨⟨hk, hpart⟩, hleast⟩ := hsome k hsearch
    refine .inl ⟨k + 1, ⟨⟨by omega, hpart⟩, ?_⟩, rfl⟩
    rintro j ⟨hj, hpart⟩
    obtain ⟨i, rfl⟩ := Nat.exists_eq_succ_of_ne_zero (Nat.ne_of_gt hpart.pos)
    exact Nat.succ_le_succ (hleast ⟨by omega, hpart⟩)
  | none =>
    refine .inr ⟨fun j hj hpart => ?_, rfl⟩
    obtain ⟨i, rfl⟩ := Nat.exists_eq_succ_of_ne_zero (Nat.ne_of_gt hpart.pos)
    exact hnone hsearch i (by omega) hpart

/-- What the expression of a search means. -/
def searchItems (needle : List Char) : List Regex.Item :=
  if hasWildcards needle then items needle else needle.map .char

/-- With wildcards or nothing escaped, an expression matches where a part begins that the pattern stands for. -/
theorem beginsAt_searchItems_iff {j : Nat} (hp : Ascii p.toList) (ht : Ascii t.toList)
    (hplain : hasWildcards p.toList || unescape p.toList == p.toList) :
    Regex.BeginsAt (searchItems p.toList) t j ↔ PartAt (Glob p.toList) t.toList (j + 1) := by
  unfold searchItems
  split
  · exact beginsAt_items_iff hp ht
  · rename_i hwild
    rw [Bool.not_eq_true] at hwild
    rw [hwild, Bool.false_or, beq_iff_eq] at hplain
    rw [beginsAt_chars_iff]
    refine partAt_congr ht fun part hpart => ?_
    rw [glob_iff_of_not_hasWildcards hwild, hplain, Text.map_foldChar_of_ascii hpart, Text.map_foldChar_of_ascii hp]

/-- A pattern in which something is escaped is longer than what it stands for. -/
theorem not_partAt_sample {cs : List Char} (hcs : Ascii cs) (hescapes : unescape cs ≠ cs) (k : Nat) :
    ¬ PartAt (fun part => part.map foldChar = cs.map foldChar) (sample cs) k := by
  rintro ⟨front, part, rest, hsample, -, hfold⟩
  have hlength : part.length = cs.length := by simpa using congrArg List.length hfold
  have hshort := length_sample_le cs
  rw [hsample, List.length_append, List.length_append] at hshort
  obtain rfl : front = [] := List.length_eq_zero_iff.1 (by omega)
  obtain rfl : rest = [] := List.length_eq_zero_iff.1 (by omega)
  rw [List.nil_append, List.append_nil] at hsample
  rw [← hsample, Text.map_foldChar_of_ascii hcs, Text.map_foldChar_of_ascii (ascii_sample hcs)] at hfold
  exact hescapes (plain_of_map_sample hfold).2

section Expressions

variable [RegexLibrary]

theorem denotes_searchExpression (needle : List Char) :
    Regex.Denotes (searchExpression needle) (searchItems needle) := by
  unfold searchExpression searchItems
  split
  · exact denotes_expression needle
  · simpa using Regex.Denotes.escaped (String.ofList needle)

/-- The expression of a search finds the first place where it matches. -/
theorem searchFrom?_cases (hlib : RegexLibrary.Documented) {needle cs : List Char} (hstart : start ≤ cs.length)
    (hcompiles : (RegexLibrary.compile? (searchExpression needle)).isSome) :
    (∃ k, IsLeast {j | start ≤ j ∧ Regex.BeginsAt (searchItems needle) (String.ofList cs) j} k ∧
      searchFrom? needle cs start = some k) ∨
    (∀ j, start ≤ j → ¬ Regex.BeginsAt (searchItems needle) (String.ofList cs) j) ∧
      searchFrom? needle cs start = none := by
  obtain ⟨r, hr⟩ := Option.isSome_iff_exists.1 hcompiles
  have hdenotes := denotes_searchExpression needle
  have hsearch : searchFrom? needle cs start =
      (r.findAt? (String.ofList cs) (Text.byteOffset cs start)).map (Text.charsWithin cs) := by
    rw [searchFrom?, hr]
    cases hfind : r.findAt? (String.ofList cs) (Text.byteOffset cs start) <;> simp [hfind]
  rw [hsearch]
  by_cases hmatch : ∃ j, start ≤ j ∧ Regex.BeginsAt (searchItems needle) (String.ofList cs) j
  · classical
    have hleast :
        IsLeast {j | start ≤ j ∧ Regex.BeginsAt (searchItems needle) (String.ofList cs) j} (Nat.find hmatch) :=
      ⟨Nat.find_spec hmatch, fun _ hj => Nat.find_min' hmatch hj⟩
    have hfound := hlib.findAt?_of_isLeast hdenotes hr _ start _ hleast
    have hinside : Nat.find hmatch ≤ cs.length := by simpa using hleast.1.2.1
    rw [String.toList_ofList] at hfound
    refine .inl ⟨_, hleast, ?_⟩
    rw [hfound, Option.map_some, Text.charsWithin_byteOffset hinside]
  · have hnone : ∀ j, start ≤ j → ¬ Regex.BeginsAt (searchItems needle) (String.ofList cs) j :=
      fun j hj hbegins => hmatch ⟨j, hj, hbegins⟩
    have hfound := hlib.findAt?_of_none hdenotes hr _ start (by simpa using hstart) hnone
    rw [String.toList_ofList] at hfound
    exact .inr ⟨hnone, by rw [hfound, Option.map_none]⟩

theorem search_finds {q : List Char → Prop} (hlib : RegexLibrary.Documented) (hp : textArg arguments 0 = .ok p)
    (ht : textArg arguments 1 = .ok t) (hstart : placeArg arguments 2 = .ok start) (hpos : 1 ≤ start)
    (hinside : start ≤ t.toList.length + 1)
    (hcompiles : (RegexLibrary.compile? (searchExpression p.toList)).isSome)
    (hq : ∀ j, Regex.BeginsAt (searchItems p.toList) t j ↔ PartAt q t.toList (j + 1)) :
    FindsFrom q t.toList start (placeOf searchFrom? arguments) := by
  have hcases := searchFrom?_cases hlib (show start - 1 ≤ t.toList.length by omega) hcompiles
  rw [String.ofList_toList] at hcases
  simp only [hq] at hcases
  refine findsFrom_placeOf hp ht hstart hpos hinside (fun k hk => ?_) fun hk => ?_
  · rcases hcases with ⟨j, hleast, hj⟩ | ⟨-, hj⟩
    · rwa [Option.some.inj (hk.symm.trans hj)]
    · exact nomatch hk.symm.trans hj
  · rcases hcases with ⟨j, -, hj⟩ | ⟨hnone, -⟩
    · exact nomatch hk.symm.trans hj
    · exact hnone

/-- Patterns that are searched for as such: those with wildcards or nothing escaped, if their expressions compile. -/
def searchesGlob (cs : List Char) : Bool :=
  (hasWildcards cs || unescape cs == cs) && (RegexLibrary.compile? (searchExpression cs)).isSome

/-- A pattern that is not searched for as such is not found in a text that it stands for. -/
theorem search_sample_of_not_searchesGlob (hlib : RegexLibrary.Documented) (hp : Ascii p.toList)
    (h : ¬ searchesGlob p.toList) (hp' : textArg arguments 0 = .ok p)
    (ht : textArg arguments 1 = .ok (String.ofList (sample p.toList))) (hstart : placeArg arguments 2 = .ok 1) :
    placeOf searchFrom? arguments = .error .value := by
  have hinside : 1 ≤ (String.ofList (sample p.toList)).toList.length + 1 := Nat.le_add_left ..
  by_cases hcompiles : (RegexLibrary.compile? (searchExpression p.toList)).isSome
  · rw [searchesGlob, hcompiles, Bool.and_true, Bool.not_eq_true, Bool.or_eq_false_iff, beq_eq_false_iff_ne] at h
    obtain ⟨hwild, hescapes⟩ := h
    have hitems : searchItems p.toList = p.toList.map .char := if_neg (by simp [hwild])
    have hfinds := search_finds hlib hp' ht hstart (Nat.le_refl 1) hinside hcompiles fun j => by
      rw [hitems, beginsAt_chars_iff]
    rcases hfinds with ⟨k, ⟨⟨-, hpart⟩, -⟩, -⟩ | ⟨-, herror⟩
    · rw [String.toList_ofList] at hpart
      exact absurd hpart (not_partAt_sample hp hescapes k)
    · exact herror
  · have hsearch : ∀ cs, searchFrom? p.toList cs 0 = none := by
      intro cs
      rw [searchFrom?, Option.not_isSome_iff_eq_none.1 hcompiles]
      rfl
    rw [placeOf_eq searchFrom? hp' ht hstart (Nat.le_refl 1), if_neg (Nat.not_lt.2 hinside), Nat.sub_self, hsearch]

/-- In ASCII texts, a search finds what its pattern stands for just if the pattern is searched for as such. -/
theorem search_glob_iff (hlib : RegexLibrary.Documented) (hp : Ascii p.toList) :
    (∀ (t : String) (arguments : List Value) (start : Nat), Ascii t.toList → textArg arguments 0 = .ok p →
        textArg arguments 1 = .ok t → placeArg arguments 2 = .ok start → 1 ≤ start → start ≤ t.toList.length + 1 →
        FindsFrom (Glob p.toList) t.toList start (placeOf searchFrom? arguments)) ↔
      searchesGlob p.toList := by
  constructor
  · intro h
    by_contra hsearches
    -- a text that the pattern stands for, from its first character on
    have herror : placeOf searchFrom? [.text p, .text (String.ofList (sample p.toList))] = .error .value :=
      search_sample_of_not_searchesGlob hlib hp hsearches rfl rfl rfl
    have hpart : PartAt (Glob p.toList) (sample p.toList) 1 := ⟨[], _, [], by simp, rfl, glob_sample p.toList⟩
    have hfinds := h (String.ofList (sample p.toList)) [.text p, .text (String.ofList (sample p.toList))] 1
      (by simpa using ascii_sample hp) rfl rfl rfl (Nat.le_refl 1) (Nat.le_add_left ..)
    rw [String.toList_ofList] at hfinds
    rcases hfinds with ⟨k, -, hfound⟩ | ⟨hnone, -⟩
    · rw [herror] at hfound
      cases hfound
    · exact hnone 1 (Nat.le_refl 1) hpart
  · intro h t arguments start ht hp' ht' hstart hpos hinside
    obtain ⟨hplain, hcompiles⟩ := Bool.and_eq_true_iff.1 h
    exact search_finds hlib hp' ht' hstart hpos hinside hcompiles fun j => beginsAt_searchItems_iff hp ht hplain

end Expressions

theorem search_glob_question : searchesGlob "?~*".toList ∧
    placeOf searchFrom? [.text "?~*", .text "xya*b", .number (2.0 : Float)] = .ok (.number (Float.ofNat 3)) := by
  have hsearches : searchesGlob "?~*".toList := by decide +kernel
  have hfinds := (search_glob_iff (p := "?~*") RegexLibrary.documented_tables (by decide)).2 hsearches "xya*b"
    [.text "?~*", .text "xya*b", .number (2.0 : Float)] 2 (by decide) rfl rfl rfl (by decide) (by decide)
  have hthird : PartAt (Glob "?~*".toList) "xya*b".toList 3 :=
    ⟨['x', 'y'], ['a', '*'], ['b'], rfl, rfl, .question 'a' <| .escaped rfl .nil⟩
  have hsecond : ¬ PartAt (Glob "?~*".toList) "xya*b".toList 2 := by
    intro hpart
    obtain ⟨-, part, rest, hdrop, hglob⟩ := partAt_succ_iff.1 hpart
    change ['y', 'a', '*', 'b'] = part ++ rest at hdrop
    change Glob ['?', '~', '*'] part at hglob
    cases hglob with
    | question c hglob =>
      cases hglob with
      | escaped hd _ =>
        obtain ⟨-, rfl, -⟩ : 'y' = c ∧ 'a' = _ ∧ _ := by simpa using hdrop
        exact absurd hd (by decide)
      | char hplain _ _ => exact absurd hplain (by decide)
    | char hplain _ _ => exact absurd hplain (by decide)
  refine ⟨hsearches, ?_⟩
  rcases hfinds with ⟨k, ⟨⟨hk, hpart⟩, hleast⟩, hfound⟩ | ⟨hnone, -⟩
  · have hlast : k ≤ 3 := hleast ⟨by decide, hthird⟩
    have hne : k ≠ 2 := by
      rintro rfl
      exact hsecond hpart
    obtain rfl : k = 3 := by omega
    exact hfound
  · exact absurd hthird (hnone 3 (by decide))

theorem search_escapedStar : PartAt (Glob "~*".toList) "a*b".toList 2 ∧
    placeOf searchFrom? [.text "~*", .text "a*b"] = .error .value ∧
    placeOf searchFrom? [.text "?~*", .text "a*b"] = .ok (.number (Float.ofNat 1)) ∧
    ¬ ∀ (p t : String) (arguments : List Value) (start : Nat), Ascii p.toList → Ascii t.toList →
      textArg arguments 0 = .ok p → textArg arguments 1 = .ok t → placeArg arguments 2 = .ok start →
      1 ≤ start → start ≤ t.toList.length + 1 →
        FindsFrom (Glob p.toList) t.toList start (placeOf searchFrom? arguments) := by
  have hsecond : PartAt (Glob "~*".toList) "a*b".toList 2 := ⟨['a'], ['*'], ['b'], rfl, rfl, .escaped rfl .nil⟩
  have herror : placeOf searchFrom? [.text "~*", .text "a*b"] = .error .value := by
    have hnone : searchFrom? "~*".toList "a*b".toList 0 = none := by decide +kernel
    have hstart : placeArg [.text "~*", .text "a*b"] 2 = .ok 1 := rfl
    rw [placeOf_eq searchFrom? (p := "~*") (t := "a*b") rfl rfl hstart (by decide), if_neg (by decide), hnone]
  have hquestion : placeOf searchFrom? [.text "?~*", .text "a*b"] = .ok (.number (Float.ofNat 1)) := by
    have hfirst : searchFrom? "?~*".toList "a*b".toList 0 = some 0 := by decide +kernel
    have hstart : placeArg [.text "?~*", .text "a*b"] 2 = .ok 1 := rfl
    rw [placeOf_eq searchFrom? (p := "?~*") (t := "a*b") rfl rfl hstart (by decide), if_neg (by decide), hfirst]
  refine ⟨hsecond, herror, hquestion, fun h => ?_⟩
  rcases h "~*" "a*b" [.text "~*", .text "a*b"] 1 (by decide) (by decide) rfl rfl rfl (by decide) (by decide) with
    ⟨k, -, hfound⟩ | ⟨hnone, -⟩
  · rw [herror] at hfound
    cases hfound
  · exact hnone 2 (by decide) hsecond

end TextFunction

end Spreadsheet
