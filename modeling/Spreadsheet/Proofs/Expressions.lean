import Mathlib.Order.Bounds.Defs
import Spreadsheet.Regex.Tables

/-!
# What is asked of a library of expressions

Of the expressions that a library compiles only a few matter, rows of escaped texts, gaps and ends of the text. They
mean what the documentation of such libraries says, and a compiled expression finds the matches of what it means.
Whether an expression compiles is left open. The library that matches by tables is one of this kind.

* `Regex.Denotes` : what an expression means; `Regex.BeginsAt` : where it matches;
* `RegexLibrary.Documented` : compiled expressions match what they mean;
* `Regex.items?_append` : an expression is read as what it means;
* `RegexLibrary.documented_tables` : matching by tables is as documented.
-/

namespace Spreadsheet

open Text (byteOffset charsWithin charsWithin_byteOffset)

namespace Regex

/-- The syntax of expressions, as far as it matters: a dot for any character, line breaks included, perhaps repeated,
the two ends of the text, escaped texts, and one expression after the other. -/
inductive Denotes [RegexLibrary] : String → List Item → Prop
  | nil : Denotes "" []
  | front : Denotes "^" [.front]
  | finish : Denotes "$" [.finish]
  | one : Denotes "(?s:.)" [.one]
  | any : Denotes "(?s:.*)" [.any]
  | escaped (s : String) : Denotes (RegexLibrary.escape s) (s.toList.map .char)
  | append {e e' : String} {items items' : List Item} (h : Denotes e items) (h' : Denotes e' items') :
      Denotes (e ++ e') (items ++ items')

/-- Whether a match begins at a place of a text, counted from zero. -/
def BeginsAt (items : List Item) (s : String) (k : Nat) : Prop :=
  k ≤ s.toList.length ∧ Begins items (k == 0) (s.toList.drop k)

end Regex

open Regex (Item Denotes BeginsAt)

/-- Compiled expressions match what they mean: a test tells whether there is a match, and a search gives the offset of
the first one. -/
structure RegexLibrary.Documented [RegexLibrary] : Prop where
  isMatch_iff : ∀ {e : String} {items : List Item} {r : Regex}, Denotes e items → compile? e = some r →
    ∀ s, r.isMatch s ↔ ∃ k, BeginsAt items s k
  findAt?_of_isLeast : ∀ {e : String} {items : List Item} {r : Regex}, Denotes e items → compile? e = some r →
    ∀ (s : String) (start k : Nat), IsLeast {j | start ≤ j ∧ BeginsAt items s j} k →
      r.findAt? s (byteOffset s.toList start) = some (byteOffset s.toList k)
  findAt?_of_none : ∀ {e : String} {items : List Item} {r : Regex}, Denotes e items → compile? e = some r →
    ∀ (s : String) (start : Nat), start ≤ s.toList.length → (∀ j, start ≤ j → ¬ BeginsAt items s j) →
      r.findAt? s (byteOffset s.toList start) = none

namespace Regex

/-! ## Reading expressions -/

variable {items : List Item} {cs ds : List Char} {c : Char} {s : String}

theorem items?_escape (c : Char) (cs : List Char) :
    items? ((if isSpecial c then ['\\', c] else [c]) ++ cs) = (.char c :: ·) <$> items? cs := by
  split
  · rename_i hspecial
    rw [List.cons_append, List.cons_append, List.nil_append, items?, if_pos hspecial]
  · rename_i hplain
    have hne : ∀ d, isSpecial d → c ≠ d := fun d hd hc => hplain (hc ▸ hd)
    rw [List.cons_append, List.nil_append, items?, if_neg hplain]
    · rintro _ rfl
      exact absurd rfl (hne '(' rfl)
    · rintro _ rfl
      exact absurd rfl (hne '(' rfl)
    · exact hne '^' rfl
    · exact hne '$' rfl
    · rintro _ _ rfl
      exact absurd rfl (hne '\\' rfl)

theorem items?_escapeChars (cs ds : List Char) :
    items? (escapeChars cs ++ ds) = (cs.map Item.char ++ ·) <$> items? ds := by
  induction cs with
  | nil => simp [escapeChars]
  | cons c cs ih =>
    rw [escapeChars, List.flatMap_cons, List.append_assoc, items?_escape, ← escapeChars, ih]
    cases items? ds <;> rfl

/-- An expression is read as what it means, whatever follows it. -/
theorem items?_append {e : String} (h : Denotes e items) (cs : List Char) :
    items? (e.toList ++ cs) = (items ++ ·) <$> items? cs := by
  induction h generalizing cs with
  | nil => simp
  | escaped s =>
    have hescape : (RegexLibrary.escape s).toList = escapeChars s.toList := String.toList_ofList
    rw [hescape, items?_escapeChars]
  | append _ _ ih ih' =>
    rw [String.toList_append, List.append_assoc, ih, ih']
    cases items? cs <;> simp
  | _ => rfl

/-- An expression that compiles is matched as what it means. -/
theorem eq_ofItems_of_compile? {e : String} {r : Regex} (h : Denotes e items)
    (hr : RegexLibrary.compile? e = some r) : r = ofItems items := by
  have hread : items? e.toList = some items := by
    have happend := items?_append h []
    rw [List.append_nil] at happend
    simpa [items?] using happend
  have hcompile : (items? e.toList).bind (fun items => if fits items then some (ofItems items) else none) = some r := hr
  rw [hread, Option.bind_some, Option.ite_none_right_eq_some] at hcompile
  exact (Option.some.inj hcompile.2).symm

/-! ## Matching by tables -/

theorem beginsAt_iff {k : Nat} : BeginsAt items s k ↔ (begins items s.toList)[k]? = some true :=
  begins_eq_true_iff.symm

theorem isMatch_ofItems : (ofItems items).isMatch s ↔ ∃ k, BeginsAt items s k := by
  show (begins items s.toList).any id = true ↔ _
  simp only [beginsAt_iff, List.any_eq_true, id, List.mem_iff_getElem?]
  constructor
  · rintro ⟨_, ⟨k, hk⟩, rfl⟩
    exact ⟨k, hk⟩
  · rintro ⟨k, hk⟩
    exact ⟨true, ⟨k, hk⟩, rfl⟩

theorem findAt?_ofItems {start : Nat} (hstart : start ≤ s.toList.length) :
    (ofItems items).findAt? s (byteOffset s.toList start) =
      (((begins items s.toList).drop start).findIdx? id).map fun i => byteOffset s.toList (start + i) := by
  show ((((begins items s.toList).drop (charsWithin s.toList (byteOffset s.toList start))).findIdx? id).map
    fun i => byteOffset s.toList (charsWithin s.toList (byteOffset s.toList start) + i)) = _
  rw [charsWithin_byteOffset hstart]

/-- The first place from `start` on that the table marks. -/
theorem findIdx?_of_isLeast {start k : Nat} (h : IsLeast {j | start ≤ j ∧ BeginsAt items s j} k) :
    ((begins items s.toList).drop start).findIdx? id = some (k - start) := by
  obtain ⟨⟨hstart, hk⟩, hleast⟩ := h
  rw [beginsAt_iff] at hk
  obtain ⟨hlt, hmark⟩ := List.getElem?_eq_some_iff.1 hk
  refine List.findIdx?_eq_some_iff_getElem.2 ⟨by rw [List.length_drop]; omega, ?_, fun j hj => ?_⟩
  · simpa [Nat.add_sub_cancel' hstart] using hmark
  · intro hmark'
    rw [List.getElem_drop] at hmark'
    have hj' : BeginsAt items s (start + j) := beginsAt_iff.2 (List.getElem?_eq_some_iff.2 ⟨by omega, hmark'⟩)
    have := hleast ⟨Nat.le_add_right start j, hj'⟩
    omega

theorem findIdx?_of_none {start : Nat} (h : ∀ j, start ≤ j → ¬ BeginsAt items s j) :
    ((begins items s.toList).drop start).findIdx? id = none := by
  refine List.findIdx?_eq_none_iff.2 fun b hb => ?_
  obtain ⟨j, hj⟩ := List.mem_iff_getElem?.1 hb
  rw [List.getElem?_drop] at hj
  cases b with
  | false => rfl
  | true => exact absurd (beginsAt_iff.2 hj) (h (start + j) (Nat.le_add_right start j))

end Regex

namespace RegexLibrary

open Regex

theorem documented_tables : @Documented Regex.tables where
  isMatch_iff h hr s := by
    rw [eq_ofItems_of_compile? h hr]
    exact isMatch_ofItems
  findAt?_of_isLeast h hr s start k hk := by
    have hstart : start ≤ s.toList.length := Nat.le_trans hk.1.1 hk.1.2.1
    rw [eq_ofItems_of_compile? h hr, findAt?_ofItems hstart, findIdx?_of_isLeast hk, Option.map_some,
      Nat.add_sub_cancel' hk.1.1]
  findAt?_of_none h hr s start hstart hnone := by
    rw [eq_ofItems_of_compile? h hr, findAt?_ofItems hstart, findIdx?_of_none hnone, Option.map_none]

end RegexLibrary

end Spreadsheet
