import Mathlib.Tactic.Common
import Spreadsheet.Criteria
import Spreadsheet.Proofs.Expressions

/-!
# Glob patterns

What the patterns of criteria stand for, said of the pattern as it is written, and so of neither of the two ways in
which a pattern is compared: by its expression if it has wildcards, otherwise by its text without escapes. Of the
library that compiles the expression only what is documented is asked.

* `Glob` : the texts that a pattern stands for;
* `Wildcard.items`, `Wildcard.denotes_expression` : what the expression of a pattern means;
* `Wildcard.begins_items_append_iff`, `Wildcard.glob_iff_of_not_hasWildcards` : the texts of a pattern by what its
  expression means, and for a pattern without wildcards by its text without escapes;
* `TextPattern.accepts_ofText_iff` : the pattern of a criterion accepts the texts that it stands for;
* `Wildcard.sample` : a text that a pattern stands for.
-/

namespace Spreadsheet

open Text (asciiLowerChar)

/-! ## ASCII texts -/

/-- Whether all characters are ASCII. -/
def Text.Ascii (cs : List Char) : Prop := ∀ c ∈ cs, c.toNat < 0x80

namespace Text

instance (cs : List Char) : Decidable (Ascii cs) := List.decidableBAll (fun c : Char => c.toNat < 0x80) cs

variable {c : Char} {cs : List Char}

theorem ascii_cons : Ascii (c :: cs) ↔ c.toNat < 0x80 ∧ Ascii cs := List.forall_mem_cons

theorem ascii_append {ds : List Char} : Ascii (cs ++ ds) ↔ Ascii cs ∧ Ascii ds := List.forall_mem_append

theorem foldChar_of_ascii (h : c.toNat < 0x80) : foldChar c = asciiLowerChar c := if_pos h

/-- ASCII characters are compared without regard to case. -/
theorem foldChar_eq_iff {d : Char} (hc : c.toNat < 0x80) (hd : d.toNat < 0x80) :
    foldChar c = foldChar d ↔ asciiLowerChar c = asciiLowerChar d := by
  rw [foldChar_of_ascii hc, foldChar_of_ascii hd]

theorem map_foldChar_of_ascii (h : Ascii cs) : cs.map foldChar = cs.map asciiLowerChar :=
  List.map_congr_left fun c hc => foldChar_of_ascii (h c hc)

theorem eq_tilde_of_asciiLowerChar (h : asciiLowerChar c = '~') : c = '~' := by
  unfold asciiLowerChar at h
  split at h
  · rename_i hupper
    have hz : c.toNat ≤ 'Z'.toNat := of_decide_eq_true (Bool.and_eq_true_iff.1 hupper).2
    have hall : ∀ n ≤ 'Z'.toNat, Char.ofNat (n + 32) ≠ '~' := by decide
    exact absurd h (hall c.toNat hz)
  · exact h

theorem eq_tilde_of_foldChar (hc : c.toNat < 0x80) (h : foldChar c = foldChar '~') : c = '~' :=
  eq_tilde_of_asciiLowerChar ((foldChar_eq_iff hc (by decide)).1 h)

theorem lowerChars_of_ascii (before : List Char) (h : Ascii cs) : lowerChars before cs = cs.map asciiLowerChar := by
  induction cs generalizing before with
  | nil => rfl
  | cons c cs ih =>
    obtain ⟨hc, hcs⟩ := ascii_cons.1 h
    have hsigma : (c == 'Σ') = false := by
      rw [beq_eq_false_iff_ne]
      rintro rfl
      exact absurd hc (by decide)
    rw [lowerChars, hsigma, ih _ hcs, lowerChar, if_pos hc]
    rfl

/-- ASCII texts have the same lower-case form if they differ only in the case of letters. -/
theorem lower_eq_iff {s t : String} (hs : Ascii s.toList) (ht : Ascii t.toList) :
    lower s = lower t ↔ s.toList.map asciiLowerChar = t.toList.map asciiLowerChar := by
  rw [lower, lower, String.ofList_inj, lowerChars_of_ascii [] hs, lowerChars_of_ascii [] ht]

end Text

open Text (Ascii ascii_cons ascii_append foldChar foldChar_eq_iff eq_tilde_of_foldChar)

/-! ## What patterns stand for -/

/-- The texts that a pattern stands for, without regard to the case of letters: `*` is any text, `?` any character, `~`
takes the next character for what it is, or itself at the end, and every other character is itself. -/
inductive Glob : List Char → List Char → Prop
  | nil : Glob [] []
  | star (u : List Char) {p t : List Char} (h : Glob p t) : Glob ('*' :: p) (u ++ t)
  | question (c : Char) {p t : List Char} (h : Glob p t) : Glob ('?' :: p) (c :: t)
  | escaped {c d : Char} {p t : List Char} (hd : asciiLowerChar d = asciiLowerChar c) (h : Glob p t) :
      Glob ('~' :: c :: p) (d :: t)
  | tilde : Glob ['~'] ['~']
  | char {c d : Char} {p t : List Char} (hc : c ∉ ['*', '?', '~']) (hd : asciiLowerChar d = asciiLowerChar c)
      (h : Glob p t) : Glob (c :: p) (d :: t)

namespace Wildcard

open Regex (Item Begins BeginsAt Denotes)

variable {c : Char} {p t cs : List Char} {atFront : Bool} {tail : List Item}

/-! ### Patterns -/

/-- The items of a pattern. -/
def items : List Char → List Item
  | [] => []
  | ['~'] => [.char '~']
  | '~' :: c :: cs => .char c :: items cs
  | '*' :: cs => .any :: items cs
  | '?' :: cs => .one :: items cs
  | c :: cs => .char c :: items cs

/-- Patterns are read from the front, an escape with the character that it takes. -/
@[elab_as_elim]
theorem pattern_induction {motive : List Char → Prop} (nil : motive []) (tilde : motive ['~'])
    (escaped : ∀ c p, motive p → motive ('~' :: c :: p)) (star : ∀ p, motive p → motive ('*' :: p))
    (question : ∀ p, motive p → motive ('?' :: p))
    (plain : ∀ c p, c ∉ ['*', '?', '~'] → motive p → motive (c :: p)) (p : List Char) : motive p := by
  fun_induction items p with
  | case1 => exact nil
  | case2 => exact tilde
  | case3 c p ih => exact escaped c p ih
  | case4 p ih => exact star p ih
  | case5 p ih => exact question p ih
  | case6 c p hend hescape hstar hquestion ih =>
    refine plain c p ?_ ih
    have htilde : c ≠ '~' := by
      cases p with
      | nil => exact fun hc => hend hc rfl
      | cons d p => exact fun hc => hescape d p hc rfl
    simpa using ⟨hstar, hquestion, htilde⟩

theorem items_plain (hc : c ∉ ['*', '?', '~']) (cs : List Char) : items (c :: cs) = .char c :: items cs := by
  simp only [List.mem_cons, List.not_mem_nil, or_false, not_or] at hc
  rw [items] <;> simp [hc]

theorem unescape_plain (hc : c ∉ ['*', '?', '~']) (cs : List Char) : unescape (c :: cs) = c :: unescape cs := by
  simp only [List.mem_cons, List.not_mem_nil, or_false, not_or] at hc
  rw [unescape] <;> simp [hc]

theorem hasWildcards_plain (hc : c ∉ ['*', '?', '~']) (cs : List Char) :
    hasWildcards (c :: cs) = hasWildcards cs := by
  simp only [List.mem_cons, List.not_mem_nil, or_false, not_or] at hc
  rw [hasWildcards] <;> simp [hc]

/-! ### Expressions -/

section Expressions

variable [RegexLibrary]

theorem parts_plain (hc : c ∉ ['*', '?', '~']) (cs : List Char) :
    parts (c :: cs) = RegexLibrary.escape (String.singleton c) :: parts cs := by
  simp only [List.mem_cons, List.not_mem_nil, or_false, not_or] at hc
  rw [parts] <;> simp [hc]

theorem denotes_escape_singleton (c : Char) : Denotes (RegexLibrary.escape (String.singleton c)) [.char c] := by
  simpa using Denotes.escaped (String.singleton c)

theorem Denotes.join_cons {e : String} {item : Item} {es : List String} {more : List Item} (h : Denotes e [item])
    (hmore : Denotes (String.join es) more) : Denotes (String.join (e :: es)) (item :: more) := by
  rw [String.join_cons]
  exact .append h hmore

/-- The expression of a pattern means the items of the pattern. -/
theorem denotes_expression (p : List Char) : Denotes (expression p) (items p) := by
  unfold expression
  induction p using pattern_induction with
  | nil => exact .nil
  | tilde => exact Denotes.join_cons (denotes_escape_singleton '~') .nil
  | escaped c p ih => exact Denotes.join_cons (denotes_escape_singleton c) ih
  | star p ih => exact Denotes.join_cons .any ih
  | question p ih => exact Denotes.join_cons .one ih
  | plain c p hplain ih =>
    rw [parts_plain hplain, items_plain hplain]
    exact Denotes.join_cons (denotes_escape_singleton c) ih

end Expressions

/-! ### Matching -/

/-- Any number of characters, and behind them what follows. -/
theorem begins_any_iff : Begins (.any :: tail) atFront cs ↔
    ∃ front rest, cs = front ++ rest ∧ Begins tail (atFront && front.isEmpty) rest := by
  constructor
  · intro h
    generalize hitems : .any :: tail = items at h
    induction h with
    | anyEnd h =>
      cases hitems
      exact ⟨[], _, rfl, by simpa using h⟩
    | @anyMore _ _ c _ _ ih =>
      obtain ⟨front, rest, rfl, hrest⟩ := ih hitems
      exact ⟨c :: front, rest, rfl, by simpa using hrest⟩
    | _ => cases hitems
  · rintro ⟨front, rest, rfl, h⟩
    induction front generalizing atFront with
    | nil => exact .anyEnd (by simpa using h)
    | cons c front ih => exact .anyMore (ih (by simpa using h))

theorem begins_char_iff {d : Char} : Begins (.char d :: tail) atFront cs ↔
    ∃ c rest, cs = c :: rest ∧ foldChar c = foldChar d ∧ Begins tail false rest := by
  constructor
  · intro h
    cases h with
    | char hd h => exact ⟨_, _, rfl, hd, h⟩
  · rintro ⟨c, rest, rfl, hd, h⟩
    exact .char hd h

theorem isEmpty_append {α : Type} (xs ys : List α) : (xs ++ ys).isEmpty = (xs.isEmpty && ys.isEmpty) := by
  cases xs <;> rfl

/-- The items of a pattern match at the front of some characters just if these begin with a text that the pattern stands
for, and what comes next matches behind it. -/
theorem begins_items_append_iff (hp : Ascii p) (hcs : Ascii cs) : Begins (items p ++ tail) atFront cs ↔
    ∃ part rest, cs = part ++ rest ∧ Glob p part ∧ Begins tail (atFront && part.isEmpty) rest := by
  constructor
  · intro h
    induction p using pattern_induction generalizing cs atFront with
    | nil => exact ⟨[], cs, rfl, .nil, by simpa [items] using h⟩
    | tilde =>
      rw [items, List.singleton_append] at h
      obtain ⟨c, rest, rfl, hc, htail⟩ := begins_char_iff.1 h
      obtain rfl := eq_tilde_of_foldChar (ascii_cons.1 hcs).1 hc
      exact ⟨['~'], rest, rfl, .tilde, by simpa using htail⟩
    | escaped d p ih =>
      obtain ⟨c, rest, rfl, hc, hmore⟩ := begins_char_iff.1 h
      obtain ⟨hd, hp⟩ := ascii_cons.1 (ascii_cons.1 hp).2
      obtain ⟨hc', hrest⟩ := ascii_cons.1 hcs
      obtain ⟨part, rest, rfl, hpart, htail⟩ := ih hp hrest hmore
      exact ⟨c :: part, rest, rfl, .escaped ((foldChar_eq_iff hc' hd).1 hc) hpart, by simpa using htail⟩
    | star p ih =>
      rw [items, List.cons_append] at h
      obtain ⟨front, rest, rfl, hmore⟩ := begins_any_iff.1 h
      obtain ⟨part, rest, rfl, hpart, htail⟩ := ih (ascii_cons.1 hp).2 (ascii_append.1 hcs).2 hmore
      refine ⟨front ++ part, rest, (List.append_assoc ..).symm, .star front hpart, ?_⟩
      rwa [isEmpty_append, ← Bool.and_assoc]
    | question p ih =>
      cases h with
      | @one _ _ c _ h =>
        obtain ⟨part, rest, rfl, hpart, h⟩ := ih (ascii_cons.1 hp).2 (ascii_cons.1 hcs).2 h
        exact ⟨c :: part, rest, rfl, .question c hpart, by simpa using h⟩
    | plain d p hplain ih =>
      rw [items_plain hplain] at h
      obtain ⟨c, rest, rfl, hc, hmore⟩ := begins_char_iff.1 h
      obtain ⟨hd, hp⟩ := ascii_cons.1 hp
      obtain ⟨hc', hrest⟩ := ascii_cons.1 hcs
      obtain ⟨part, rest, rfl, hpart, htail⟩ := ih hp hrest hmore
      exact ⟨c :: part, rest, rfl, .char hplain ((foldChar_eq_iff hc' hd).1 hc) hpart, by simpa using htail⟩
  · rintro ⟨part, rest, rfl, hpart, h⟩
    induction hpart generalizing atFront with
    | nil => simpa [items] using h
    | star front hpart ih =>
      rw [List.append_assoc] at hcs ⊢
      refine begins_any_iff.2 ⟨front, _, rfl, ih (ascii_cons.1 hp).2 (ascii_append.1 hcs).2 ?_⟩
      rwa [Bool.and_assoc, ← isEmpty_append]
    | question c _ ih => exact .one (ih (ascii_cons.1 hp).2 (ascii_cons.1 hcs).2 (by simpa using h))
    | escaped hd _ ih =>
      obtain ⟨hc, hp⟩ := ascii_cons.1 (ascii_cons.1 hp).2
      obtain ⟨hd', hrest⟩ := ascii_cons.1 hcs
      exact .char ((foldChar_eq_iff hd' hc).2 hd) (ih hp hrest (by simpa using h))
    | tilde => exact .char rfl (by simpa using h)
    | char hplain hd _ ih =>
      obtain ⟨hc, hp⟩ := ascii_cons.1 hp
      obtain ⟨hd', hrest⟩ := ascii_cons.1 hcs
      rw [items_plain hplain]
      exact .char ((foldChar_eq_iff hd' hc).2 hd) (ih hp hrest (by simpa using h))

/-- Between the front and the end of a text, the items of a pattern match the texts that it stands for. -/
theorem exists_beginsAt_iff {t : String} (hp : Ascii p) (ht : Ascii t.toList) :
    (∃ k, BeginsAt (.front :: (items p ++ [.finish])) t k) ↔ Glob p t.toList := by
  constructor
  · rintro ⟨k, -, h⟩
    generalize hfront : (k == 0) = atFront at h
    cases h with
    | front h =>
      obtain rfl : k = 0 := by simpa using hfront
      obtain ⟨part, rest, hsplit, hpart, h⟩ := (begins_items_append_iff hp ht).1 h
      cases h with
      | finish _ =>
        have hwhole : t.toList = part := by simpa using hsplit
        rwa [hwhole]
  · intro h
    refine ⟨0, Nat.zero_le _, .front ((begins_items_append_iff hp ht).2 ⟨t.toList, [], by simp, h, .finish .nil⟩)⟩

/-! ### Patterns without wildcards -/

/-- Characters match what they begin like, without regard to case. -/
theorem begins_chars_iff : Begins (p.map .char) atFront cs ↔
    ∃ part rest, cs = part ++ rest ∧ part.map foldChar = p.map foldChar := by
  induction p generalizing cs atFront with
  | nil => exact ⟨fun _ => ⟨[], cs, rfl, rfl⟩, fun _ => .nil⟩
  | cons d p ih =>
    rw [List.map_cons, begins_char_iff]
    simp only [ih]
    constructor
    · rintro ⟨c, _, rfl, hc, part, rest, rfl, hpart⟩
      exact ⟨c :: part, rest, rfl, by rw [List.map_cons, List.map_cons, hc, hpart]⟩
    · rintro ⟨part, rest, rfl, hpart⟩
      obtain ⟨c, part, rfl, hc, hpart⟩ := List.map_eq_cons_iff.1 hpart
      exact ⟨c, part ++ rest, rfl, hc, part, rest, rfl, hpart⟩

theorem unescape_subset (p : List Char) : unescape p ⊆ p := by
  induction p using pattern_induction with
  | nil => exact List.Subset.refl _
  | tilde => exact List.Subset.refl _
  | escaped c p ih => exact List.subset_cons_of_subset _ (List.cons_subset_cons c ih)
  | star p ih => exact List.cons_subset_cons _ ih
  | question p ih => exact List.cons_subset_cons _ ih
  | plain c p hplain ih =>
    rw [unescape_plain hplain]
    exact List.cons_subset_cons c ih

theorem ascii_unescape (hp : Ascii p) : Ascii (unescape p) := fun c hc => hp c (unescape_subset p hc)

/-- A pattern without wildcards stands for its text without escapes. -/
theorem glob_iff_of_not_hasWildcards (h : hasWildcards p = false) :
    Glob p t ↔ t.map asciiLowerChar = (unescape p).map asciiLowerChar := by
  induction p using pattern_induction generalizing t with
  | nil =>
    rw [unescape, List.map_nil, List.map_eq_nil_iff]
    exact ⟨fun h => by cases h; rfl, fun h => h ▸ .nil⟩
  | tilde =>
    constructor
    · intro h
      cases h with
      | tilde => rfl
      | char hplain _ _ => exact absurd hplain (by decide)
    · intro h
      obtain ⟨d, rest, rfl, hd, hrest⟩ := List.map_eq_cons_iff.1 h
      obtain rfl := List.map_eq_nil_iff.1 hrest
      obtain rfl := Text.eq_tilde_of_asciiLowerChar hd
      exact .tilde
  | escaped c p ih =>
    rw [unescape, List.map_cons]
    constructor
    · intro hglob
      cases hglob with
      | escaped hd hglob => rw [List.map_cons, hd, (ih h).1 hglob]
      | char hplain _ _ => exact absurd hplain (by decide)
    · intro hmap
      obtain ⟨d, rest, rfl, hd, hrest⟩ := List.map_eq_cons_iff.1 hmap
      exact .escaped hd ((ih h).2 hrest)
  | star p _ => cases h
  | question p _ => cases h
  | plain c p hplain ih =>
    rw [hasWildcards_plain hplain] at h
    rw [unescape_plain hplain, List.map_cons]
    constructor
    · intro hglob
      cases hglob with
      | char _ hd hglob => rw [List.map_cons, hd, (ih h).1 hglob]
      | _ => exact absurd hplain (by decide)
    · intro hmap
      obtain ⟨d, rest, rfl, hd, hrest⟩ := List.map_eq_cons_iff.1 hmap
      exact .char hplain hd ((ih h).2 hrest)

/-! ### A text for each pattern -/

/-- A text that a pattern stands for: nothing for any text, and an exclamation mark for any character. -/
def sample : List Char → List Char
  | [] => []
  | ['~'] => ['~']
  | '~' :: c :: cs => c :: sample cs
  | '*' :: cs => sample cs
  | '?' :: cs => '!' :: sample cs
  | c :: cs => c :: sample cs

theorem sample_plain (hc : c ∉ ['*', '?', '~']) (cs : List Char) : sample (c :: cs) = c :: sample cs := by
  simp only [List.mem_cons, List.not_mem_nil, or_false, not_or] at hc
  rw [sample] <;> simp [hc]

theorem glob_sample (p : List Char) : Glob p (sample p) := by
  induction p using pattern_induction with
  | nil => exact .nil
  | tilde => exact .tilde
  | escaped c p ih => exact .escaped rfl ih
  | star p ih => exact .star [] ih
  | question p ih => exact .question '!' ih
  | plain c p hplain ih =>
    rw [sample_plain hplain]
    exact .char hplain rfl ih

theorem ascii_sample (hp : Ascii p) : Ascii (sample p) := by
  induction p using pattern_induction with
  | nil => exact hp
  | tilde => exact hp
  | escaped c p ih =>
    obtain ⟨hc, hp⟩ := ascii_cons.1 (ascii_cons.1 hp).2
    exact ascii_cons.2 ⟨hc, ih hp⟩
  | star p ih => exact ih (ascii_cons.1 hp).2
  | question p ih => exact ascii_cons.2 ⟨by decide, ih (ascii_cons.1 hp).2⟩
  | plain c p hplain ih =>
    obtain ⟨hc, hp⟩ := ascii_cons.1 hp
    rw [sample_plain hplain]
    exact ascii_cons.2 ⟨hc, ih hp⟩

theorem length_sample_le (p : List Char) : (sample p).length ≤ p.length := by
  induction p using pattern_induction with
  | nil => exact Nat.le_refl _
  | tilde => exact Nat.le_refl _
  | escaped c p ih => exact Nat.le_succ_of_le (Nat.succ_le_succ ih)
  | star p ih => exact Nat.le_succ_of_le ih
  | question p ih => exact Nat.succ_le_succ ih
  | plain c p hplain ih =>
    rw [sample_plain hplain]
    exact Nat.succ_le_succ ih

/-- Only a pattern without wildcards and escapes is that text itself. -/
theorem plain_of_map_sample (h : (sample p).map asciiLowerChar = p.map asciiLowerChar) :
    hasWildcards p = false ∧ unescape p = p := by
  have hshorter : ∀ {cs ds : List Char}, cs.length < ds.length → cs.map asciiLowerChar ≠ ds.map asciiLowerChar := by
    intro cs ds hlt heq
    have := congrArg List.length heq
    simp at this
    omega
  induction p using pattern_induction with
  | nil => exact ⟨rfl, rfl⟩
  | tilde => exact ⟨rfl, rfl⟩
  | escaped c p ih => exact absurd h (hshorter (Nat.succ_lt_succ (Nat.lt_succ_of_le (length_sample_le p))))
  | star p ih => exact absurd h (hshorter (Nat.lt_succ_of_le (length_sample_le p)))
  | question p ih => exact absurd (List.cons.inj h).1 (by decide)
  | plain c p hplain ih =>
    rw [sample_plain hplain] at h
    obtain ⟨hwild, hescapes⟩ := ih (List.cons.inj h).2
    rw [hasWildcards_plain hplain, unescape_plain hplain, hescapes]
    exact ⟨hwild, rfl⟩

end Wildcard

/-! ## Criteria -/

namespace TextPattern

open Wildcard

section Patterns

variable [RegexLibrary] {p t : String} {r : Regex}

theorem ofText_of_compile? (hwild : hasWildcards p.toList) (hr : compile? p.toList = some r) :
    ofText p = wildcard r := by
  rw [ofText, if_pos hwild, hr]

theorem ofText_of_not_hasWildcards (hwild : hasWildcards p.toList = false) :
    ofText p = exact (Text.lower (String.ofList (unescape p.toList))) := by
  rw [ofText, hwild]
  rfl

/-- A pattern with wildcards is compared by its expression. -/
theorem accepts_of_compile? (hlib : RegexLibrary.Documented) (hp : Ascii p.toList) (ht : Ascii t.toList)
    (hwild : hasWildcards p.toList) (hcompiles : (compile? p.toList).isSome) :
    (ofText p).accepts t ↔ Glob p.toList t.toList := by
  obtain ⟨r, hr⟩ := Option.isSome_iff_exists.1 hcompiles
  have hdenotes : Regex.Denotes ("^" ++ expression p.toList ++ "$") (.front :: (items p.toList ++ [.finish])) :=
    .append (.append .front (denotes_expression _)) .finish
  rw [ofText_of_compile? hwild hr, accepts, hlib.isMatch_iff hdenotes hr, exists_beginsAt_iff hp ht]

/-- A pattern without wildcards is compared by its text without escapes. -/
theorem accepts_of_not_hasWildcards (hp : Ascii p.toList) (ht : Ascii t.toList)
    (hwild : hasWildcards p.toList = false) : (ofText p).accepts t ↔ Glob p.toList t.toList := by
  have hunescaped : Ascii (String.ofList (unescape p.toList)).toList := by
    rw [String.toList_ofList]
    exact ascii_unescape hp
  rw [ofText_of_not_hasWildcards hwild, accepts, beq_iff_eq, Text.lower_eq_iff ht hunescaped, String.toList_ofList,
    glob_iff_of_not_hasWildcards hwild]

/-- The pattern of a criterion accepts a text just if it stands for it. -/
theorem accepts_ofText_iff (hlib : RegexLibrary.Documented) (hp : Ascii p.toList) (ht : Ascii t.toList)
    (hcompiles : hasWildcards p.toList → (compile? p.toList).isSome) :
    (ofText p).accepts t ↔ Glob p.toList t.toList := by
  cases hwild : hasWildcards p.toList with
  | true => exact accepts_of_compile? hlib hp ht hwild (hcompiles hwild)
  | false => exact accepts_of_not_hasWildcards hp ht hwild

end Patterns

theorem accepts_ofText_mixed :
    hasWildcards "a~*B*c?~".toList ∧ (compile? "a~*B*c?~".toList).isSome ∧
      (ofText "a~*B*c?~").accepts "A*b and so on C!~" ∧
      hasWildcards "~*~q~".toList = false ∧ (ofText "~*~q~").accepts "*Q~" := by
  have hcompiles : (compile? "a~*B*c?~".toList).isSome := by decide +kernel
  refine ⟨rfl, hcompiles,
    (accepts_ofText_iff RegexLibrary.documented_tables (by decide) (by decide) fun _ => hcompiles).2 ?_, rfl,
    (accepts_ofText_iff RegexLibrary.documented_tables (by decide) (by decide) fun h => absurd h (by decide)).2 ?_⟩
  · exact .char (by decide) rfl <| .escaped rfl <| .char (by decide) rfl <| .star " and so on ".toList <|
      .char (by decide) rfl <| .question '!' .tilde
  · exact .escaped rfl <| .escaped rfl .tilde

end TextPattern

end Spreadsheet
