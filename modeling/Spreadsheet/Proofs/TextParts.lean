import Spreadsheet.Proofs.TextArguments

/-!
# Parts of a text

The functions that take a text apart count its characters from the front, from the end, or from a place on. What two of
them take from one text fits together if their counts do, also where a place or a count goes beyond the end.

* `Text.part` : so many characters from a place on;
* `TextFunction.gives_left`, `TextFunction.gives_right`, `TextFunction.gives_middle`, `TextFunction.gives_length` : the
  parts that calls give;
* `TextFunction.gives_replace` : the parts around a replacement;
* `TextFunction.parts_join` : parts that make up the whole text, and a replacement between two of them.
-/

namespace Spreadsheet

/-- So many characters of a text from a place on, which is counted from one. -/
def Text.part (s : String) (place count : ℕ) : String := String.ofList ((s.toList.drop (place - 1)).take count)

theorem Value.holds_ofNat {n : ℕ} (hn : n < 2 ^ 53) : (Value.number (Float.ofNat n)).Holds n :=
  ⟨_, rfl, by exact_mod_cast Binary64.represents_ofNat hn⟩

namespace TextFunction

variable {s t : String} {v w u : Value} {n k m : ℕ}

theorem gives_length [RegexLibrary] (s : String) : Gives "LEN" [.text s] (.number (Float.ofNat s.length)) := by
  rw [← String.length_toList]
  exact gives_of_getElem? (j := 3) rfl le_rfl le_rfl rfl

/-! ## Parts -/

section Parts

variable (hsize : s.length < 2 ^ 63)
include hsize

theorem gives_left [RegexLibrary] (hv : v.Holds n) : Gives "LEFT" [.text s, v] (ofChars (s.toList.take n)) := by
  have hcount : countArg [.text s, v] 1 1.0 = _ := countArg_eq rfl hv
  have htake : s.toList.take (min n (2 ^ 64 - 1)) = s.toList.take n := by
    rw [List.take_eq_take_iff, String.length_toList]
    omega
  refine gives_of_getElem? (j := 0) rfl (Nat.le_succ 1) le_rfl ?_
  show (countArg [.text s, v] 1 1.0 >>= fun n => pure (ofChars (s.toList.take n))) = _
  rw [hcount, ok_bind, htake]
  rfl

theorem gives_right [RegexLibrary] (hv : v.Holds n) :
    Gives "RIGHT" [.text s, v] (ofChars (s.toList.drop (s.length - n))) := by
  have hcount : countArg [.text s, v] 1 1.0 = _ := countArg_eq rfl hv
  have hdrop : s.toList.length - min n (2 ^ 64 - 1) = s.length - n := by
    rw [String.length_toList]
    omega
  refine gives_of_getElem? (j := 1) rfl (Nat.le_succ 1) le_rfl ?_
  show (countArg [.text s, v] 1 1.0 >>= fun n => pure (ofChars (s.toList.drop (s.toList.length - n)))) = _
  rw [hcount, ok_bind, hdrop]
  rfl

theorem gives_middle [RegexLibrary] (hv : v.Holds k) (hk : 1 ≤ k) (hw : w.Holds m) :
    Gives "MID" [.text s, v, w] (.text (Text.part s k m)) := by
  have hplace : placeArg [.text s, v, w] 1 = _ := placeArg_eq rfl hv hk
  have hcount : countArg [.text s, v, w] 2 0.0 = _ := countArg_eq rfl hw
  have hdrop : s.toList.drop (before (min k (2 ^ 64 - 1))) = s.toList.drop (k - 1) := by
    rw [before_min hk, List.drop_eq_drop_iff, String.length_toList]
    omega
  have htake : (s.toList.drop (k - 1)).take (min m (2 ^ 64 - 1)) = (s.toList.drop (k - 1)).take m := by
    rw [List.take_eq_take_iff, List.length_drop, String.length_toList]
    omega
  refine gives_of_getElem? (j := 2) rfl le_rfl le_rfl ?_
  show (placeArg [.text s, v, w] 1 >>= fun k => countArg [.text s, v, w] 2 0.0 >>= fun m =>
    pure (ofChars ((s.toList.drop (before k)).take m))) = _
  rw [hplace, ok_bind, hcount, ok_bind, hdrop, htake]
  rfl

/-- What stands in front of a place, a text, and what stands so many characters behind the place. -/
theorem gives_replace [RegexLibrary] (hv : v.Holds k) (hk : 1 ≤ k) (hw : w.Holds m) (t : String) :
    Gives "REPLACE" [.text s, v, w, .text t]
      (ofChars (s.toList.take (k - 1) ++ t.toList ++ s.toList.drop (k - 1 + m))) := by
  have hplace : placeArg [.text s, v, w, .text t] 1 = _ := placeArg_eq rfl hv hk
  have hcount : countArg [.text s, v, w, .text t] 2 0.0 = _ := countArg_eq rfl hw
  have htake : s.toList.take (before (min k (2 ^ 64 - 1))) = s.toList.take (k - 1) := by
    rw [before_min hk, List.take_eq_take_iff, String.length_toList]
    omega
  have hdrop : s.toList.drop (before (min k (2 ^ 64 - 1)) + min m (2 ^ 64 - 1)) = s.toList.drop (k - 1 + m) := by
    rw [before_min hk, List.drop_eq_drop_iff, String.length_toList]
    omega
  refine gives_of_getElem? (j := 9) rfl le_rfl le_rfl ?_
  show (placeArg [.text s, v, w, .text t] 1 >>= fun k => countArg [.text s, v, w, .text t] 2 0.0 >>= fun m =>
    pure (ofChars (s.toList.take (before k) ++ t.toList ++ s.toList.drop (before k + m)))) = _
  rw [hplace, ok_bind, hcount, ok_bind, htake, hdrop]
  rfl

end Parts

/-! ## Parts that fit together -/

theorem ofChars_toList (s : String) : ofChars s.toList = .text s := congrArg Value.text String.ofList_toList

theorem concat_ofChars (cs ds : List Char) : applyBinary .concat (ofChars cs) (ofChars ds) = ofChars (cs ++ ds) :=
  congrArg Value.text String.ofList_append.symm

/-- All characters from a place on. -/
theorem text_part_length (s : String) (k : ℕ) : .text (Text.part s k s.length) = ofChars (s.toList.drop (k - 1)) := by
  have htake : (s.toList.drop (k - 1)).take s.length = s.toList.drop (k - 1) :=
    List.take_of_length_le (by rw [List.length_drop, String.length_toList]; exact Nat.sub_le _ _)
  rw [Text.part, htake]
  rfl

theorem concat_take_drop (s : String) (n : ℕ) :
    applyBinary .concat (ofChars (s.toList.take n)) (ofChars (s.toList.drop n)) = .text s := by
  rw [concat_ofChars, List.take_append_drop, ofChars_toList]

/-- The front of a text goes together with the part behind it, and with the end that is left. A replacement stands
between the front of the text and the part that is so many characters behind it, wherever these are. The length of a
text is a number as long as numbers are exact. -/
theorem parts_join [RegexLibrary] (hsize : s.length < 2 ^ 63) :
    (∀ (n : ℕ) v w u, v.Holds n → w.Holds (n + 1 : ℕ) → u.Holds s.length → ∃ front rest,
      Gives "LEFT" [.text s, v] front ∧ Gives "MID" [.text s, w, u] rest ∧
      applyBinary .concat front rest = .text s) ∧
    (∀ n v w, n ≤ s.length → v.Holds n → w.Holds (s.length - n : ℕ) → ∃ front rest,
      Gives "LEFT" [.text s, v] front ∧ Gives "RIGHT" [.text s, w] rest ∧
      applyBinary .concat front rest = .text s) ∧
    (∀ (t : String) (k m : ℕ) (v w v' w' u : Value), 1 ≤ k → v.Holds k → w.Holds m → v'.Holds (k - 1 : ℕ) →
      w'.Holds (k + m : ℕ) → u.Holds s.length → ∃ front rest,
      Gives "LEFT" [.text s, v'] front ∧ Gives "MID" [.text s, w', u] rest ∧
      Gives "REPLACE" [.text s, v, w, .text t] (applyBinary .concat (applyBinary .concat front (.text t)) rest)) ∧
    ∃ u, Gives "LEN" [.text s] u ∧ (s.length < 2 ^ 53 → u.Holds s.length) := by
  refine ⟨fun n v w u hv hw hu => ?_, fun n v w hn hv hw => ?_, fun t k m v w v' w' u hk hv hw hv' hw' hu => ?_,
    _, gives_length s, Value.holds_ofNat⟩
  · have hrest := gives_middle hsize hw (Nat.succ_pos n) hu
    rw [text_part_length] at hrest
    exact ⟨_, _, gives_left hsize hv, hrest, concat_take_drop s n⟩
  · have hrest := gives_right hsize hw
    rw [Nat.sub_sub_self hn] at hrest
    exact ⟨_, _, gives_left hsize hv, hrest, concat_take_drop s n⟩
  · have hrest := gives_middle hsize hw' (hk.trans (Nat.le_add_right k m)) hu
    rw [text_part_length] at hrest
    refine ⟨_, _, gives_left hsize hv', hrest, ?_⟩
    have hreplace := gives_replace hsize hv hk hw t
    rwa [← Nat.sub_add_comm hk, ← concat_ofChars, ← concat_ofChars, ofChars_toList] at hreplace

/-- Characters of several bytes, and a replacement behind the end. -/
theorem parts_join_umlauts : "Ünïx".length < 2 ^ 63 ∧ (Value.ofInt 3).Holds (3 : ℕ) ∧ (Value.ofInt 4).Holds (4 : ℕ) ∧
    (∃ front rest, Gives "LEFT" [.text "Ünïx", .ofInt 3] front ∧
      Gives "MID" [.text "Ünïx", .ofInt 4, .ofInt 4] rest ∧ applyBinary .concat front rest = .text "Ünïx") ∧
    (∃ front rest, Gives "LEFT" [.text "Ünïx", .ofInt 3] front ∧
      Gives "RIGHT" [.text "Ünïx", .ofInt 1] rest ∧ applyBinary .concat front rest = .text "Ünïx") ∧
    ∃ front rest, Gives "LEFT" [.text "Ünïx", .ofInt 6] front ∧
      Gives "MID" [.text "Ünïx", .ofInt 10, .ofInt 4] rest ∧
      Gives "REPLACE" [.text "Ünïx", .ofInt 7, .ofInt 3, .text "é"]
        (applyBinary .concat (applyBinary .concat front (.text "é")) rest) := by
  have hholds : ∀ n : ℕ, n < 2 ^ 53 → (Value.ofInt n).Holds n := fun n => Value.holds_ofInt_natCast
  have hsize : "Ünïx".length < 2 ^ 63 := by decide
  obtain ⟨hmiddle, hright, hreplace, -⟩ := parts_join hsize
  exact ⟨hsize, hholds 3 (by norm_num), hholds 4 (by norm_num),
    hmiddle 3 _ _ _ (hholds 3 (by norm_num)) (hholds 4 (by norm_num)) (hholds 4 (by norm_num)),
    hright 3 _ _ (by decide) (hholds 3 (by norm_num)) (hholds 1 (by norm_num)),
    hreplace "é" 7 3 _ _ _ _ _ (by norm_num) (hholds 7 (by norm_num)) (hholds 3 (by norm_num))
      (hholds 6 (by norm_num)) (hholds 10 (by norm_num)) (hholds 4 (by norm_num))⟩

end TextFunction

end Spreadsheet
