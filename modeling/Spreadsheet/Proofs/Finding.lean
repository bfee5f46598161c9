import Spreadsheet.Proofs.Searching
import Spreadsheet.Proofs.TextParts

/-!
# Finding a text in another one

A text stands at a place of another one if that is where its characters begin to follow each other. The walk that looks
for it tries one place after the other, so it stops at the first one. The place and the length of the text tell a call
of `MID` to give the text back, and no earlier place does.

* `Text.placeFrom?_eq_some`, `Text.placeFrom?_eq_none` : the place that the walk stops at;
* `Text.partAt_eq_iff` : the places where a text stands, as parts of the other one;
* `TextFunction.find_finds` : what a call finds;
* `TextFunction.find_least` : it is the first place with the text as its part.
-/

namespace Spreadsheet

theorem partAt_cons_iff {q : List Char → Prop} {c : Char} {cs : List Char} {k : ℕ} :
    PartAt q (c :: cs) (k + 2) ↔ PartAt q cs (k + 1) := by
  rw [partAt_succ_iff, partAt_succ_iff, List.drop_succ_cons, List.length_cons, Nat.succ_le_succ_iff]

namespace Text

variable {needle cs : List Char} {n h : String} {i j k : ℕ}

theorem partAt_prefix_iff : PartAt (· = needle) cs (k + 1) ↔ k ≤ cs.length ∧ needle <+: cs.drop k := by
  rw [partAt_succ_iff]
  refine and_congr_right fun _ => ⟨?_, ?_⟩
  · rintro ⟨part, rest, hdrop, rfl⟩
    exact ⟨rest, hdrop.symm⟩
  · rintro ⟨rest, hdrop⟩
    exact ⟨needle, rest, hdrop.symm, rfl⟩

theorem placeFrom?_eq_some (h : placeFrom? needle k cs = some j) :
    IsLeast {i | k ≤ i ∧ PartAt (· = needle) cs (i - k + 1)} j := by
  have hhere : ∀ k ds, needle <+: ds → IsLeast {i | k ≤ i ∧ PartAt (· = needle) ds (i - k + 1)} k := by
    refine fun k ds hstarts => ⟨⟨le_rfl, ?_⟩, fun i hi => hi.1⟩
    rw [Nat.sub_self]
    exact partAt_prefix_iff.2 ⟨Nat.zero_le _, hstarts⟩
  fun_induction placeFrom? needle k cs with
  | case1 k hempty =>
    obtain rfl := Option.some.inj h
    exact hhere k [] (List.isEmpty_iff.1 hempty ▸ List.nil_prefix)
  | case2 => cases h
  | case3 k c cs hstarts =>
    obtain rfl := Option.some.inj h
    exact hhere k _ (List.isPrefixOf_iff_prefix.1 hstarts)
  | case4 k c cs hnot ih =>
    obtain ⟨⟨hlater, hpart⟩, hleast⟩ := ih h
    refine ⟨⟨by omega, ?_⟩, ?_⟩
    · rw [show j - k + 1 = j - (k + 1) + 2 by omega]
      exact partAt_cons_iff.2 hpart
    · rintro i ⟨hi, hpart⟩
      obtain rfl | hlater := Nat.eq_or_lt_of_le hi
      · rw [Nat.sub_self] at hpart
        exact absurd (List.isPrefixOf_iff_prefix.2 (partAt_prefix_iff.1 hpart).2) hnot
      · rw [show i - k + 1 = i - (k + 1) + 2 by omega] at hpart
        exact hleast ⟨hlater, partAt_cons_iff.1 hpart⟩

theorem placeFrom?_eq_none (h : placeFrom? needle k cs = none) (i : ℕ) : ¬PartAt (· = needle) cs (i + 1) := by
  fun_induction placeFrom? needle k cs generalizing i with
  | case1 => cases h
  | case2 k hnonempty =>
    rw [partAt_prefix_iff, List.drop_nil, List.prefix_nil]
    exact fun hpart => hnonempty (List.isEmpty_iff.2 hpart.2)
  | case3 => cases h
  | case4 k c cs hnot ih =>
    cases i with
    | zero => exact fun hpart => hnot (List.isPrefixOf_iff_prefix.2 (partAt_prefix_iff.1 hpart).2)
    | succ i => exact fun hpart => ih h i (partAt_cons_iff.1 hpart)

/-- A text stands where so many characters of the other one make it up. -/
theorem partAt_eq_iff : PartAt (· = n.toList) h.toList k ↔ 1 ≤ k ∧ k ≤ h.length + 1 ∧ part h k n.length = n := by
  cases k with
  | zero => exact ⟨fun hpart => absurd hpart.pos (Nat.lt_irrefl 0), fun hk => absurd hk.1 (Nat.lt_irrefl 0)⟩
  | succ k =>
    have hpart : part h (k + 1) n.length = n ↔ n.toList = (h.toList.drop k).take n.toList.length := by
      rw [String.length_toList, part, ← String.toList_inj, String.toList_ofList]
      exact eq_comm
    have hle : k + 1 ≤ h.length + 1 ↔ k ≤ h.length := Nat.succ_le_succ_iff
    rw [partAt_prefix_iff, hpart, List.prefix_iff_eq_take, String.length_toList, hle]
    exact ⟨fun hk => ⟨Nat.succ_pos k, hk⟩, fun hk => hk.2⟩

end Text

namespace TextFunction

open Text (part partAt_eq_iff)

variable {n h : String} {arguments : List Value} {start : ℕ}

theorem find_finds (hn : textArg arguments 0 = .ok n) (hh : textArg arguments 1 = .ok h)
    (hstart : placeArg arguments 2 = .ok start) (hpos : 1 ≤ start) :
    FindsFrom (· = n.toList) h.toList start (placeOf Text.place? arguments) := by
  by_cases hinside : start ≤ h.toList.length + 1
  · -- the walk begins with what is left of the text from the place on
    have hrest : ∀ j, start - 1 ≤ j → (PartAt (· = n.toList) (h.toList.drop (start - 1)) (j - (start - 1) + 1) ↔
        PartAt (· = n.toList) h.toList (j + 1)) := by
      intro j hj
      rw [Text.partAt_prefix_iff, Text.partAt_prefix_iff, List.length_drop, List.drop_drop, Nat.add_sub_cancel' hj]
      exact and_congr_left fun _ => by omega
    refine findsFrom_placeOf hn hh hstart hpos hinside (fun k hk => ?_) fun hk j hj hpart => ?_
    · obtain ⟨⟨hle, hpart⟩, hleast⟩ := Text.placeFrom?_eq_some hk
      exact ⟨⟨hle, (hrest k hle).1 hpart⟩, fun j hj => hleast ⟨hj.1, (hrest j hj.1).2 hj.2⟩⟩
    · exact Text.placeFrom?_eq_none hk _ ((hrest j hj).2 hpart)
  · refine .inr ⟨fun k hk hpart => hinside (hk.trans hpart.le), ?_⟩
    rw [placeOf_eq Text.place? hn hh hstart hpos, if_pos (Nat.lt_of_not_le hinside)]

theorem gives_find [RegexLibrary] {v : Value} (hsize : h.length < 2 ^ 63) (hv : v.Holds start) (hstart : 1 ≤ start) :
    (∃ k, IsLeast {k | start ≤ k ∧ PartAt (· = n.toList) h.toList k} k ∧
      Gives "FIND" [.text n, .text h, v] (.number (Float.ofNat k))) ∨
    (∀ k, start ≤ k → ¬PartAt (· = n.toList) h.toList k) ∧ Gives "FIND" [.text n, .text h, v] (.error .value) := by
  have hplace : placeArg [.text n, .text h, v] 2 = _ := placeArg_eq rfl hv hstart
  have hread : ∀ k, PartAt (· = n.toList) h.toList k → (min start (2 ^ 64 - 1) ≤ k ↔ start ≤ k) := by
    intro k hpart
    have hle := hpart.le
    rw [String.length_toList] at hle
    omega
  have hgives : ∀ w, Gives "FIND" [.text n, .text h, v] w ↔ _ :=
    fun w => gives_iff_of_getElem? (j := 10) rfl (Nat.le_succ 2) le_rfl
  rcases find_finds rfl rfl hplace (by omega) with ⟨k, ⟨⟨hk, hpart⟩, hleast⟩, hfound⟩ | ⟨hnone, herror⟩
  · refine .inl ⟨k, ⟨⟨(hread k hpart).1 hk, hpart⟩, fun j hj => hleast ⟨(hread j hj.2).2 hj.1, hj.2⟩⟩, ?_⟩
    exact (hgives _).2 (congrArg Outcome.toValue hfound)
  · refine .inr ⟨fun k hk hpart => hnone k ((hread k hpart).2 hk) hpart, ?_⟩
    exact (hgives _).2 (congrArg Outcome.toValue herror)

/-- A text is found at the first place from which so many characters of the other text make it up, not before the start
and at most one past the end; where there is none, as behind the end, the call fails. The characters are those that
`MID` gives, and their number is the length of the text as long as numbers are exact. -/
theorem find_least [RegexLibrary] (hsize : h.length < 2 ^ 63) :
    (∀ (start : ℕ) v, 1 ≤ start → v.Holds start →
      (∀ k, IsLeast {k | start ≤ k ∧ k ≤ h.length + 1 ∧ part h k n.length = n} k →
        Gives "FIND" [.text n, .text h, v] (.number (Float.ofNat k))) ∧
      (Gives "FIND" [.text n, .text h, v] (.error .value) ↔
        ∀ k, start ≤ k → k ≤ h.length + 1 → part h k n.length ≠ n)) ∧
    (∀ (k m : ℕ) v w, 1 ≤ k → v.Holds k → w.Holds m → Gives "MID" [.text h, v, w] (.text (part h k m))) ∧
    ∃ u, Gives "LEN" [.text n] u ∧ (n.length < 2 ^ 53 → u.Holds n.length) := by
  refine ⟨fun start v hstart hv => ?_, fun k m v w hk hv hw => gives_middle hsize hv hk hw,
    _, gives_length n, Value.holds_ofNat⟩
  have hparts : ∀ k, start ≤ k ∧ PartAt (· = n.toList) h.toList k ↔
      start ≤ k ∧ k ≤ h.length + 1 ∧ part h k n.length = n := by
    intro k
    rw [partAt_eq_iff]
    exact and_congr_right fun hk => and_iff_right (hstart.trans hk)
  rcases gives_find hsize hv hstart with ⟨k, hleast, hfound⟩ | ⟨hnone, herror⟩
  · have hleast : IsLeast {k | start ≤ k ∧ k ≤ h.length + 1 ∧ part h k n.length = n} k := Set.ext hparts ▸ hleast
    refine ⟨fun j hj => hj.unique hleast ▸ hfound, iff_of_false (fun herror => ?_) fun hall => ?_⟩
    · cases hfound.unique herror
    · exact hall k hleast.1.1 hleast.1.2.1 hleast.1.2.2
  · refine ⟨fun j hj => ?_, iff_of_true herror fun k hk hle hpart => ?_⟩
    · exact absurd ((hparts j).2 hj.1).2 (hnone j hj.1.1)
    · exact hnone k hk ((hparts k).2 ⟨hk, hle, hpart⟩).2

/-- The second of two places in a text of characters of two bytes, and a start from which there is none. -/
theorem find_least_second : "ßaßa".length < 2 ^ 63 ∧ (Value.ofInt 2).Holds (2 : ℕ) ∧
    IsLeast {k | 2 ≤ k ∧ k ≤ "ßaßa".length + 1 ∧ part "ßaßa" k "ßa".length = "ßa"} 3 ∧
    Gives "FIND" [.text "ßa", .text "ßaßa", .ofInt 2] (.number (Float.ofNat 3)) ∧ (Value.ofInt 4).Holds (4 : ℕ) ∧
    Gives "FIND" [.text "ßa", .text "ßaßa", .ofInt 4] (.error .value) ∧
    Gives "MID" [.text "ßaßa", .ofInt 2, .ofInt 2] (.text "aß") := by
  have hsize : "ßaßa".length < 2 ^ 63 := by decide
  have htwo : (Value.ofInt 2).Holds (2 : ℕ) := Value.holds_ofInt (by norm_num)
  have hfour : (Value.ofInt 4).Holds (4 : ℕ) := Value.holds_ofInt (by norm_num)
  have hleast : IsLeast {k | 2 ≤ k ∧ k ≤ "ßaßa".length + 1 ∧ part "ßaßa" k "ßa".length = "ßa"} 3 := by
    refine ⟨⟨by decide, by decide, by decide⟩, fun k hk => ?_⟩
    obtain ⟨hstart, -, hpart⟩ := hk
    by_contra hbefore
    obtain rfl : k = 2 := by omega
    exact absurd hpart (by decide)
  have hnone : ∀ k, 4 ≤ k → k ≤ "ßaßa".length + 1 → part "ßaßa" k "ßa".length ≠ "ßa" := by
    intro k hk hle
    obtain rfl | rfl : k = 4 ∨ k = 5 := by
      have hlength : "ßaßa".length = 4 := by decide
      omega
    · decide
    · decide
  obtain ⟨hfind, hmiddle, -⟩ := find_least (n := "ßa") hsize
  exact ⟨hsize, htwo, hleast, (hfind 2 _ (by decide) htwo).1 3 hleast, hfour,
    (hfind 4 _ (by decide) hfour).2.2 hnone, hmiddle 2 2 _ _ (by decide) htwo htwo⟩

end TextFunction

end Spreadsheet
