import Spreadsheet.Proofs.TextParts

/-!
# Repeating a text

A text may be repeated as long as what comes out stays within a limit. The limit is one on bytes, though the length of
a text is a number of characters, so a text with characters of several bytes meets it too early.

* `TextFunction.repeatedWithin` : a text so many times, with a limit on all its units;
* `TextFunction.gives_repeat` : what a call gives, with bytes for units;
* `TextFunction.repeat_characters_iff` : where that is the same as with characters.
-/

namespace Spreadsheet

/-- A character takes at least one byte. -/
theorem Text.length_le_utf8ByteSize (s : String) : s.length ≤ s.utf8ByteSize := by
  have hbytes : ∀ cs : List Char, cs.length ≤ String.utf8Len cs := by
    intro cs
    induction cs with
    | nil => exact le_rfl
    | cons c cs ih => exact Nat.add_le_add ih c.utf8Size_pos
  rw [← String.length_toList, ← String.ofList_toList (s := s), String.utf8ByteSize_ofList, String.toList_ofList]
  exact hbytes s.toList

namespace TextFunction

variable {s : String} {v : Value} {n size : ℕ}

/-- A text so many times, unless its units come to more than there may be. -/
def repeatedWithin (size : ℕ) (s : String) (n : ℕ) : Value :=
  if n * size ≤ maxRepeated then ofChars (List.replicate n s.toList).flatten else .error .value

theorem text_repeated (s : String) (n : ℕ) :
    .text (Text.repeated s n) = ofChars (List.replicate n s.toList).flatten := by
  rw [Text.repeated]
  split_ifs with hempty
  · rw [String.isEmpty_iff.1 hempty, String.toList_empty, List.flatten_replicate_nil]
    rfl
  · rfl

/-- A count that is not read in full is one of a text that comes out as itself, or one that is far too large. -/
theorem repeatedWithin_min (s : String) (n : ℕ) :
    repeatedWithin s.utf8ByteSize s (min n (2 ^ 64 - 1)) = repeatedWithin s.utf8ByteSize s n := by
  obtain hread | hlarge := le_or_gt n (2 ^ 64 - 1)
  · rw [min_eq_left hread]
  · obtain rfl | hs := eq_or_ne s ""
    · simp [repeatedWithin]
    · have hbytes : 1 ≤ s.utf8ByteSize := Nat.pos_of_ne_zero (mt String.utf8ByteSize_eq_zero_iff.1 hs)
      have hexceeds : ∀ times, 2 ^ 64 - 1 ≤ times → ¬times * s.utf8ByteSize ≤ maxRepeated := by
        intro times htimes
        have hle : times * 1 ≤ times * s.utf8ByteSize := Nat.mul_le_mul_left times hbytes
        rw [maxRepeated]
        omega
      rw [min_eq_right hlarge.le, repeatedWithin, repeatedWithin, if_neg (hexceeds _ le_rfl),
        if_neg (hexceeds n hlarge.le)]

theorem gives_repeat [RegexLibrary] (hv : v.Holds n) :
    Gives "REPT" [.text s, v] (repeatedWithin s.utf8ByteSize s n) := by
  have hcount : countArg [.text s, v] 1 0.0 = _ := countArg_eq rfl hv
  rw [← repeatedWithin_min]
  refine (gives_iff_of_getElem? (j := 14) rfl le_rfl le_rfl).2 ?_
  show (countArg [.text s, v] 1 0.0 >>= fun times =>
    if maxRepeated < s.utf8ByteSize * times then throw .value else pure (.text (Text.repeated s times))).toValue = _
  rw [hcount, ok_bind, repeatedWithin, mul_comm s.utf8ByteSize]
  split_ifs with hlarge hfits hfits
  · exact absurd hfits hlarge.not_ge
  · rfl
  · exact text_repeated s _
  · exact absurd (Nat.lt_of_not_le hfits) hlarge

theorem length_repeated (s : String) (n : ℕ) : (List.replicate n s.toList).flatten.length = n * s.length := by
  rw [List.length_flatten, List.map_replicate, List.sum_replicate, smul_eq_mul, String.length_toList]

theorem repeatedWithin_eq_iff {size' : ℕ} : repeatedWithin size s n = repeatedWithin size' s n ↔
    (n * size ≤ maxRepeated ↔ n * size' ≤ maxRepeated) := by
  unfold repeatedWithin
  split_ifs with hfits hfits' hfits'
  · exact iff_of_true rfl (iff_of_true hfits hfits')
  · exact iff_of_false nofun fun h => hfits' (h.1 hfits)
  · exact iff_of_false nofun fun h => hfits (h.2 hfits')
  · exact iff_of_true rfl (iff_of_false hfits hfits')

/-! ## Limits -/

section Limits

variable {few many limit : ℕ} (hzero : few = 0 → many = 0)
include hzero

theorem fits_of_div_eq (heq : limit / many = limit / few) (hn : n * few ≤ limit) : n * many ≤ limit := by
  obtain hmany | hmany := Nat.eq_zero_or_pos many
  · rw [hmany]
    exact Nat.zero_le _
  · have hfew : 0 < few := Nat.pos_of_ne_zero (mt hzero hmany.ne')
    rwa [← Nat.le_div_iff_mul_le hmany, heq, Nat.le_div_iff_mul_le hfew]

/-- As many copies of more units fit if the most copies of fewer units do. -/
theorem div_eq_of_fits (hle : few ≤ many) (hmost : limit / few * many ≤ limit) : limit / many = limit / few := by
  obtain hfew | hfew := Nat.eq_zero_or_pos few
  · rw [hzero hfew, hfew]
  · exact (Nat.div_le_div_left hle hfew).antisymm ((Nat.le_div_iff_mul_le (hfew.trans_le hle)).2 hmost)

end Limits

/-! ## Characters for units -/

theorem gives_repeat_characters_iff [RegexLibrary] (hv : v.Holds n) :
    Gives "REPT" [.text s, v] (repeatedWithin s.length s n) ↔
    (n * s.length ≤ maxRepeated → n * s.utf8ByteSize ≤ maxRepeated) := by
  have hless : n * s.utf8ByteSize ≤ maxRepeated → n * s.length ≤ maxRepeated :=
    (Nat.mul_le_mul_left n (Text.length_le_utf8ByteSize s)).trans
  rw [(gives_repeat hv).iff_eq, repeatedWithin_eq_iff]
  exact ⟨fun h => h.2, fun h => ⟨hless, h⟩⟩

/-- A call repeats a text as long as its bytes keep to the limit. Its characters have the same limit for the counts
where the bytes keep to it whenever the characters do, and so for every count if as many copies fit either way. -/
theorem repeat_characters_iff [RegexLibrary] (s : String) :
    (∀ (n : ℕ) v, v.Holds n → Gives "REPT" [.text s, v] (repeatedWithin s.utf8ByteSize s n)) ∧
    (∀ n, Gives "LEN" [ofChars (List.replicate n s.toList).flatten] (.number (Float.ofNat (n * s.length)))) ∧
    (∀ (n : ℕ) v, v.Holds n → (Gives "REPT" [.text s, v] (repeatedWithin s.length s n) ↔
      (n * s.length ≤ maxRepeated → n * s.utf8ByteSize ≤ maxRepeated))) ∧
    ((∀ (n : ℕ) v, v.Holds n → Gives "REPT" [.text s, v] (repeatedWithin s.length s n)) ↔
      maxRepeated / s.utf8ByteSize = maxRepeated / s.length) := by
  have hzero : s.length = 0 → s.utf8ByteSize = 0 := by
    rw [String.utf8ByteSize_eq_zero_iff]
    exact String.length_eq_zero_iff.1
  refine ⟨fun n v => gives_repeat, fun n => ?_, fun n v => gives_repeat_characters_iff, fun hall => ?_,
    fun heq n v hv => (gives_repeat_characters_iff hv).2 (fits_of_div_eq hzero heq)⟩
  · have hlength := gives_length (String.ofList (List.replicate n s.toList).flatten)
    rwa [String.length_ofList, length_repeated] at hlength
  · -- the most copies of the characters are few enough for a number
    have hmost : (Value.ofInt (maxRepeated / s.length : ℕ)).Holds (maxRepeated / s.length : ℕ) :=
      Value.holds_ofInt_natCast ((Nat.div_le_self maxRepeated s.length).trans_lt (by decide))
    exact div_eq_of_fits hzero (Text.length_le_utf8ByteSize s)
      ((gives_repeat_characters_iff hmost).1 (hall _ _ hmost) (Nat.div_mul_le_self _ _))

/-- A text of as many bytes as characters, at its last count and the one behind it. -/
theorem repeat_characters_ab : (Value.ofInt 16383).Holds (16383 : ℕ) ∧
    Gives "REPT" [.text "ab", .ofInt 16383] (ofChars (List.replicate 16383 ['a', 'b']).flatten) ∧
    (Value.ofInt 16384).Holds (16384 : ℕ) ∧ Gives "REPT" [.text "ab", .ofInt 16384] (.error .value) ∧
    ∀ (n : ℕ) v, v.Holds n → Gives "REPT" [.text "ab", v] (repeatedWithin "ab".length "ab" n) := by
  have hlast : (Value.ofInt 16383).Holds (16383 : ℕ) := Value.holds_ofInt (by norm_num)
  have hnext : (Value.ofInt 16384).Holds (16384 : ℕ) := Value.holds_ofInt (by norm_num)
  obtain ⟨hbytes, -, -, hcharacters⟩ := repeat_characters_iff "ab"
  have hall := hcharacters.2 (by decide)
  exact ⟨hlast, hbytes 16383 _ hlast, hnext, hall 16384 _ hnext, hall⟩

/-- As many characters of two bytes as would fit, were they of one. -/
theorem repeat_umlauts : (Value.ofInt 16384).Holds (16384 : ℕ) ∧ 16384 * "é".length ≤ maxRepeated ∧
    Gives "REPT" [.text "é", .ofInt 16384] (.error .value) ∧
    ¬∀ s (n : ℕ) v, v.Holds n → Gives "REPT" [.text s, v] (repeatedWithin s.length s n) := by
  have hcount : (Value.ofInt 16384).Holds (16384 : ℕ) := Value.holds_ofInt (by norm_num)
  have hfits : 16384 * "é".length ≤ maxRepeated := by decide
  have herror : Gives "REPT" [.text "é", .ofInt 16384] (.error .value) := gives_repeat hcount
  refine ⟨hcount, hfits, herror, fun hall => ?_⟩
  have hbytes := (gives_repeat_characters_iff hcount).1 (hall "é" 16384 _ hcount) hfits
  exact absurd hbytes (by decide)

end TextFunction

end Spreadsheet
