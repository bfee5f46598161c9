import Spreadsheet.Proofs.Coordinates
import Spreadsheet.Reference.CellRange

/-!
# Written references are read back

A name that stands bare holds no `!` and starts with no quote, and a quoted one ends at the first quote that is not
doubled, so the sheet of a written reference is split off as it was written. Two corners are told apart by the last
colon, unless an odd number of quotes stands before it.

* `Address.IsWritable` : a sheet can hold the cell, and the sheet has a name if it is given;
* `splitSheet_qualifier` : the sheet of a reference;
* `Address.isWritable_of_read` : what is read can be written;
* `Address.read_write` : references to one cell;
* `CellRange.read_single`, `CellRange.read_corners` : ranges, by where their last colon is;
* `CellRange.read_write_iff` : which ranges are read back.
-/

namespace Spreadsheet

open Text (isAsciiDigit isAsciiLetter isAsciiAlphanumeric isBlank doubled)

/-! ## Sheet names -/

theorem isBareSheetName_iff {cs : List Char} : isBareSheetName cs ↔
    (∀ c ∈ cs.head?, isAsciiDigit c = false) ∧ cs ≠ [] ∧
      ∀ c ∈ cs, isAsciiAlphanumeric c ∨ c = '_' ∨ c = '.' := by
  cases cs with
  | nil => simp [isBareSheetName]
  | cons c cs => simp [isBareSheetName, or_assoc]

/-- Letters, digits, `_` and `.` are neither blanks nor the marks of a reference. -/
theorem plain_of_bare {c : Char} (h : isAsciiAlphanumeric c ∨ c = '_' ∨ c = '.') :
    isBlank c = false ∧ c ≠ '!' ∧ c ≠ '\'' ∧ c ≠ ':' := by
  rcases h with h | rfl | rfl
  · have hword : Text.isAlphanumeric c := Text.isAlphanumeric_of_ascii (by simpa [isAsciiAlphanumeric] using h)
    refine ⟨Text.isBlank_of_isAlphanumeric hword, ?_, ?_, ?_⟩ <;> rintro rfl <;> cases hword
  · decide
  · decide

/-- A sheet name in quotes. -/
def quotedName (cs : List Char) : List Char := '\'' :: (doubled '\'' cs ++ ['\''])

theorem toList_writeSheetName (name : String) : (writeSheetName name).toList =
    if isBareSheetName name.toList then name.toList else quotedName name.toList := by
  unfold writeSheetName quotedName
  split
  · rfl
  · exact String.toList_ofList

/-- Only names in quotes hold a colon. -/
theorem quoted_of_colon {name : String} (h : ':' ∈ name.toList) :
    (writeSheetName name).toList = quotedName name.toList := by
  rw [toList_writeSheetName, if_neg]
  intro hbare
  exact (plain_of_bare ((isBareSheetName_iff.1 hbare).2.2 _ h)).2.2.2 rfl

/-- What stands before the coordinates of a reference. -/
def qualifier : Option String → List Char
  | some name => (writeSheetName name).toList ++ ['!']
  | none => []

/-- Names in quotes hold an even number of quotes, and bare ones none. -/
theorem count_qualifier (sheet : Option String) : (qualifier sheet).count '\'' % 2 = 0 := by
  cases sheet with
  | none => rfl
  | some name =>
    rw [qualifier, toList_writeSheetName, List.count_append]
    split
    · rename_i hbare
      have hnone : name.toList.count '\'' = 0 := List.count_eq_zero.2 fun hmem =>
        (plain_of_bare ((isBareSheetName_iff.1 hbare).2.2 _ hmem)).2.2.1 rfl
      rw [hnone]
      rfl
    · have hmark : ['!'].count '\'' = 0 := by decide
      simp only [quotedName, List.count_cons_self, List.count_append, Text.count_doubled, List.count_nil, hmark]
      omega

theorem colon_mem_qualifier {sheet : Option String} :
    ':' ∈ qualifier sheet ↔ ∃ name, sheet = some name ∧ ':' ∈ name.toList := by
  cases sheet with
  | none => simp [qualifier]
  | some name =>
    rw [qualifier, toList_writeSheetName]
    split <;> simp [quotedName, Text.mem_doubled]

theorem splitSheet_none {cs : List Char} (hbang : '!' ∉ cs) (hquote : cs.head? ≠ some '\'') :
    splitSheet cs = .ok (none, cs) := by
  have hdrop : cs.dropWhile (· != '!') = [] :=
    List.dropWhile_eq_nil_iff.2 fun c hc => by simpa using fun heq : c = '!' => hbang (heq ▸ hc)
  unfold splitSheet
  split
  · simp at hquote
  · rw [hdrop]

theorem splitSheet_bare {name cs : List Char} (hbare : isBareSheetName name) :
    splitSheet (name ++ '!' :: cs) = .ok (some (String.ofList name), cs) := by
  obtain ⟨-, hne, hchars⟩ := isBareSheetName_iff.1 hbare
  have hbang : ∀ c ∈ name, (c != '!') = true := fun c hc => by simpa using (plain_of_bare (hchars c hc)).2.1
  have htake : (name ++ '!' :: cs).takeWhile (· != '!') = name := Text.takeWhile_run hbang (by simp)
  have hdrop : (name ++ '!' :: cs).dropWhile (· != '!') = '!' :: cs := Text.dropWhile_run hbang (by simp)
  unfold splitSheet
  split
  · rename_i heq
    obtain ⟨c, rest, rfl⟩ := List.exists_cons_of_ne_nil hne
    obtain ⟨rfl, -⟩ := List.cons.inj heq
    exact absurd rfl (plain_of_bare (hchars _ (List.mem_cons_self ..))).2.2.1
  · rw [hdrop, htake]
    exact if_neg (by simpa using hne)

theorem splitSheet_quoted {name cs : List Char} (hne : name ≠ []) :
    splitSheet (quotedName name ++ '!' :: cs) = .ok (some (String.ofList name), cs) := by
  have hread : Text.readDelimited '\'' (doubled '\'' name ++ '\'' :: '!' :: cs) = some (name, '!' :: cs) :=
    Text.readDelimited_doubled name (by simp)
  rw [quotedName, List.cons_append, List.append_assoc, List.cons_append, List.nil_append, splitSheet, hread]
  simp [hne]

/-- The sheet of a written reference is split off. -/
theorem splitSheet_qualifier {sheet : Option String} (hname : sheet ≠ some "") {cs : List Char} (hbang : '!' ∉ cs)
    (hquote : cs.head? ≠ some '\'') : splitSheet (qualifier sheet ++ cs) = .ok (sheet, cs) := by
  cases sheet with
  | none => exact splitSheet_none hbang hquote
  | some name =>
    rw [qualifier, toList_writeSheetName, List.append_assoc, List.cons_append, List.nil_append]
    split
    · rename_i hbare
      rw [splitSheet_bare hbare, String.ofList_toList]
    · have hne : name.toList ≠ [] := fun hnil => hname (by rw [String.toList_eq_nil_iff.1 hnil])
      rw [splitSheet_quoted hne, String.ofList_toList]

/-- A sheet that is split off has a name. -/
theorem ne_empty_of_splitSheet {cs rest : List Char} {sheet : Option String}
    (h : splitSheet cs = .ok (sheet, rest)) : sheet ≠ some "" := by
  rintro rfl
  unfold splitSheet at h
  split at h
  · split at h
    · cases h
    · split at h
      · cases h
      · rename_i name _ _ hne
        simp only [Except.ok.injEq, Prod.mk.injEq, Option.some.injEq] at h
        obtain ⟨hname, -⟩ := h
        rw [← String.toList_inj, String.toList_ofList] at hname
        simp [hname] at hne
    · cases h
  · split at h
    · dsimp only at h
      split at h
      · cases h
      · rename_i hne
        simp only [Except.ok.injEq, Prod.mk.injEq, Option.some.injEq] at h
        obtain ⟨hname, -⟩ := h
        rw [← String.toList_inj, String.toList_ofList] at hname
        simp [hname] at hne
    · cases h

/-! ## References to one cell -/

namespace Address

/-- Whether a reference can be written: a sheet can hold the cell, and the sheet has a name if it is given. -/
def IsWritable (a : Address) : Prop := a.InBounds ∧ a.sheet ≠ some ""

instance (a : Address) : Decidable a.IsWritable := inferInstanceAs (Decidable (_ ∧ _))

theorem inBounds_of_readCoordinates {whole : String} {cs : List Char} {a : Address}
    (h : readCoordinates whole cs = .ok a) : a.InBounds := by
  unfold readCoordinates at h
  dsimp only at h
  split at h
  · cases h
  · cases hcolumn : columnIndex (String.ofList ((readMark cs).2.takeWhile isAsciiLetter)) with
    | error fault =>
      rw [hcolumn] at h
      cases h
    | ok column =>
      rw [hcolumn] at h
      change (if _ then _ else _) = _ at h
      split at h
      · cases h
      · split at h
        · cases h
        · split at h
          · cases h
          · split at h
            · cases h
            · rename_i hrow hreached
              cases h
              refine ⟨?_, ?_⟩
              · show _ - 1 < maxRows
                omega
              · show column - 1 < maxColumns
                have : 0 < maxColumns := by decide
                omega

/-- What is read can be written. -/
theorem isWritable_of_read {text : String} {a : Address} (h : read text = .ok a) : a.IsWritable := by
  unfold read at h
  dsimp only at h
  split at h
  · cases h
  · split at h
    · cases h
    · rename_i sheet coordinates hsplit
      cases hread : readCoordinates (Text.trim text) coordinates with
      | error fault =>
        rw [hread] at h
        cases h
      | ok b =>
        rw [hread] at h
        cases h
        have hbounds : b.InBounds := inBounds_of_readCoordinates hread
        exact ⟨hbounds, ne_empty_of_splitSheet hsplit⟩

variable {a : Address}

theorem toList_write (a : Address) : a.write.toList = qualifier a.sheet ++ a.writeCoordinates.toList := by
  cases hsheet : a.sheet with
  | none => simp [write, qualifier, hsheet]
  | some name => simp [write, qualifier, hsheet]

/-- Coordinates hold neither blanks nor the marks that set them apart. -/
theorem plain_of_mem_writeCoordinates {c : Char} (hc : c ∈ a.writeCoordinates.toList) :
    isBlank c = false ∧ c ≠ '!' ∧ c ≠ '\'' ∧ c ≠ ':' := by
  rcases a.mem_writeCoordinates hc with hc | rfl
  · refine ⟨Text.isBlank_of_isAlphanumeric hc, ?_, ?_, ?_⟩ <;> rintro rfl <;> cases hc
  · decide

theorem head?_writeCoordinates : a.writeCoordinates.toList.head? ≠ some '\'' := by
  intro hquote
  exact (plain_of_mem_writeCoordinates (List.mem_of_mem_head? hquote)).2.2.1 rfl

theorem isBlank_of_head?_write {c : Char} (hc : c ∈ a.write.toList.head?) : isBlank c = false := by
  rw [toList_write] at hc
  cases hsheet : a.sheet with
  | none =>
    rw [hsheet] at hc
    exact (plain_of_mem_writeCoordinates (List.mem_of_mem_head? hc)).1
  | some name =>
    rw [hsheet, qualifier, toList_writeSheetName] at hc
    split at hc
    · rename_i hbare
      obtain ⟨-, hname, hchars⟩ := isBareSheetName_iff.1 hbare
      obtain ⟨d, ds, hd⟩ := List.exists_cons_of_ne_nil hname
      rw [hd] at hc hchars
      obtain rfl : d = c := by simpa using hc
      exact (plain_of_bare (hchars d (List.mem_cons_self ..))).1
    · obtain rfl : '\'' = c := by simpa [quotedName] using hc
      decide

theorem isBlank_of_getLast?_write {c : Char} (hc : c ∈ a.write.toList.getLast?) : isBlank c = false := by
  have hne := a.writeCoordinates_ne_nil
  rw [toList_write, List.getLast?_append, List.getLast?_eq_some_getLast hne] at hc
  obtain rfl : _ = c := Option.some.inj hc
  exact (plain_of_mem_writeCoordinates (List.getLast_mem hne)).1

theorem trim_write (a : Address) : Text.trim a.write = a.write :=
  Text.trim_of_ends (fun _ => isBlank_of_head?_write) fun _ => isBlank_of_getLast?_write

theorem write_ne_nil (a : Address) : a.write.toList ≠ [] := by
  simp [toList_write, a.writeCoordinates_ne_nil]

theorem read_of_isWritable (h : a.IsWritable) : read a.write = .ok a := by
  obtain ⟨hbounds, hname⟩ := h
  have hbang : '!' ∉ a.writeCoordinates.toList := fun hmem => (plain_of_mem_writeCoordinates hmem).2.1 rfl
  have hempty : a.write.isEmpty = false := by
    simpa using fun hnil => a.write_ne_nil (String.toList_eq_nil_iff.2 hnil)
  rw [read, trim_write]
  simp only [hempty, toList_write, splitSheet_qualifier hname hbang head?_writeCoordinates,
    a.readCoordinates_write hbounds]
  rfl

/-- The references that are read back are those that can be written, among them all that are read from some text. -/
theorem read_write (a : Address) :
    (read a.write = .ok a ↔ a.IsWritable) ∧ ∀ text, read text = .ok a → read a.write = .ok a :=
  ⟨⟨isWritable_of_read, read_of_isWritable⟩, fun _ h => read_of_isWritable (isWritable_of_read h)⟩

/-- The last cell of a sheet whose name holds every mark, from text with blanks around it. -/
theorem read_write_lastCell :
    read "  'it''s 50%: ok!'!$ZZZ1048576 " =
        .ok { row := 1048575, column := 18277, columnAbsolute := true, sheet := some "it's 50%: ok!" } ∧
      read (write { row := 1048575, column := 18277, columnAbsolute := true, sheet := some "it's 50%: ok!" }) =
        .ok { row := 1048575, column := 18277, columnAbsolute := true, sheet := some "it's 50%: ok!" } := by
  have hread : read "  'it''s 50%: ok!'!$ZZZ1048576 " =
      .ok { row := 1048575, column := 18277, columnAbsolute := true, sheet := some "it's 50%: ok!" } := by
    decide +kernel
  exact ⟨hread, (read_write _).2 _ hread⟩

end Address

/-! ## Ranges -/

namespace CellRange

open Address

theorem splitAtLastColon_append {before after : List Char} (h : ':' ∉ after) :
    splitAtLastColon (before ++ ':' :: after) = some (before, after) := by
  have hafter : ∀ c ∈ after.reverse, (c != ':') = true := fun c hc => by
    simpa using fun heq : c = ':' => h (heq ▸ List.mem_reverse.1 hc)
  have hback : (before ++ ':' :: after).reverse = after.reverse ++ ':' :: before.reverse := by simp
  have htake : (after.reverse ++ ':' :: before.reverse).takeWhile (· != ':') = after.reverse :=
    Text.takeWhile_run hafter (by simp)
  have hdrop : (after.reverse ++ ':' :: before.reverse).dropWhile (· != ':') = ':' :: before.reverse :=
    Text.dropWhile_run hafter (by simp)
  unfold splitAtLastColon
  simp only [hback, htake, hdrop, List.reverse_reverse]

theorem splitAtLastColon_none {cs : List Char} (h : ':' ∉ cs) : splitAtLastColon cs = none := by
  have hdrop : cs.reverse.dropWhile (· != ':') = [] := List.dropWhile_eq_nil_iff.2 fun c hc => by
    simpa using fun heq : c = ':' => h (heq ▸ List.mem_reverse.1 hc)
  unfold splitAtLastColon
  simp only [hdrop]

theorem exists_last_colon {cs : List Char} (h : ':' ∈ cs) :
    ∃ before after, cs = before ++ ':' :: after ∧ ':' ∉ after := by
  obtain ⟨after, before, hback, hafter⟩ := List.eq_append_cons_of_mem (List.mem_reverse.2 h)
  refine ⟨before.reverse, after.reverse, ?_, by simpa using hafter⟩
  rw [← List.reverse_reverse cs, hback]
  simp

variable {start finish : Address} {text : String}

/-- Text without a colon is one cell. -/
theorem read_uncut (htrim : Text.trim text = text) (h : ':' ∉ text.toList) :
    read text = (Address.read text).map single := by
  unfold read
  simp only [htrim, splitAtLastColon_none h]

/-- A colon in quotes divides nothing: the text is one cell if an odd number of quotes is before its last colon. -/
theorem read_quoted (htrim : Text.trim text = text) {before after : List Char}
    (htext : text.toList = before ++ ':' :: after) (hafter : ':' ∉ after) (hodd : before.count '\'' % 2 = 1) :
    read text = (Address.read text).map single := by
  unfold read
  simp only [htrim, htext, splitAtLastColon_append hafter]
  exact if_pos hodd

/-- The corners stand around the last colon if an even number of quotes is before it. -/
theorem read_corners (htrim : Text.trim text = text) {before after : String}
    (htext : text = before ++ ":" ++ after) (hafter : ':' ∉ after.toList) (heven : before.toList.count '\'' % 2 = 0) :
    read text = do
      let start ← Address.read before
      let finish ← Address.read after
      return ofCorners start finish := by
  have hlist : text.toList = before.toList ++ ':' :: after.toList := by simp [htext]
  unfold read
  simp only [htrim, hlist, splitAtLastColon_append hafter, heven, String.ofList_toList]
  rfl

/-- Before the last colon of a written reference stands an odd number of quotes: its sheet is still open there. -/
theorem exists_colon_write {a : Address} (h : ':' ∈ a.write.toList) :
    ∃ before after, a.write.toList = before ++ ':' :: after ∧ ':' ∉ after ∧ before.count '\'' % 2 = 1 := by
  rw [toList_write, List.mem_append] at h
  obtain hmem | hmem := h
  · obtain ⟨name, hsheet, hname⟩ := colon_mem_qualifier.1 hmem
    obtain ⟨front, back, hsplit, hback⟩ := exists_last_colon hname
    refine ⟨'\'' :: doubled '\'' front, doubled '\'' back ++ '\'' :: '!' :: a.writeCoordinates.toList, ?_, ?_, ?_⟩
    · rw [toList_write, hsheet, qualifier, quoted_of_colon hname, hsplit, quotedName, Text.doubled_append]
      simp [doubled]
    · have hcoordinates : ':' ∉ a.writeCoordinates.toList := fun hc => (plain_of_mem_writeCoordinates hc).2.2.2 rfl
      simp [Text.mem_doubled, hback, hcoordinates]
    · rw [List.count_cons_self, Text.count_doubled]
      omega
  · exact absurd rfl (plain_of_mem_writeCoordinates hmem).2.2.2

theorem count_write (a : Address) : a.write.toList.count '\'' % 2 = 0 := by
  have hnone : a.writeCoordinates.toList.count '\'' = 0 :=
    List.count_eq_zero.2 fun hc => (plain_of_mem_writeCoordinates hc).2.2.1 rfl
  rw [toList_write, List.count_append, hnone]
  exact count_qualifier a.sheet

theorem colon_mem_write {a : Address} :
    ':' ∈ a.write.toList ↔ ∃ name, a.sheet = some name ∧ ':' ∈ name.toList := by
  have hcoordinates : ':' ∉ a.writeCoordinates.toList := fun hc => (plain_of_mem_writeCoordinates hc).2.2.2 rfl
  rw [toList_write, List.mem_append, colon_mem_qualifier]
  simp [hcoordinates]

/-- A written reference is a range of one cell. -/
theorem read_single {a : Address} (h : a.IsWritable) : read a.write = .ok (single a) := by
  have hlone : read a.write = (Address.read a.write).map single := by
    by_cases hcolon : ':' ∈ a.write.toList
    · obtain ⟨before, after, htext, hafter, hodd⟩ := exists_colon_write hcolon
      exact read_quoted (trim_write a) htext hafter hodd
    · exact read_uncut (trim_write a) hcolon
  rw [hlone, read_of_isWritable h]
  rfl

theorem trim_corners (start finish : Address) :
    Text.trim (start.write ++ ":" ++ finish.write) = start.write ++ ":" ++ finish.write := by
  refine Text.trim_of_ends (fun c hc => isBlank_of_head?_write (a := start) ?_) fun c hc =>
    isBlank_of_getLast?_write (a := finish) ?_
  · rw [String.toList_append, String.toList_append, List.append_assoc, List.head?_append,
      List.head?_eq_some_head start.write_ne_nil] at hc
    rwa [List.head?_eq_some_head start.write_ne_nil]
  · rw [String.toList_append, List.getLast?_append, List.getLast?_eq_some_getLast finish.write_ne_nil] at hc
    rwa [List.getLast?_eq_some_getLast finish.write_ne_nil]

/-- Two written references with a colon between them are read as the corners, as long as no colon is in the sheet of
the second. -/
theorem read_written_corners (hs : start.IsWritable) (hf : finish.IsWritable) (hcolon : ':' ∉ finish.write.toList) :
    read (start.write ++ ":" ++ finish.write) = .ok (ofCorners start finish) := by
  rw [read_corners (trim_corners start finish) rfl hcolon (count_write start), read_of_isWritable hs,
    read_of_isWritable hf]
  rfl

/-- With a colon in the sheet of the second, the text is taken for one cell. -/
theorem read_written_swallowed (start : Address) (hcolon : ':' ∈ finish.write.toList) : ∃ text : String,
    read (start.write ++ ":" ++ finish.write) = (Address.read text).map single := by
  obtain ⟨before, after, htext, hafter, hodd⟩ := exists_colon_write hcolon
  have hwhole : (start.write ++ ":" ++ finish.write).toList =
      (start.write.toList ++ ':' :: before) ++ ':' :: after := by
    simp [htext]
  have hopen : (start.write.toList ++ ':' :: before).count '\'' % 2 = 1 := by
    have heven := count_write start
    simp only [List.count_append, List.count_cons_of_ne (show ':' ≠ '\'' by decide)]
    omega
  exact ⟨_, read_quoted (trim_corners start finish) hwhole hafter hopen⟩

/-- A range on one sheet names it before its start only. -/
theorem read_write_shared (hs : start.IsWritable) (hf : finish.IsWritable)
    (hsheet : finish.sheet = none ∨ finish.sheet = start.sheet) :
    read (ofCorners start finish).write = .ok (ofCorners start finish) := by
  have hshared : (ofCorners start finish).finish.sheet = start.sheet := by
    obtain hsheet | hsheet := hsheet <;> simp [ofCorners, hsheet]
  by_cases hsame : start = (ofCorners start finish).finish
  · have hsingle : ofCorners start finish = single start := congrArg (CellRange.mk start) hsame.symm
    have hwrite : (ofCorners start finish).write = start.write := if_pos hsame
    rw [hwrite, hsingle, read_single hs]
  · have hwrite : (ofCorners start finish).write =
        start.write ++ ":" ++ ({ finish with sheet := none } : Address).write := by
      rw [write, if_neg (show (ofCorners start finish).start ≠ (ofCorners start finish).finish from hsame)]
      simp only [show (ofCorners start finish).finish.sheet = (ofCorners start finish).start.sheet from hshared,
        if_true]
      rfl
    have hcorners : ofCorners start { finish with sheet := none } = ofCorners start finish :=
      congrArg (fun sheet => CellRange.mk start { finish with sheet }) hshared.symm
    have hcolon : ':' ∉ ({ finish with sheet := none } : Address).write.toList := fun hmem => by
      obtain ⟨_, hname, -⟩ := colon_mem_write.1 hmem
      cases hname
    have hbare : ({ finish with sheet := none } : Address).IsWritable := ⟨hf.1, by simp⟩
    rw [hwrite, read_written_corners hs hbare hcolon, hcorners]

/-- An end on a sheet of its own is read back as long as no colon is in the name of that sheet. -/
theorem read_write_own (hs : start.IsWritable) (hf : finish.IsWritable) (hnamed : finish.sheet ≠ none)
    (hother : finish.sheet ≠ start.sheet) :
    read (ofCorners start finish).write = .ok (ofCorners start finish) ↔ ':' ∉ finish.write.toList := by
  have hfinish : (ofCorners start finish).finish = finish := by
    obtain ⟨name, hname⟩ := Option.ne_none_iff_exists'.1 hnamed
    cases finish
    simp_all [ofCorners]
  have hne : start ≠ finish := fun heq => hother (by rw [heq])
  have hwrite : (ofCorners start finish).write = start.write ++ ":" ++ finish.write := by
    rw [write, hfinish, if_neg (show (ofCorners start finish).start ≠ finish from hne)]
    simp only [show finish.sheet ≠ (ofCorners start finish).start.sheet from hother, if_false]
    rfl
  rw [hwrite]
  refine ⟨fun hread hcolon => hne ?_, read_written_corners hs hf⟩
  obtain ⟨text, hone⟩ := read_written_swallowed start hcolon
  rw [hone] at hread
  cases hcell : Address.read text with
  | error fault =>
    rw [hcell] at hread
    cases hread
  | ok cell =>
    rw [hcell] at hread
    have hr : single cell = ofCorners start finish := Except.ok.inj hread
    calc start = cell := (congrArg CellRange.start hr).symm
      _ = (ofCorners start finish).finish := congrArg CellRange.finish hr
      _ = finish := hfinish

/-- A range between two corners is read back as it was, unless the end lies on a sheet of its own with a colon in its
name: that colon is then taken for one within the sheet of a single cell. -/
theorem read_write_iff (hs : start.IsWritable) (hf : finish.IsWritable) :
    read (ofCorners start finish).write = .ok (ofCorners start finish) ↔
      ∀ name, finish.sheet = some name → finish.sheet = start.sheet ∨ ':' ∉ name.toList := by
  by_cases hnamed : finish.sheet = none
  · exact iff_of_true (read_write_shared hs hf (.inl hnamed)) (by simp [hnamed])
  by_cases hother : finish.sheet = start.sheet
  · exact iff_of_true (read_write_shared hs hf (.inr hother)) fun _ _ => .inl hother
  · rw [read_write_own hs hf hnamed hother, colon_mem_write]
    simp [hother]

/-- Corners on two sheets, and the colons in the name of the first one. -/
theorem read_write_twoSheets :
    read (ofCorners { row := 0, column := 0, sheet := some "a:b" } { row := 1, column := 1, sheet := some "c" }).write =
      .ok (ofCorners { row := 0, column := 0, sheet := some "a:b" } { row := 1, column := 1, sheet := some "c" }) :=
  (read_write_iff (by decide +kernel) (by decide +kernel)).2 fun name hname => .inr (by
    obtain rfl : "c" = name := Option.some.inj hname
    decide +kernel)

/-- The range from `A1` to `'a:b'!B2` is read as one cell, of the sheet `A1:'a:b'`. -/
theorem read_swallowed :
    (ofCorners { row := 0, column := 0 } { row := 1, column := 1, sheet := some "a:b" }).write = "A1:'a:b'!B2" ∧
      read "A1:'a:b'!B2" = .ok (single { row := 1, column := 1, sheet := some "A1:'a:b'" }) ∧
      ¬ ∀ start finish : Address, start.IsWritable → finish.IsWritable →
        read (ofCorners start finish).write = .ok (ofCorners start finish) := by
  refine ⟨by decide +kernel, by decide +kernel, fun h => ?_⟩
  have hread := h { row := 0, column := 0 } { row := 1, column := 1, sheet := some "a:b" } (by decide +kernel)
    (by decide +kernel)
  revert hread
  decide +kernel

end CellRange

end Spreadsheet
