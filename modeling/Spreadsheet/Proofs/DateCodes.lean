import Spreadsheet.Proofs.DateDisplay
import Spreadsheet.Proofs.SheetCalendar

/-!
# Date codes piece by piece

A date code that is written as runs of letters, texts in quotes, escaped characters and separators is split into just
these pieces, and shows what they show one after the other. Only the section of a code is found without a look at
escapes: a semicolon ends it wherever the quotes before it are even in number, so a code with such a semicolon loses the
rest, and its shown text at least that semicolon.

* `CodePiece`, `WrittenCode` : pieces as they are written; `CodePiece.shown`, `WrittenCode.shown` : what they show;
* `firstSection_eq_self_iff` : the codes that are one section;
* `splitPieces_flatMap`, `resolveMinutes_map` : the pieces of a written code;
* `isSome_ofSerial?` : the serials in range have a moment to show;
* `formatNumber_letter` : a code that starts with a letter of a field shows the moment of a serial;
* `formatNumber_written_iff` : a written code shows its pieces in order just if it is one section.
-/

namespace Spreadsheet.Format

open Binary64 (Represents)
open Calendar (firstSerial lastSerial)
open Text (asciiLowerChar isAsciiLetter isBlank)

/-! ## Letters of fields -/

section Letters

variable {c d : Char} {part : DateField}

/-- The letter that a field is written with, in lower case. -/
def DateField.letter : DateField → Char
  | year => 'y'
  | month | minute => 'm'
  | day => 'd'
  | hour => 'h'
  | second => 's'

theorem asciiLowerChar_of_fieldOfLetter? (h : fieldOfLetter? c = some part) : asciiLowerChar c = part.letter := by
  unfold fieldOfLetter? at h
  split at h <;> cases h <;> assumption

theorem isAsciiLetter_of_fieldOfLetter? (h : fieldOfLetter? c = some part) : isAsciiLetter c := by
  refine Text.isAsciiLetter_of_lower ?_
  rw [asciiLowerChar_of_fieldOfLetter? h]
  cases part <;> decide

theorem ne_of_fieldOfLetter? (h : fieldOfLetter? c = some part) (hd : isAsciiLetter d = false) : c ≠ d := by
  rintro rfl
  rw [isAsciiLetter_of_fieldOfLetter? h] at hd
  cases hd

theorem fieldOfLetter?_eq_none (h : isAsciiLetter c = false) : fieldOfLetter? c = none :=
  Option.eq_none_iff_forall_ne_some.2 fun _ hc => Bool.eq_false_iff.1 h (isAsciiLetter_of_fieldOfLetter? hc)

theorem asciiLowerChar_ne (h : isAsciiLetter c = false) : asciiLowerChar c ≠ 'a' := fun hc =>
  Bool.eq_false_iff.1 h (Text.isAsciiLetter_of_lower (by rw [hc]; rfl))

theorem isBlank_of_fieldOfLetter? (h : fieldOfLetter? c = some part) : isBlank c = false :=
  Text.isBlank_of_isAlphanumeric (Text.isAlphanumeric_of_ascii (.inl (isAsciiLetter_of_fieldOfLetter? h)))

/-- The letters of one field differ at most in case. -/
theorem sameLetter_iff (hc : fieldOfLetter? c = some part) : sameLetter c d ↔ fieldOfLetter? d = some part := by
  constructor
  · intro h
    rw [← hc]
    simp only [fieldOfLetter?, beq_iff_eq.1 h]
  · intro hd
    exact beq_iff_eq.2 ((asciiLowerChar_of_fieldOfLetter? hc).trans (asciiLowerChar_of_fieldOfLetter? hd).symm)

/-- A character that begins no marker for the half of the day is looked at on its own. -/
theorem splitPieces_cons (h : asciiLowerChar c ≠ 'a') (rest : List Char) : splitPieces (c :: rest) =
    if c = '"' then
      .literal (rest.takeWhile (· != '"')) :: splitPieces ((rest.dropWhile (· != '"')).drop 1)
    else if c = '\\' then
      match rest with
      | d :: rest => .literal [d] :: splitPieces rest
      | [] => []
    else if c = '[' then splitPieces ((rest.dropWhile (· != ']')).drop 1)
    else
      match fieldOfLetter? c with
      | some part =>
        .field part ((rest.takeWhile (sameLetter c)).length + 1) ::
          splitPieces (rest.dropWhile (sameLetter c))
      | none => .literal [c] :: splitPieces rest := by
  have hword : ∀ word, startsWithWord ('a' :: word) (c :: rest) = false := fun word => by simp [startsWithWord, h]
  have hlong : startsWithWord "am/pm".toList (c :: rest) = false := hword _
  have hshort : startsWithWord "a/p".toList (c :: rest) = false := hword _
  have hpieces := splitPieces.eq_def (c :: rest)
  simp only [hlong, hshort, Bool.false_eq_true, if_false] at hpieces
  exact hpieces

end Letters

/-! ## Sections -/

variable {cs : List Char} {quotes : Bool}

/-- What is not in the section starts with a semicolon. -/
theorem firstSection_eq (quotes : Bool) (cs : List Char) :
    firstSection quotes cs = cs ∨ ∃ rest, cs = firstSection quotes cs ++ ';' :: rest := by
  induction cs generalizing quotes with
  | nil => exact .inl rfl
  | cons c cs ih =>
    rw [firstSection]
    split
    · exact (ih (!quotes)).imp (congrArg (c :: ·)) fun ⟨rest, h⟩ => ⟨rest, congrArg (c :: ·) h⟩
    · split
      · rename_i h
        exact .inr ⟨cs, by rw [h.1]; rfl⟩
      · exact (ih quotes).imp (congrArg (c :: ·)) fun ⟨rest, h⟩ => ⟨rest, congrArg (c :: ·) h⟩

/-- Before each semicolon an odd number of quotes is met, those counted that the text stands in. -/
theorem firstSection_eq_iff : firstSection quotes cs = cs ↔
    ∀ before after, cs = before ++ ';' :: after → (before.count '"' + quotes.toNat) % 2 = 1 := by
  induction cs generalizing quotes with
  | nil => exact ⟨fun _ before after h => by simp at h, fun _ => rfl⟩
  | cons c cs ih =>
    -- the character in front of the others adds a quote, is a semicolon that has to be quoted, or changes nothing
    have hsplit : ∀ {P : List Char → Prop}, (∀ before after, c :: cs = before ++ ';' :: after → P before) ↔
        (c = ';' → P []) ∧ ∀ before after, cs = before ++ ';' :: after → P (c :: before) := by
      intro P
      constructor
      · intro h
        exact ⟨fun hc => h [] cs (by rw [hc]; rfl), fun before after hcs => h (c :: before) after (by rw [hcs]; rfl)⟩
      · rintro ⟨hfirst, hrest⟩ before after h
        cases before with
        | nil => exact hfirst (List.cons.inj h).1
        | cons d before =>
          obtain ⟨rfl, hcs⟩ := List.cons.inj h
          exact hrest before after hcs
    rw [hsplit, firstSection]
    split
    · rename_i hc
      subst hc
      rw [List.cons_inj_right, ih]
      refine Iff.trans (forall₃_congr fun before after _ => ?_) (and_iff_right (by simp)).symm
      have htoggled : (!quotes).toNat + quotes.toNat = 1 := by cases quotes <;> rfl
      rw [List.count_cons_self]
      omega
    · rename_i hquote
      have hcount : ∀ before : List Char, (c :: before).count '"' = before.count '"' := fun before =>
        List.count_cons_of_ne hquote
      simp only [hcount]
      split
      · rename_i h
        obtain ⟨rfl, hq⟩ := h
        rw [Bool.not_eq_true'] at hq
        subst hq
        exact iff_of_false (by simp) fun h => absurd (h.1 rfl) (by decide)
      · rename_i h
        rw [List.cons_inj_right, ih]
        refine (and_iff_right fun hc => ?_).symm
        have hq : quotes = true := by simpa [hc] using h
        rw [hq]
        rfl

/-- A code is one section if an odd number of quotes stands before each semicolon of it. -/
theorem firstSection_eq_self_iff : firstSection false cs = cs ↔
    ∀ before after, cs = before ++ ';' :: after → before.count '"' % 2 = 1 :=
  firstSection_eq_iff

/-! ## Pieces -/

/-- A piece of a date code as it is written. -/
inductive CodePiece where
  /-- The letters of a field. -/
  | run (part : DateField) (letters : List Char) (ne_nil : letters ≠ [])
      (fields : ∀ c ∈ letters, fieldOfLetter? c = some part)
  /-- Text in quotes. -/
  | quoted (text : List Char) (unquoted : '"' ∉ text)
  /-- A character after a backslash. -/
  | escaped (c : Char)
  | separator (c : Char) (mem : c ∈ ['-', '/', ':', ',', ' '])

namespace CodePiece

def field? : CodePiece → Option DateField
  | run part _ _ _ => some part
  | _ => none

def chars : CodePiece → List Char
  | run _ letters _ _ => letters
  | quoted text _ => '"' :: (text ++ ['"'])
  | escaped c => ['\\', c]
  | separator c _ => [c]

/-- The piece without its spelling. -/
def piece : CodePiece → DatePiece
  | run part letters _ _ => .field part letters.length
  | quoted text _ => .literal text
  | escaped c => .literal [c]
  | separator c _ => .literal [c]

/-- The field of a run between other pieces. A short run of months is minutes where the nearest field before it is the
hour, or the nearest after it the seconds. -/
def fieldBetween (before after : List CodePiece) (part : DateField) (run : ℕ) : DateField :=
  if part = .month ∧ run ≤ 2 ∧
      (before.reverse.findSome? field? = some .hour ∨ after.findSome? field? = some .second) then .minute
  else part

/-- What a piece shows between other pieces: a field of the moment, or its text as it is. -/
def shown (m : Moment) (before after : List CodePiece) : CodePiece → List Char
  | run part letters _ _ => m.showField false (fieldBetween before after part letters.length) letters.length
  | quoted text _ => text
  | escaped c => [c]
  | separator c _ => [c]

/-- Runs of one field would make a single run. -/
def Apart (p q : CodePiece) : Prop := p.field? = none ∨ p.field? ≠ q.field?

instance : DecidableRel Apart := fun p q => inferInstanceAs (Decidable (p.field? = none ∨ p.field? ≠ q.field?))

theorem of_separator {c : Char} (h : c ∈ ['-', '/', ':', ',', ' ']) :
    isAsciiLetter c = false ∧ c ≠ '"' ∧ c ≠ '\\' ∧ c ≠ '[' ∧ c ≠ ';' := by
  obtain rfl | rfl | rfl | rfl | rfl : c = '-' ∨ c = '/' ∨ c = ':' ∨ c = ',' ∨ c = ' ' := by simpa using h
  all_goals decide

variable (p : CodePiece)

theorem fieldOfLetter?_head (rest : List Char) :
    ∃ c tail, p.chars ++ rest = c :: tail ∧ fieldOfLetter? c = p.field? := by
  cases p with
  | run part letters hne hfields =>
    obtain ⟨c, letters, rfl⟩ := List.exists_cons_of_ne_nil hne
    exact ⟨c, letters ++ rest, rfl, hfields c List.mem_cons_self⟩
  | quoted text => exact ⟨'"', _, rfl, rfl⟩
  | escaped c => exact ⟨'\\', _, rfl, rfl⟩
  | separator c hc =>
    exact ⟨c, rest, rfl, fieldOfLetter?_eq_none (of_separator hc).1⟩

/-- A piece is split off where no letter of its field follows. -/
theorem splitPieces_chars {rest : List Char} (hrest : ∀ d ∈ rest.head?, ∀ part, p.field? = some part →
    fieldOfLetter? d ≠ some part) : splitPieces (p.chars ++ rest) = p.piece :: splitPieces rest := by
  cases p with
  | run part letters hne hfields =>
    obtain ⟨c, letters, rfl⟩ := List.exists_cons_of_ne_nil hne
    have hc := hfields c List.mem_cons_self
    have hlower : asciiLowerChar c ≠ 'a' := by
      rw [asciiLowerChar_of_fieldOfLetter? hc]
      cases part <;> decide
    have hrun : ∀ d ∈ letters, sameLetter c d := fun d hd =>
      (sameLetter_iff hc).2 (hfields d (List.mem_cons_of_mem c hd))
    have hend : ∀ d ∈ rest.head?, sameLetter c d = false := fun d hd =>
      Bool.eq_false_iff.2 fun h => hrest d hd part rfl ((sameLetter_iff hc).1 h)
    show splitPieces (c :: (letters ++ rest)) = .field part (letters.length + 1) :: splitPieces rest
    rw [splitPieces_cons hlower, if_neg (ne_of_fieldOfLetter? hc rfl), if_neg (ne_of_fieldOfLetter? hc rfl),
      if_neg (ne_of_fieldOfLetter? hc rfl), hc]
    dsimp only
    rw [Text.takeWhile_run hrun hend, Text.dropWhile_run hrun hend]
  | quoted text htext =>
    have hrun : ∀ c ∈ text, (c != '"') = true := fun c hc => bne_iff_ne.2 fun h => htext (h ▸ hc)
    have hend : ∀ c ∈ ('"' :: rest).head?, (c != '"') = false := by
      rintro c ⟨⟩
      rfl
    have hchars : (quoted text htext).chars ++ rest = '"' :: (text ++ '"' :: rest) := by
      simp [chars]
    rw [hchars, splitPieces_cons (by decide), if_pos rfl, Text.takeWhile_run hrun hend, Text.dropWhile_run hrun hend]
    rfl
  | escaped c =>
    show splitPieces ('\\' :: c :: rest) = .literal [c] :: splitPieces rest
    rw [splitPieces_cons (by decide), if_neg (by decide), if_pos rfl]
  | separator c hc =>
    obtain ⟨hletter, hquote, hescape, hbracket, -⟩ := of_separator hc
    show splitPieces (c :: rest) = .literal [c] :: splitPieces rest
    rw [splitPieces_cons (asciiLowerChar_ne hletter), if_neg hquote, if_neg hescape, if_neg hbracket,
      fieldOfLetter?_eq_none hletter]

end CodePiece

/-! ## Codes -/

variable {pieces : List CodePiece}

/-- Pieces of which no two neighbours would make a single run are split as they are written. -/
theorem splitPieces_flatMap (h : pieces.IsChain CodePiece.Apart) :
    splitPieces (pieces.flatMap CodePiece.chars) = pieces.map CodePiece.piece := by
  induction pieces with
  | nil =>
    rw [List.flatMap_nil, splitPieces]
    rfl
  | cons p pieces ih =>
    rw [List.flatMap_cons, p.splitPieces_chars, ih h.tail, List.map_cons]
    intro d hd part hp
    cases pieces with
    | nil => cases hd
    | cons q pieces =>
      obtain ⟨c, tail, hchars, hc⟩ := q.fieldOfLetter?_head (pieces.flatMap CodePiece.chars)
      rw [List.flatMap_cons, hchars] at hd
      cases hd
      rw [hc]
      rcases (List.isChain_cons_cons.1 h).1 with hnone | hother
      · rw [hnone] at hp
        cases hp
      · exact fun hq => hother (hp.trans hq.symm)

/-- A date code that begins and ends with a run of letters. -/
structure WrittenCode where
  pieces : List CodePiece
  apart : pieces.IsChain CodePiece.Apart
  starts : ∃ p ∈ pieces.head?, p.field?.isSome
  ends : ∃ p ∈ pieces.getLast?, p.field?.isSome

namespace WrittenCode

variable (code : WrittenCode) (m : Moment)

def chars : List Char := code.pieces.flatMap CodePiece.chars

/-- What the pieces of a code show, one after the other. -/
def shown : List Char :=
  (code.pieces.mapIdx fun i p => p.shown m (code.pieces.take i) (code.pieces.drop (i + 1))).flatten

/-- A code starts with a letter of a field. -/
theorem exists_chars : ∃ c tail, code.chars = c :: tail ∧ (fieldOfLetter? c).isSome := by
  obtain ⟨p, hp, hfield⟩ := code.starts
  obtain ⟨pieces, hpieces⟩ := List.head?_eq_some_iff.1 hp
  obtain ⟨c, tail, hchars, hc⟩ := p.fieldOfLetter?_head (pieces.flatMap CodePiece.chars)
  refine ⟨c, tail, ?_, by rwa [hc]⟩
  rw [chars, hpieces, List.flatMap_cons, hchars]

/-- A code has no blanks around it. -/
theorem trim_chars : Text.trim (String.ofList code.chars) = String.ofList code.chars := by
  refine Text.trim_of_ends (fun c hc => ?_) fun c hc => ?_ <;> rw [String.toList_ofList] at hc
  · obtain ⟨d, tail, hchars, hd⟩ := code.exists_chars
    obtain ⟨part, hd⟩ := Option.isSome_iff_exists.1 hd
    rw [hchars] at hc
    cases hc
    exact isBlank_of_fieldOfLetter? hd
  · obtain ⟨p, hp, hfield⟩ := code.ends
    obtain ⟨front, hpieces⟩ := List.getLast?_eq_some_iff.1 hp
    cases p with
    | run part letters hne hfields =>
      have hlast : c ∈ letters.getLast? := by
        have hchars : code.chars = front.flatMap CodePiece.chars ++ letters := by
          simp [chars, hpieces, CodePiece.chars]
        rwa [hchars, List.getLast?_append_of_ne_nil _ hne] at hc
      exact isBlank_of_fieldOfLetter? (hfields c (List.mem_of_getLast? hlast))
    | _ => cases hfield

end WrittenCode

/-! ## Minutes -/

/-- A piece with minutes told from months. -/
def CodePiece.resolved (before after : List CodePiece) : CodePiece → DatePiece
  | run part letters _ _ => .field (fieldBetween before after part letters.length) letters.length
  | p => p.piece

theorem CodePiece.showPiece_resolved (m : Moment) (before after : List CodePiece) (p : CodePiece) :
    m.showPiece false (p.resolved before after) = p.shown m before after := by
  cases p <;> rfl

section Neighbours

variable (p : CodePiece)

theorem CodePiece.isField_piece : p.piece.isField = p.field?.isSome := by
  cases p <;> rfl

theorem CodePiece.isHour_piece : p.piece.isHour = decide (p.field? = some .hour) := by
  cases p with
  | run part => cases part <;> rfl
  | _ => rfl

theorem CodePiece.isSecond_piece : p.piece.isSecond = decide (p.field? = some .second) := by
  cases p with
  | run part => cases part <;> rfl
  | _ => rfl

/-- The next field, looked up among the pieces without their spelling. -/
theorem any_isSecond (after : List CodePiece) : ((after.map CodePiece.piece).find? DatePiece.isField).any
    DatePiece.isSecond = decide (after.findSome? CodePiece.field? = some .second) := by
  induction after with
  | nil => rfl
  | cons p after ih =>
    rw [List.map_cons, List.find?_cons, List.findSome?_cons, p.isField_piece]
    cases hp : p.field? with
    | none => exact ih
    | some part =>
      rw [Option.isSome_some, Option.any_some, p.isSecond_piece, hp]

/-- Read from the left, the last field is known and the next one is looked up. -/
theorem resolveMinutes_map (before pieces : List CodePiece) :
    resolveMinutes (before.reverse.findSome? CodePiece.field? = some .hour) (pieces.map CodePiece.piece) =
      pieces.mapIdx fun i p => p.resolved (before ++ pieces.take i) (pieces.drop (i + 1)) := by
  induction pieces generalizing before with
  | nil => rfl
  | cons p after ih =>
    rw [List.map_cons, resolveMinutes.eq_def, List.mapIdx_cons]
    dsimp only
    rw [any_isSecond, p.isField_piece, p.isHour_piece]
    refine congrArg₂ List.cons ?_ ?_
    · cases p with
      | run part letters =>
        cases part with
        | month =>
          simp [CodePiece.piece, CodePiece.resolved, CodePiece.fieldBetween]
          split <;> rfl
        | _ => simp [CodePiece.piece, CodePiece.resolved, CodePiece.fieldBetween]
      | _ => rfl
    · have hlast : (if p.field?.isSome then decide (p.field? = some .hour)
          else decide (before.reverse.findSome? CodePiece.field? = some .hour)) =
          decide ((before ++ [p]).reverse.findSome? CodePiece.field? = some .hour) := by
        rw [List.reverse_append, List.reverse_singleton, List.singleton_append, List.findSome?_cons]
        cases p.field? <;> rfl
      rw [hlast, ih]
      simp

end Neighbours

/-- The pieces of a whole code, split and with minutes told from months, show what was written. -/
theorem WrittenCode.showPieces_datePieces (code : WrittenCode) (m : Moment) :
    m.showPieces (datePieces (String.ofList code.chars)) = code.shown m := by
  have hresolved : resolveMinutes false (code.pieces.map CodePiece.piece) =
      code.pieces.mapIdx fun i p => p.resolved (code.pieces.take i) (code.pieces.drop (i + 1)) :=
    resolveMinutes_map [] code.pieces
  have hhalfDay : ∀ short lower, DatePiece.halfDay short lower ∉
      code.pieces.mapIdx fun i p => p.resolved (code.pieces.take i) (code.pieces.drop (i + 1)) := by
    intro short lower hmem
    obtain ⟨i, hi, h⟩ := List.mem_mapIdx.1 hmem
    cases hp : code.pieces[i] <;> rw [hp] at h <;> cases h
  rw [datePieces, String.toList_ofList, chars, splitPieces_flatMap code.apart, hresolved,
    Calendar.showPieces_of_no_halfDay hhalfDay, List.flatMap_def]
  refine congrArg List.flatten (List.ext_getElem (by simp) fun i _ _ => ?_)
  simp only [List.getElem_map, List.getElem_mapIdx, CodePiece.showPiece_resolved]

/-! ## What is shown -/

variable {x : Float} {q : ℚ} {m : Moment}

/-- A serial stands for a moment from the first day in range to the last second of the last one. -/
theorem isSome_ofSerial? (hx : Represents x q) (hq : q ∈ Set.Icc (firstSerial : ℚ) (lastSerial + 86399 / 86400)) :
    (Moment.ofSerial? x).isSome := by
  obtain ⟨n, hn, s, hsplit⟩ := Calendar.exists_day hx (by decide) (by decide) hq
  obtain ⟨d, hd⟩ := Calendar.exists_dateOfWhole? hn
  rw [Moment.ofSerial?, Calendar.serialTime?, Calendar.serialCivil?, hsplit]
  dsimp only [Option.bind_some]
  rw [hd]
  split <;> rfl

/-- An infinity or a NaN has no seconds. -/
theorem splitSerial_of_not_isFinite (h : x.isFinite = false) : Calendar.splitSerial x = none := by
  have hunpack : x.toModel.unpack.isFinite = false := h
  have hmul : x * 86400.0 = .ofModel (.pack (.mul Float.Model.Format.binary64 x.toModel.unpack
      (86400.0 : Float).toModel.unpack)) := rfl
  rw [Calendar.splitSerial, hmul]
  cases hx : x.toModel.unpack with
  | notANumber => rfl
  | infinity s => cases s <;> rfl
  | _ =>
    rw [hx] at hunpack
    cases hunpack

theorem isFinite_of_ofSerial? (h : Moment.ofSerial? x = some m) : x.isFinite := by
  by_contra hx
  simp [Moment.ofSerial?, Calendar.serialTime?, splitSerial_of_not_isFinite (Bool.eq_false_iff.2 hx)] at h

variable {c : Char} {tail : List Char}

/-- A code that starts with a letter of a field is a date code. -/
theorem codeKind_letter (hc : (fieldOfLetter? c).isSome) : codeKind (String.ofList (c :: tail)) = .date := by
  obtain ⟨part, hpart⟩ := Option.isSome_iff_exists.1 hc
  have hgeneral : asciiLowerChar c ≠ asciiLowerChar 'g' := by
    rw [asciiLowerChar_of_fieldOfLetter? hpart]
    cases part <;> decide
  have hnone : (String.ofList (c :: tail)).isEmpty = false := by simp
  have hword : Text.equalIgnoringAsciiCase (String.ofList (c :: tail)) "general" = false := by
    simp [Text.equalIgnoringAsciiCase, hgeneral]
  have htext : (String.ofList (c :: tail) == "@") = false := by
    rw [beq_eq_false_iff_ne]
    intro h
    have hchars := congrArg String.toList h
    rw [String.toList_ofList] at hchars
    exact ne_of_fieldOfLetter? hpart (d := '@') rfl (List.cons.inj hchars).1
  have hbare : isDateCode (bareCode .none (c :: tail)) = true := by
    rw [bareCode, if_neg (ne_of_fieldOfLetter? hpart rfl), if_neg (ne_of_fieldOfLetter? hpart rfl),
      if_neg (ne_of_fieldOfLetter? hpart rfl), isDateCode, List.any_cons, hc]
    rfl
  rw [codeKind, hnone, hword, htext, String.toList_ofList]
  simp only [Bool.or_self, Bool.false_eq_true, if_false, hbare, if_true]

/-- Such a code shows the moment of a serial by the pieces of its section. -/
theorem formatNumber_letter (hc : (fieldOfLetter? c).isSome) (hm : Moment.ofSerial? x = some m) :
    formatNumber x (String.ofList (c :: tail)) =
      String.ofList (m.showPieces (datePieces (Text.trim (String.ofList (firstSection false (c :: tail)))))) := by
  obtain ⟨part, hpart⟩ := Option.isSome_iff_exists.1 hc
  have hblank := isBlank_of_fieldOfLetter? hpart
  have hsection : firstSection false (c :: tail) = c :: firstSection false tail := by
    rw [firstSection, if_neg (ne_of_fieldOfLetter? hpart rfl), if_neg fun h => ne_of_fieldOfLetter? hpart rfl h.1]
  obtain ⟨rest, hrest⟩ : ∃ rest, Text.dropEndWhile Text.isBlank (c :: firstSection false tail) = c :: rest :=
    ⟨_, Text.dropEndWhile_cons hblank _⟩
  have htrim : Text.trim (String.ofList (firstSection false (c :: tail))) = String.ofList (c :: rest) := by
    rw [hsection, Text.trim, String.toList_ofList, Text.trimChars, List.dropWhile_cons_of_neg (by simp [hblank]), hrest]
  have hfinite : (!x.isFinite) = false := by rw [isFinite_of_ofSerial? hm]; rfl
  rw [formatNumber, hfinite, String.toList_ofList, htrim]
  dsimp only
  rw [codeKind_letter hc, formatMoment?, hm]
  rfl

/-! ## Semicolons -/

/-- The text of a piece that shows as it is. -/
def DatePiece.literalText : DatePiece → List Char
  | literal text => text
  | _ => []

/-- The text that shows as it is stands in the code, in this order. -/
theorem sublist_splitPieces (cs : List Char) : ((splitPieces cs).flatMap DatePiece.literalText).Sublist cs := by
  fun_induction splitPieces cs with
  | case1 => exact .slnil
  | case2 c rest _ ih => exact ih.trans ((List.drop_sublist 4 rest).cons c)
  | case3 c rest _ _ ih => exact ih.trans ((List.drop_sublist 2 rest).cons c)
  | case4 rest _ _ ih =>
    have hrest : (rest.takeWhile (· != '"') ++ (rest.dropWhile (· != '"')).drop 1).Sublist rest := by
      conv => rhs; rw [← List.takeWhile_append_dropWhile (p := (· != '"')) (l := rest)]
      exact (List.drop_sublist 1 _).append_left _
    exact ((ih.append_left _).trans hrest).cons '"'
  | case5 d rest _ _ _ ih => exact (ih.cons_cons d).cons '\\'
  | case6 => exact List.nil_sublist _
  | case7 rest _ _ _ _ ih =>
    exact (ih.trans ((List.drop_sublist 1 _).trans (List.dropWhile_sublist _))).cons '['
  | case8 c rest _ _ _ _ _ _ _ ih => exact (ih.trans (List.dropWhile_sublist _)).cons c
  | case9 c rest _ _ _ _ _ _ ih => exact ih.cons_cons c

theorem literalText_resolveMinutes (afterHour : Bool) (pieces : List DatePiece) :
    (resolveMinutes afterHour pieces).flatMap DatePiece.literalText = pieces.flatMap DatePiece.literalText := by
  induction pieces generalizing afterHour with
  | nil => rfl
  | cons p pieces ih =>
    rw [resolveMinutes.eq_def]
    dsimp only
    rw [List.flatMap_cons, List.flatMap_cons, ih]
    refine congrArg (· ++ _) ?_
    split
    · split <;> rfl
    · rfl

/-! ### Texts of fields -/

/-- What the fields of a moment show: letters, digits and a sign. -/
def isFieldText (c : Char) : Bool := Text.isAsciiAlphanumeric c || c == '-'

theorem isFieldText_of_digit {c : Char} (h : Text.isAsciiDigit c) : isFieldText c := by
  simp [isFieldText, Text.isAsciiAlphanumeric, h]

theorem isFieldText_showPart {run n : ℕ} : ∀ c ∈ showPart run n, isFieldText c := by
  intro c hc
  unfold showPart at hc
  split at hc
  · exact isFieldText_of_digit (Decimal.isAsciiDigit_of_mem hc)
  · exact isFieldText_of_digit (Calendar.isAsciiDigit_of_mem_padded hc)

theorem isFieldText_showYear (y : ℤ) : ∀ c ∈ showYear y, isFieldText c := by
  intro c hc
  unfold showYear at hc
  split at hc
  · rcases List.mem_cons.1 hc with rfl | hc
    · rfl
    · exact isFieldText_of_digit (Calendar.isAsciiDigit_of_mem_padded hc)
  · exact isFieldText_of_digit (Calendar.isAsciiDigit_of_mem_padded hc)

/-- Names are words. -/
theorem isFieldText_name {names : List String} (h : names.all fun name => name.toList.all isFieldText) (i : ℕ) :
    ∀ c ∈ (names.getD i "").toList, isFieldText c := by
  intro c hc
  rw [List.getD_eq_getElem?_getD] at hc
  cases hi : names[i]? with
  | none =>
    rw [hi] at hc
    cases hc
  | some name =>
    rw [hi] at hc
    exact List.all_eq_true.1 (List.all_eq_true.1 h name (List.mem_of_getElem? hi)) c hc

theorem isFieldText_showField (m : Moment) (twelveHour : Bool) (part : DateField) (run : ℕ) :
    ∀ c ∈ m.showField twelveHour part run, isFieldText c := by
  have hmonth : ∀ c ∈ (Calendar.monthName m.civil.month).toList, isFieldText c :=
    isFieldText_name (by decide +kernel) _
  have hday : ∀ c ∈ (Calendar.dayName m.weekday).toList, isFieldText c := isFieldText_name (by decide +kernel) _
  intro c hc
  cases part with
  | year =>
    dsimp only [Moment.showField] at hc
    split at hc
    · exact isFieldText_of_digit (Calendar.isAsciiDigit_of_mem_padded hc)
    · exact isFieldText_showYear _ c hc
  | month =>
    dsimp only [Moment.showField] at hc
    split_ifs at hc
    · exact isFieldText_showPart c hc
    · exact hmonth c (List.mem_of_mem_take hc)
    · exact hmonth c hc
    · exact hmonth c (List.mem_of_mem_take hc)
  | day =>
    dsimp only [Moment.showField] at hc
    split_ifs at hc
    · exact isFieldText_showPart c hc
    · exact hday c (List.mem_of_mem_take hc)
    · exact hday c hc
  | _ => exact isFieldText_showPart c hc

theorem isFieldText_showHalfDay (m : Moment) (short lower : Bool) : ∀ c ∈ m.showHalfDay short lower, isFieldText c := by
  unfold Moment.showHalfDay
  split <;> cases short <;> cases lower <;> exact List.all_eq_true.1 rfl

/-- Only text that shows as it is has semicolons. -/
theorem count_showPieces (m : Moment) (pieces : List DatePiece) :
    (m.showPieces pieces).count ';' = (pieces.flatMap DatePiece.literalText).count ';' := by
  have hnone : ∀ {cs : List Char}, (∀ c ∈ cs, isFieldText c) → cs.count ';' = 0 := fun h =>
    List.count_eq_zero.2 fun hc => absurd (h _ hc) (by decide)
  unfold Moment.showPieces
  dsimp only
  rw [List.count_flatMap, List.count_flatMap]
  congr 2
  funext p
  cases p with
  | field part run => exact hnone (isFieldText_showField m _ part run)
  | halfDay short lower => exact hnone (isFieldText_showHalfDay m short lower)
  | literal text => rfl

/-- A code shows no more semicolons than it has. -/
theorem count_showPieces_datePieces_le (m : Moment) (code : String) :
    (m.showPieces (datePieces code)).count ';' ≤ code.toList.count ';' := by
  rw [count_showPieces, datePieces, literalText_resolveMinutes]
  exact (sublist_splitPieces code.toList).count_le ';'

/-- The pieces of a written code show all its semicolons. -/
theorem WrittenCode.count_shown (code : WrittenCode) (m : Moment) :
    (code.shown m).count ';' = code.chars.count ';' := by
  rw [← code.showPieces_datePieces, count_showPieces, datePieces, literalText_resolveMinutes, String.toList_ofList,
    chars, splitPieces_flatMap code.apart, List.count_flatMap, List.count_flatMap, List.map_map]
  congr 2
  funext p
  cases p with
  | run part letters hne hfields =>
    refine (List.count_eq_zero.2 fun hc => ?_).symm
    exact absurd (isAsciiLetter_of_fieldOfLetter? (hfields _ hc)) (by decide)
  | quoted text => simp [CodePiece.chars, CodePiece.piece, DatePiece.literalText]
  | escaped c => simp [CodePiece.chars, CodePiece.piece, DatePiece.literalText, List.count_cons]
  | separator c => rfl

theorem sublist_trim (s : String) : (Text.trim s).toList.Sublist s.toList := by
  have hend : ∀ cs : List Char, (Text.dropEndWhile isBlank cs).Sublist cs := fun cs => by
    have hreversed := (List.dropWhile_sublist isBlank (l := cs.reverse)).reverse
    rwa [List.reverse_reverse] at hreversed
  rw [Text.trim, String.toList_ofList, Text.trimChars]
  exact (hend _).trans (List.dropWhile_sublist _)

/-! ## Sections of written codes -/

/-- A serial in range stands for a moment. A written code shows its pieces one after the other, each as its field or its
text is shown on its own, just if an odd number of quotes stands before each semicolon of it. -/
theorem formatNumber_written_iff (code : WrittenCode) (hx : Represents x q) :
    (q ∈ Set.Icc (firstSerial : ℚ) (lastSerial + 86399 / 86400) → (Moment.ofSerial? x).isSome) ∧
      ∀ m, Moment.ofSerial? x = some m →
        (formatNumber x (String.ofList code.chars) = String.ofList (code.shown m) ↔
          ∀ before after, code.chars = before ++ ';' :: after → before.count '"' % 2 = 1) := by
  refine ⟨isSome_ofSerial? hx, fun m hm => ?_⟩
  have hnumber : formatNumber x (String.ofList code.chars) =
      String.ofList (m.showPieces (datePieces (Text.trim (String.ofList (firstSection false code.chars))))) := by
    obtain ⟨c, tail, hchars, hc⟩ := code.exists_chars
    rw [hchars, formatNumber_letter hc hm]
  rw [hnumber, ← firstSection_eq_self_iff, String.ofList_inj]
  constructor
  · intro h
    refine (firstSection_eq false code.chars).resolve_right fun ⟨rest, hrest⟩ => ?_
    -- the semicolon that ends the section is not shown
    have hcode := code.count_shown m
    have hshown := count_showPieces_datePieces_le m (Text.trim (String.ofList (firstSection false code.chars)))
    have htrim := (sublist_trim (String.ofList (firstSection false code.chars))).count_le ';'
    have hchars := congrArg (List.count ';') hrest
    rw [h] at hshown
    rw [String.toList_ofList] at htrim
    rw [List.count_append, List.count_cons_self] at hchars
    omega
  · intro h
    rw [h, code.trim_chars, code.showPieces_datePieces]

/-- A weekday with text in quotes, hour and minutes with an escaped letter between them, month and year. -/
def weekdayTime : WrittenCode where
  pieces := [.run .day ['d', 'd', 'd', 'd'] nofun (by simp; rfl), .quoted [';', ' ', 'h', ':'] (by simp),
    .run .hour ['h'] nofun (by simp; rfl), .escaped 'm', .run .month ['m', 'm'] nofun (by simp; rfl),
    .separator '/' (by simp), .run .month ['M'] nofun (by simp; rfl), .separator ' ' (by simp),
    .run .year ['y', 'y'] nofun (by simp; rfl)]
  apart := by decide
  starts := ⟨_, rfl, rfl⟩
  ends := ⟨_, rfl, rfl⟩

theorem formatNumber_written_weekdayTime : Represents 45306.546875 (2899619 / 64) ∧
    (2899619 / 64 : ℚ) ∈ Set.Icc (firstSerial : ℚ) (lastSerial + 86399 / 86400) ∧
    ∃ m, Moment.ofSerial? 45306.546875 = some m ∧
      formatNumber 45306.546875 "dddd\"; h:\"h\\mmm/M yy" = String.ofList (weekdayTime.shown m) ∧
      String.ofList (weekdayTime.shown m) = "Monday; h:13m07/1 24" := by
  have hx : Represents 45306.546875 (2899619 / 64) :=
    ⟨⟨false, 2899619 * 2 ^ 31, -37⟩, rfl, by norm_num [Binary64.Binary.value]⟩
  have hlimits : firstSerial ≤ 45306 ∧ 45307 ≤ lastSerial := by decide
  have hfirst : (firstSerial : ℚ) ≤ 45306 := by exact_mod_cast hlimits.1
  have hlast : (45307 : ℚ) ≤ lastSerial := by exact_mod_cast hlimits.2
  have hrange : (2899619 / 64 : ℚ) ∈ Set.Icc (firstSerial : ℚ) (lastSerial + 86399 / 86400) := by
    constructor <;> linarith
  obtain ⟨hsome, hshown⟩ := formatNumber_written_iff weekdayTime hx
  obtain ⟨m, hm⟩ := Option.isSome_iff_exists.1 (hsome hrange)
  have htext : (Moment.ofSerial? 45306.546875).map (fun m => String.ofList (weekdayTime.shown m)) =
      some "Monday; h:13m07/1 24" := by decide +kernel
  rw [hm] at htext
  exact ⟨hx, hrange, m, hm, (hshown m hm).2 (firstSection_eq_self_iff.1 rfl), Option.some.inj htext⟩

/-- A year and a month with an escaped semicolon between them. -/
def yearMonth : WrittenCode where
  pieces := [.run .year ['y', 'y', 'y', 'y'] nofun (by simp; rfl), .escaped ';',
    .run .month ['m', 'm'] nofun (by simp; rfl)]
  apart := by decide
  starts := ⟨_, rfl, rfl⟩
  ends := ⟨_, rfl, rfl⟩

/-- The semicolon that is to be shown ends the section. -/
theorem formatNumber_escapedSemicolon : String.ofList yearMonth.chars = "yyyy\\;mm" ∧
    (∃ m, Moment.ofSerial? 45306.0 = some m ∧ String.ofList (yearMonth.shown m) = "2024;01") ∧
    formatNumber 45306.0 (String.ofList yearMonth.chars) = "2024" := by
  have hshown : (Moment.ofSerial? 45306.0).map (fun m => String.ofList (yearMonth.shown m)) = some "2024;01" := by
    decide +kernel
  obtain ⟨m, hm, hshown⟩ := Option.map_eq_some_iff.1 hshown
  exact ⟨rfl, ⟨m, hm, hshown⟩, by decide +kernel⟩

end Spreadsheet.Format
