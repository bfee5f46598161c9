import Spreadsheet.Proofs.Coordinates
import Spreadsheet.Proofs.Globs
import Spreadsheet.Proofs.Reached

/-!
# Sheets by name

A workbook finds a sheet by its name in any case of the plain letters, and a formula finds it by the lower-case forms of
the names. Names that differ in the case of plain letters only have one lower-case form, so where a workbook finds a
sheet, a formula finds one as well, which may come earlier.

* `Text.equalIgnoringCase_of_ascii` : names that differ in the case of plain letters only;
* `Workbook.sheetPlace?` : the place of the sheet that a workbook finds;
* `Setting.foreignValue_sheetFor?` : a formula reads from the sheet that its reference leads to;
* `Workbook.sheetPlace?_eq_iff` : when both are the same sheet.
-/

namespace Spreadsheet

open Calculation

/-! ## The case of plain letters -/

namespace Text

variable {c d : Char} {cs ds : List Char}

theorem asciiLowerChar_of_not_isAsciiLetter (h : isAsciiLetter c = false) : asciiLowerChar c = c :=
  if_neg (Bool.eq_false_iff.1 (Bool.or_eq_false_iff.1 h).2)

theorem eq_or_isAsciiLetter (h : asciiLowerChar c = asciiLowerChar d) : c = d ∨ isAsciiLetter c ∧ isAsciiLetter d := by
  cases hc : isAsciiLetter c with
  | true => exact .inr ⟨rfl, isAsciiLetter_of_lower (h ▸ isAsciiLetter_lower hc)⟩
  | false =>
    rw [asciiLowerChar_of_not_isAsciiLetter hc] at h
    have hd : isAsciiLetter d = false := Bool.eq_false_iff.2 fun hd => by
      rw [h, isAsciiLetter_lower hd] at hc
      cases hc
    exact .inl (h.trans (asciiLowerChar_of_not_isAsciiLetter hd))

theorem isAsciiLetter_alike (h : isAsciiLetter c) :
    lowerChar c = [asciiLowerChar c] ∧ isCased c = true ∧ isCaseIgnorable c = false ∧ (c == 'Σ') = false := by
  have hsmall := toNat_lt_of_ascii (.inl h)
  have hall : ∀ n < 0x80, isAsciiLetter (Char.ofNat n) → isCaseIgnorable (Char.ofNat n) = false := by decide
  refine ⟨if_pos hsmall, (if_pos hsmall).trans h, ?_, ?_⟩
  · rw [← Char.ofNat_toNat c] at h ⊢
    exact hall _ hsmall h
  · rw [beq_eq_false_iff_ne]
    rintro rfl
    exact absurd hsmall (by decide)

/-- Two characters that differ in case only, if they differ at all. -/
def SameLetter (c d : Char) : Prop := asciiLowerChar c = asciiLowerChar d

theorem SameLetter.alike (h : SameLetter c d) : lowerChar c = lowerChar d ∧ isCased c = isCased d ∧
    isCaseIgnorable c = isCaseIgnorable d ∧ (c == 'Σ') = (d == 'Σ') := by
  rcases eq_or_isAsciiLetter h with rfl | ⟨hc, hd⟩
  · exact ⟨rfl, rfl, rfl, rfl⟩
  · obtain ⟨hlower, hcased, hignorable, hsigma⟩ := isAsciiLetter_alike hc
    obtain ⟨hlower', hcased', hignorable', hsigma'⟩ := isAsciiLetter_alike hd
    exact ⟨by rw [hlower, hlower', h], by rw [hcased, hcased'], by rw [hignorable, hignorable'],
      by rw [hsigma, hsigma']⟩

theorem startsCased_congr (h : List.Forall₂ SameLetter cs ds) : startsCased cs = startsCased ds := by
  induction h with
  | nil => rfl
  | @cons c d cs ds hcd _ ih =>
    obtain ⟨-, hcased, hignorable, -⟩ := hcd.alike
    unfold startsCased at ih ⊢
    cases hd : isCaseIgnorable d with
    | true =>
      rw [List.dropWhile_cons_of_pos (hignorable.trans hd), List.dropWhile_cons_of_pos hd]
      exact ih
    | false =>
      rw [List.dropWhile_cons_of_neg (by rw [hignorable, hd]; exact Bool.false_ne_true),
        List.dropWhile_cons_of_neg (by rw [hd]; exact Bool.false_ne_true)]
      exact hcased

/-- The lower-case form of a text with a capital sigma depends on what stands around it, but not on its case. -/
theorem lowerChars_congr {before before' : List Char} (hbefore : List.Forall₂ SameLetter before before')
    (h : List.Forall₂ SameLetter cs ds) : lowerChars before cs = lowerChars before' ds := by
  induction h generalizing before before' with
  | nil => rfl
  | @cons c d cs ds hcd htail ih =>
    obtain ⟨hlower, -, -, hsigma⟩ := hcd.alike
    rw [lowerChars, lowerChars, ih (.cons hcd hbefore), startsCased_congr hbefore, startsCased_congr htail, hlower,
      hsigma]

theorem forall₂_sameLetter_iff : List.Forall₂ SameLetter cs ds ↔ cs.map asciiLowerChar = ds.map asciiLowerChar := by
  rw [← List.forall₂_eq_eq_eq, List.forall₂_map_left_iff, List.forall₂_map_right_iff]
  rfl

theorem equalIgnoringCase_of_ascii {s t : String} (h : equalIgnoringAsciiCase s t) : equalIgnoringCase s t := by
  rw [equalIgnoringAsciiCase, beq_iff_eq, ← forall₂_sameLetter_iff] at h
  rw [equalIgnoringCase, beq_iff_eq, lower, lower, lowerChars_congr .nil h]

end Text

/-! ## Places -/

/-- A search for more finds the same where its first find is one of both. -/
theorem findIdx?_eq_findIdx?_iff {α : Type} {p q : α → Bool} (hpq : ∀ x, p x → q x) (l : List α) :
    l.findIdx? p = l.findIdx? q ↔ ∀ x, l.find? q = some x → p x := by
  induction l with
  | nil => simp
  | cons x l ih =>
    rw [List.findIdx?_cons, List.findIdx?_cons, List.find?_cons]
    cases hp : p x with
    | true =>
      rw [hpq x hp]
      simp [hp]
    | false =>
      cases hq : q x with
      | true => simp [hp]
      | false =>
        simp only [Bool.false_eq_true, if_false]
        exact (Option.map_injective Nat.succ_injective).eq_iff.trans ih

/-- The place of the first sheet of a name, in any case of its plain letters. -/
def Workbook.sheetPlace? (w : Workbook) (name : String) : Option Nat :=
  w.sheets.findIdx? fun s => Text.equalIgnoringAsciiCase s.name name

theorem Workbook.sheet?_eq (w : Workbook) (name : String) : w.sheet? name = (w.sheetPlace? name).bind (w.sheets[·]?) :=
  List.find?_eq_bind_findIdx?_getElem?

section Formulas

variable {env : Environment} {sheets : List Sheet} {name : String} {own : Nat}
  (hcross : env.surroundings.options.crossSheetReferences = true)
include hcross

/-- A reference on a sheet of another name leads to the first sheet with the lower-case form of the name. -/
theorem Environment.sheetFor?_setting (hown : sameSheet name ((env.setting sheets).sheet own).name = false) :
    (env.setting sheets).sheetFor? own (some name) = sheets.findIdx? fun s => sameSheet s.name name := by
  have hoptions : (env.setting sheets).options.crossSheetReferences = true := hcross
  have hother : ¬(env.setting sheets).isOwn own (some name) := Bool.eq_false_iff.1 hown
  rw [Setting.sheetFor?, if_neg hother, if_pos hoptions, Option.bind_some, env.sheetIndex?_setting]

theorem Environment.foreignValue_setting (hown : sameSheet name ((env.setting sheets).sheet own).name = false)
    (levels : Nat) (reader : Position) (row column : Nat) :
    foreignValue (env.setting sheets) (levels + 1) reader name row column =
      match (env.setting sheets).sheetFor? own (some name) with
      | none => return .error (.invalidReference (.sheetUnknown name))
      | some i =>
        .ok <$> sheetValue (env.setting sheets) (foreignValue (env.setting sheets) levels) reader i row column := by
  have hoptions : (env.setting sheets).options.crossSheetReferences = true := hcross
  have hoff : ¬(!(env.setting sheets).options.crossSheetReferences) = true := by simp [hoptions]
  rw [env.sheetFor?_setting hcross hown, foreignValue, foreignSheet, if_neg hoff, env.sheetIndex?_setting]
  cases sheets.findIdx? fun s => sameSheet s.name name <;> rfl

end Formulas

theorem sameSheet_of_ascii {a b : String} (h : Text.equalIgnoringAsciiCase a b) : sameSheet a b :=
  sameSheet_iff.2 (beq_iff_eq.1 (Text.equalIgnoringCase_of_ascii h))

/-- What a workbook finds under a name and what formulas on sheets of other names read under it is one sheet, or none,
just if the first sheet with the lower-case form of the name differs from the name in the case of plain letters only. So
it is if all names are ASCII. -/
theorem Workbook.sheetPlace?_eq_iff (env : Environment) (w : Workbook) (name : String) (own : Nat)
    (hcross : env.surroundings.options.crossSheetReferences = true)
    (hown : sameSheet name ((env.setting w.sheets).sheet own).name = false) :
    w.sheet? name = (w.sheetPlace? name).bind (w.sheets[·]?) ∧
    (∀ levels reader row column,
      foreignValue (env.setting w.sheets) (levels + 1) reader name row column =
        match (env.setting w.sheets).sheetFor? own (some name) with
        | none => return .error (.invalidReference (.sheetUnknown name))
        | some i =>
          .ok <$> sheetValue (env.setting w.sheets) (foreignValue (env.setting w.sheets) levels) reader i row column) ∧
    (w.sheetPlace? name = (env.setting w.sheets).sheetFor? own (some name) ↔
      ∀ s, w.sheets.find? (fun s => sameSheet s.name name) = some s → Text.equalIgnoringAsciiCase s.name name) ∧
    (Text.Ascii name.toList → (∀ s ∈ w.sheets, Text.Ascii s.name.toList) →
      w.sheetPlace? name = (env.setting w.sheets).sheetFor? own (some name)) := by
  have hplaces : w.sheetPlace? name = (env.setting w.sheets).sheetFor? own (some name) ↔
      ∀ s, w.sheets.find? (fun s => sameSheet s.name name) = some s → Text.equalIgnoringAsciiCase s.name name := by
    rw [env.sheetFor?_setting hcross hown, sheetPlace?]
    exact findIdx?_eq_findIdx?_iff (fun s => sameSheet_of_ascii) w.sheets
  refine ⟨w.sheet?_eq name, env.foreignValue_setting hcross hown, hplaces, fun hname hsheets =>
    hplaces.2 fun s hs => ?_⟩
  have hsame : sameSheet s.name name := List.find?_some (p := fun s : Sheet => sameSheet s.name name) hs
  have hlower := sameSheet_iff.1 hsame
  rw [Text.lower_eq_iff (hsheets s (List.mem_of_find?_eq_some hs)) hname] at hlower
  exact beq_iff_eq.2 hlower

/-- Two sheets whose names differ in the case of letters with accents, and one beside them. -/
def namesakes : Workbook where
  sheets := [⟨"Total", #[]⟩, ⟨"ÉTÉ", #[]⟩, ⟨"été", #[]⟩]

/-- Under the name of the first one both find it; under the name of the second one the workbook finds that one, and a
formula still the first. -/
theorem sheetPlace?_eq_iff_namesakes :
    sameSheet "ÉTÉ" ((Environment.plain.setting namesakes.sheets).sheet 0).name = false ∧
    namesakes.sheetPlace? "ÉTÉ" = (Environment.plain.setting namesakes.sheets).sheetFor? 0 (some "ÉTÉ") ∧
    sameSheet "été" ((Environment.plain.setting namesakes.sheets).sheet 0).name = false ∧
    namesakes.sheetPlace? "été" ≠ (Environment.plain.setting namesakes.sheets).sheetFor? 0 (some "été") := by
  have hcapitals : sameSheet "ÉTÉ" ((Environment.plain.setting namesakes.sheets).sheet 0).name = false := by
    decide +kernel
  have hsmall : sameSheet "été" ((Environment.plain.setting namesakes.sheets).sheet 0).name = false := by
    decide +kernel
  have hfirst : (namesakes.sheets.find? fun s => sameSheet s.name "ÉTÉ").map Sheet.name = some "ÉTÉ" := by
    decide +kernel
  obtain ⟨-, -, hplaces, -⟩ := Workbook.sheetPlace?_eq_iff .plain namesakes "ÉTÉ" 0 rfl hcapitals
  obtain ⟨-, -, hplaces', -⟩ := Workbook.sheetPlace?_eq_iff .plain namesakes "été" 0 rfl hsmall
  refine ⟨hcapitals, hplaces.2 fun s hs => ?_, hsmall, fun h => ?_⟩
  · rw [hs] at hfirst
    rw [Option.some.inj hfirst]
    exact beq_self_eq_true _
  · exact absurd (hplaces'.1 h ⟨"ÉTÉ", #[]⟩ rfl) (by decide +kernel)

/-- A formula that names a sheet with its letters small. -/
def accentedNames : Workbook where
  sheets :=
    [⟨"Total", #[#[{ content := .text "=été!A1" }]]⟩, ⟨"ÉTÉ", #[#[{ content := .number (5.0 : Float) }]]⟩]

/-- The workbook has no sheet of that name, but the formula shows what stands on the sheet. -/
theorem sheetPlace?_accentedNames :
    sameSheet "été" ((Environment.plain.setting accentedNames.sheets).sheet 0).name = false ∧
    (accentedNames.sheet? "été").isNone ∧
    (Environment.plain.setting accentedNames.sheets).sheetFor? 0 (some "été") = some 1 ∧
    (calculateWorkbook .plain accentedNames.sheets).map CalculatedSheet.texts = [[["5"]], [["5"]]] := by
  decide +kernel

end Spreadsheet
