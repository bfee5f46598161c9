import Spreadsheet.SheetJson
import Spreadsheet.Proofs.FloatValues
import Spreadsheet.Proofs.JsonText

/-!
# Workbooks survive their text

A workbook whose numbers are finite is read back from its text as it was. Of the library that writes and reads the text
only this is asked: values are read as they were written, and for the numbers of the workbook their numerals have their
values.

* `JsonLibrary.Documented` : what is asked of a library for all values; `JsonLibrary.documented_plain` : the library in
  use is of this kind;
* `JsonNumeral.ReadsBack` : a number is read as it is printed;
* `Content.Sound` : the number of a cell, if it holds one, is finite and reads back;
* `Cell.ofJson?_toJson` : bare cells and cells with a format are told apart;
* `Workbook.ofJson?_toJson`, `Workbook.wellFormed_toJson` : the value of a workbook, and that it is written and read;
* `Workbook.EveryNumber` : every number in the cells of a workbook;
* `Workbook.read?_write_of_documented`, `Workbook.read?_write` : the text of a workbook, with any such library.
-/

namespace Spreadsheet

open Binary64 (Number exact)

/-! ## Libraries -/

/-- What the documentation of such libraries says of well-formed values: they are read as they were written, whatever
their texts hold. And the numerals of floats are well-formed. -/
structure JsonLibrary.Documented [JsonLibrary] : Prop where
  wellFormed_numeral (b : Binary64.Binary) : (JsonLibrary.numeral b).WellFormed
  parse?_render {v : Json} (h : v.WellFormed) : JsonLibrary.parse? (JsonLibrary.render v) = some v

theorem JsonLibrary.documented_plain : @JsonLibrary.Documented .plain where
  wellFormed_numeral := JsonNumeral.wellFormed_ofFinite
  parse?_render := Json.parse?_render

namespace JsonNumeral

/-- The numeral of a finite float has the value of that float. -/
def ReadsBack [JsonLibrary] (x : Float) : Prop :=
  ∀ b, exact x = .finite b → JsonLibrary.float? (JsonLibrary.numeral b) = some x

instance [JsonLibrary] (x : Float) : Decidable (ReadsBack x) :=
  match h : exact x with
  | .finite b => decidable_of_iff (JsonLibrary.float? (JsonLibrary.numeral b) = some x)
    ⟨fun hx b' hb' => by cases h.symm.trans hb'; exact hx, fun hx => hx b h⟩
  | .infinite _ => .isTrue fun b hb => nomatch h.symm.trans hb
  | .nan => .isTrue fun b hb => nomatch h.symm.trans hb

end JsonNumeral

section Documented

variable [JsonLibrary]

/-! ## Contents -/

namespace Content

/-- The number, if there is one, is finite and reads back. -/
def Sound (c : Content) : Prop := ∀ x, c = .number x → x.float.isFinite ∧ JsonNumeral.ReadsBack x.float

/-- A sound content is no number, or one whose numeral has its value. -/
theorem Sound.toJson_number {x : Number} (h : (number x).Sound) :
    ∃ b, (number x).toJson = .number (JsonLibrary.numeral b) ∧
      (JsonLibrary.float? (JsonLibrary.numeral b)).map .ofFloat = some x := by
  obtain ⟨hfinite, hreads⟩ := h x rfl
  cases x with
  | negativeNaN => exact absurd hfinite (by decide)
  | ofFloat f =>
    obtain ⟨_, b, hb, -⟩ := Binary64.exists_represents hfinite
    refine ⟨b, ?_, ?_⟩
    · simp only [toJson, Json.ofFloat, hb]
    · rw [hreads b hb]
      rfl

variable {c : Content}

theorem ofJson?_toJson (hc : c.Sound) : ofJson? c.toJson = some c := by
  cases c with
  | number x =>
    obtain ⟨b, hb, hvalue⟩ := hc.toJson_number
    obtain ⟨f, hf, rfl⟩ := Option.map_eq_some_iff.1 hvalue
    rw [hb, ofJson?, hf]
    rfl
  | _ => rfl

theorem isReadable_toJson (hc : c.Sound) (levels : Nat) : c.toJson.isReadable levels := by
  cases c with
  | number x =>
    obtain ⟨b, hb, hvalue⟩ := hc.toJson_number
    obtain ⟨f, hf, -⟩ := Option.map_eq_some_iff.1 hvalue
    rw [hb, Json.isReadable, hf]
    rfl
  | _ => rfl

theorem wellFormed_toJson (hlib : JsonLibrary.Documented) (hc : c.Sound) : c.toJson.WellFormed := by
  cases c with
  | number x =>
    obtain ⟨b, hb, -⟩ := hc.toJson_number
    rw [hb]
    exact hlib.wellFormed_numeral b
  | _ => trivial

end Content

/-! ## Cells -/

namespace Cell

variable {c : Cell}

/-- A cell is read as it was written, bare or as an object, unless it stands too deep. -/
theorem ofJson?_toJson {depth : Nat} (hdepth : depth < maxNesting) (hc : c.content.Sound) :
    ofJson? depth c.toJson = some c := by
  obtain ⟨content, format⟩ := c
  cases format with
  | none =>
    have hread := Content.ofJson?_toJson hc
    rw [toJson]
    dsimp only
    unfold ofJson?
    split
    · rename_i heq
      rw [heq] at hread
      cases hread
    · rw [hread]
      rfl
  | some f =>
    have hreadable : (Json.object [("v", content.toJson), ("f", .text f)]).isReadable (maxNesting - depth) := by
      simp [Json.isReadable, Json.membersReadable, hdepth, Content.isReadable_toJson hc]
    have hcontent : Json.member ["v", "value"] [("v", content.toJson), ("f", .text f)] = .found content.toJson := rfl
    have hformat : Json.member ["f", "format"] [("v", content.toJson), ("f", .text f)] = .found (.text f) := rfl
    rw [toJson]
    dsimp only
    rw [ofJson?, if_pos hreadable, hcontent, hformat, Json.fieldOr, Content.ofJson?_toJson hc]
    rfl

theorem wellFormed_toJson (hlib : JsonLibrary.Documented) (hc : c.content.Sound) : c.toJson.WellFormed := by
  obtain ⟨content, format⟩ := c
  cases format with
  | none => exact Content.wellFormed_toJson hlib hc
  | some f => exact ⟨Content.wellFormed_toJson hlib hc, trivial, trivial⟩

end Cell

/-! ## Sheets -/

omit [JsonLibrary] in
/-- Reading undoes writing, one item after the other. -/
theorem mapM_map_eq_self {α β : Type} {read : β → Option α} {write : α → β} {xs : List α}
    (h : ∀ x ∈ xs, read (write x) = some x) : (xs.map write).mapM read = some xs := by
  induction xs with
  | nil => rfl
  | cons x xs ih =>
    rw [List.map_cons, List.mapM_cons, h x List.mem_cons_self, ih fun y hy => h y (List.mem_cons_of_mem x hy)]
    rfl

/-- Every cell of a sheet holds a sound content. -/
def Sheet.Sound (s : Sheet) : Prop := ∀ row ∈ s.rows, ∀ c ∈ row, c.content.Sound

theorem rowOfJson?_toJson {depth : Nat} (hdepth : depth + 1 < Cell.maxNesting) {row : Array Cell}
    (hrow : ∀ c ∈ row, c.content.Sound) : rowOfJson? depth (.array (row.toList.map Cell.toJson)) = some row := by
  have hcells := mapM_map_eq_self fun c hc => Cell.ofJson?_toJson hdepth (hrow c (Array.mem_toList_iff.1 hc))
  simp [rowOfJson?, Json.items?, hcells]

namespace Sheet

variable {s : Sheet}

theorem ofJson?_toJson {depth : Nat} (hdepth : depth + 3 < Cell.maxNesting) (hs : s.Sound) :
    ofJson? depth s.toJson = some s := by
  have hrows : (s.rows.toList.map fun row => Json.array (row.toList.map Cell.toJson)).mapM (rowOfJson? (depth + 2))
      = some s.rows.toList :=
    mapM_map_eq_self fun row hrow => rowOfJson?_toJson (by omega) (hs row (Array.mem_toList_iff.1 hrow))
  have hfields : s.toJson.fields? [["name"], ["data", "rows"]] = some [.found (.text s.name),
      .found (.array (s.rows.toList.map fun row => .array (row.toList.map Cell.toJson)))] := rfl
  simp [ofJson?, hfields, Json.field, Json.text?, Json.fieldOr, rowsOfJson?, Json.items?, hrows]

theorem wellFormed_toJson (hlib : JsonLibrary.Documented) (hs : s.Sound) : s.toJson.WellFormed := by
  refine ⟨trivial, Json.itemsWellFormed_iff.2 ?_, trivial⟩
  simp only [List.forall_mem_map, Array.mem_toList_iff]
  intro row hrow
  refine Json.itemsWellFormed_iff.2 ?_
  simp only [List.forall_mem_map, Array.mem_toList_iff]
  exact fun c hc => Cell.wellFormed_toJson hlib (hs row hrow c hc)

end Sheet

/-! ## Workbooks -/

namespace Workbook

variable {w : Workbook}

theorem ofJson?_toJson (hw : ∀ s ∈ w.sheets, s.Sound) : ofJson? w.toJson = some w := by
  have hsheets : (w.sheets.map Sheet.toJson).mapM (Sheet.ofJson? 2) = some w.sheets :=
    mapM_map_eq_self fun s hs => Sheet.ofJson?_toJson (by decide) (hw s hs)
  have hfields : w.toJson.fields? [["title"], ["sheets"]]
      = some [.found (.text w.title), .found (.array (w.sheets.map Sheet.toJson))] := rfl
  simp [ofJson?, hfields, Json.field, Json.text?, Json.fieldOr, Json.items?, hsheets]

theorem wellFormed_toJson (hlib : JsonLibrary.Documented) (hw : ∀ s ∈ w.sheets, s.Sound) : w.toJson.WellFormed :=
  ⟨trivial, Json.itemsWellFormed_iff.2 (List.forall_mem_map.2 fun s hs => Sheet.wellFormed_toJson hlib (hw s hs)),
    trivial⟩

/-- What holds of every number in the cells. -/
def EveryNumber (p : Float → Prop) (w : Workbook) : Prop :=
  ∀ s ∈ w.sheets, ∀ row ∈ s.rows, ∀ c ∈ row, ∀ x, c.content = .number x → p x.float

theorem read?_write_of_documented (hlib : JsonLibrary.Documented) (hfinite : w.EveryNumber fun x => x.isFinite)
    (hreads : w.EveryNumber JsonNumeral.ReadsBack) : read? w.write = some w := by
  have hw : ∀ s ∈ w.sheets, s.Sound := fun s hs row hrow c hc x hx =>
    ⟨hfinite s hs row hrow c hc x hx, hreads s hs row hrow c hc x hx⟩
  rw [read?, write, hlib.parse?_render (wellFormed_toJson hlib hw)]
  exact ofJson?_toJson hw

end Workbook

end Documented

namespace Workbook

/-- A workbook is read as it was written: titles and names, rows of any lengths, and cells of every kind, with a format
or without. -/
theorem read?_write {w : Workbook} (hfinite : w.EveryNumber fun x => x.isFinite)
    (hreads : w.EveryNumber JsonNumeral.ReadsBack) : read? w.write = some w :=
  read?_write_of_documented JsonLibrary.documented_plain hfinite hreads

/-- A sheet with rows of two lengths and an empty one: an empty cell with and without a format, a text that has to be
escaped, and numbers of both layouts. -/
def mixed : Workbook where
  title := "a \"b\"\n"
  sheets := [
    { name := "one", rows := #[
      #[{}, { format := some "0.00" }, { content := .text "\x01=\\é" }],
      #[{ content := .number (1.5 : Float), format := some "0%" }, { content := .number (-1e20 : Float) },
        { content := .boolean true }, { content := .number (-0.0 : Float) }],
      #[]] },
    { name := "two" }]

theorem read?_write_mixed : mixed.EveryNumber (fun x => x.isFinite) ∧ mixed.EveryNumber JsonNumeral.ReadsBack ∧
    read? mixed.write = some mixed := by
  have hall : ∀ p : Float → Prop, p 1.5 → p (-1e20) → p (-0.0) → mixed.EveryNumber p := fun p h h' h'' => by
    simp [mixed, EveryNumber, h, h', h'']
  have hfinite : mixed.EveryNumber fun x => x.isFinite := hall _ (by decide) (by decide) (by decide)
  have hreads : mixed.EveryNumber JsonNumeral.ReadsBack :=
    hall _ (by decide +kernel) (by decide +kernel) (by decide +kernel)
  exact ⟨hfinite, hreads, read?_write hfinite hreads⟩

end Workbook

end Spreadsheet
