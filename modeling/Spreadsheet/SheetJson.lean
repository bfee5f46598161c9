import Spreadsheet.Json.Read
import Spreadsheet.Json.Write
import Spreadsheet.Options
import Spreadsheet.Sheet

/-!
# Sheets and options as JSON

A cell is a bare number, text, truth value or `null`, or an object with its content `v` and its format
`f`. Sheets, workbooks and options are objects too, or arrays of their fields in order. Keys that mean
nothing are passed over, repeated ones refused. Within a cell also what is passed over has to be
readable, and may nest only so deep, counted from the outside of the text.

* `JsonLibrary.plain` : the library in use;
* `Cell.ofJson?`, `Sheet.ofJson?`, `Workbook.ofJson?`, `Options.ofJson?` : from JSON;
* `Cell.toJson`, `Sheet.toJson`, `Workbook.toJson`, `Options.toJson` : to JSON.
-/

namespace Spreadsheet

/-- The library that writes and reads character by character. -/
instance JsonLibrary.plain : JsonLibrary := ⟨.ofFinite, JsonNumeral.float?, Json.render, Json.parse?⟩

/-! ## Fields -/

namespace Json

/-- A field that may be left out. -/
def fieldOr {α : Type} (default : α) (read : Json → Option α) : Member → Option α
  | .absent => some default
  | .found v => read v
  | .repeated => none

/-- A field that has to be there. -/
def field {α : Type} (read : Json → Option α) : Member → Option α
  | .found v => read v
  | _ => none

/-- A field by its place in an array. -/
def place (items : List Json) (i : Nat) : Member :=
  match items[i]? with
  | some v => .found v
  | none => .absent

/-- The fields of an array of at most so many, or of an object by their keys. -/
def fields? (keys : List (List String)) : Json → Option (List Member)
  | array items =>
    if keys.length < items.length then none
    else some ((List.range keys.length).map (place items))
  | object members => some (keys.map fun names => member names members)
  | _ => none

def text? : Json → Option String
  | text s => some s
  | _ => none

def boolean? : Json → Option Bool
  | boolean b => some b
  | _ => none

/-- A natural number below `2 ^ 32`. -/
def nat32? : Json → Option Nat
  | number n => match n.nat? with
    | some k => if k < 2 ^ 32 then some k else none
    | none => none
  | _ => none

def items? : Json → Option (List Json)
  | array items => some items
  | _ => none

end Json

/-! ## From JSON -/

def Content.ofJson? [JsonLibrary] : Json → Option Content
  | .null => some .empty
  | .boolean b => some (.boolean b)
  | .number n => (JsonLibrary.float? n).map fun x => .number x
  | .text s => some (.text s)
  | _ => none

/-- A format code, which may be `null`. -/
def formatOfJson? : Json → Option (Option String)
  | .null => some none
  | .text s => some (some s)
  | _ => none

/-- How deep arrays and objects may nest in a cell, counted from the outside of the text. -/
def Cell.maxNesting : Nat := 127

/-- A cell within `depth` arrays and objects. All of it has to be readable, also where its keys mean
nothing. -/
def Cell.ofJson? [JsonLibrary] (depth : Nat) (v : Json) : Option Cell :=
  match v with
  | .object members =>
    if v.isReadable (Cell.maxNesting - depth) then do
      let content ← Json.fieldOr .empty Content.ofJson? (Json.member ["v", "value"] members)
      let format ← Json.fieldOr none formatOfJson? (Json.member ["f", "format"] members)
      return { content, format }
    else none
  | v => (Content.ofJson? v).map fun content => { content }

def rowOfJson? [JsonLibrary] (depth : Nat) (v : Json) : Option (Array Cell) := do
  return (← (← v.items?).mapM (Cell.ofJson? (depth + 1))).toArray

def rowsOfJson? [JsonLibrary] (depth : Nat) (v : Json) : Option (Array (Array Cell)) := do
  return (← (← v.items?).mapM (rowOfJson? (depth + 1))).toArray

/-- A sheet within `depth` arrays and objects. -/
def Sheet.ofJson? [JsonLibrary] (depth : Nat) (v : Json) : Option Sheet := do
  match ← v.fields? [["name"], ["data", "rows"]] with
  | [name, rows] =>
    return {
      name := ← Json.field Json.text? name
      rows := ← Json.fieldOr #[] (rowsOfJson? (depth + 1)) rows }
  | _ => none

def Workbook.ofJson? [JsonLibrary] (v : Json) : Option Workbook := do
  match ← v.fields? [["title"], ["sheets"]] with
  | [title, sheets] =>
    let title ← Json.fieldOr "" Json.text? title
    let items ← Json.field Json.items? sheets
    return { title, sheets := ← items.mapM (Sheet.ofJson? 2) }
  | _ => none

def Options.ofJson? (v : Json) : Option Options := do
  let default : Options := {}
  match ← v.fields? [["max_iterations"], ["enable_cross_sheet_refs"], ["strict_mode"],
      ["prefer_day_first_dates"]] with
  | [iterations, cross, strict, dayFirst] =>
    return {
      maxIterations := ← Json.fieldOr default.maxIterations Json.nat32? iterations
      crossSheetReferences := ← Json.fieldOr default.crossSheetReferences Json.boolean? cross
      strict := ← Json.fieldOr default.strict Json.boolean? strict
      dayFirst := ← Json.fieldOr default.dayFirst Json.boolean? dayFirst }
  | _ => none

/-- The workbook that a text writes. -/
def Workbook.read? [JsonLibrary] (s : String) : Option Workbook := JsonLibrary.parse? s >>= Workbook.ofJson?

/-! ## To JSON -/

def Content.toJson [JsonLibrary] : Content → Json
  | .empty => .null
  | .number x => .ofFloat x.float
  | .text s => .text s
  | .boolean b => .boolean b

/-- Bare unless it has a format. -/
def Cell.toJson [JsonLibrary] (c : Cell) : Json :=
  match c.format with
  | none => c.content.toJson
  | some f => .object [("v", c.content.toJson), ("f", .text f)]

def Sheet.toJson [JsonLibrary] (s : Sheet) : Json :=
  .object [("name", .text s.name),
    ("data", .array (s.rows.toList.map fun row => .array (row.toList.map Cell.toJson)))]

def Workbook.toJson [JsonLibrary] (w : Workbook) : Json :=
  .object [("title", .text w.title), ("sheets", .array (w.sheets.map Sheet.toJson))]

def Options.toJson (o : Options) : Json :=
  .object [("max_iterations", .ofNat o.maxIterations),
    ("enable_cross_sheet_refs", .boolean o.crossSheetReferences),
    ("strict_mode", .boolean o.strict), ("prefer_day_first_dates", .boolean o.dayFirst)]

/-- The text of a workbook. -/
def Workbook.write [JsonLibrary] (w : Workbook) : String := JsonLibrary.render w.toJson

end Spreadsheet
