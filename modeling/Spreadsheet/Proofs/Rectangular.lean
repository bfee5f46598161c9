import Spreadsheet.Proofs.Hereditary

/-!
# Grids are rectangular

The rows of every grid that a function gives are equally long if this holds of the grids it is given. Most functions
give no grids at all, and those that do take them from their arguments.

* `Value.Rectangular` : a single value, or a grid of rectangular values with rows of one length;
* `builtin_keeps_rectangular` : all built-in functions give rectangular values if they are given such, by category.
-/

namespace Spreadsheet

open Formula (isRectangular)

/-! ## Values -/

/-- All rows of a grid are equally long, and the same holds of the grids within. -/
inductive Value.Rectangular : Value → Prop where
  | scalar {v : Value} (h : v.isArray = false) : Rectangular v
  | array {rows : Grid} (shape : isRectangular rows) (values : ∀ row ∈ rows, ∀ v ∈ row, Rectangular v) :
      Rectangular (.array rows)

namespace Value.Rectangular

@[simp] theorem number (x : Binary64.Number) : (Value.number x).Rectangular := .scalar rfl

@[simp] theorem text (s : String) : (Value.text s).Rectangular := .scalar rfl

@[simp] theorem boolean (b : Bool) : (Value.boolean b).Rectangular := .scalar rfl

@[simp] theorem error (e : ErrorValue) : (Value.error e).Rectangular := .scalar rfl

@[simp] theorem empty : Value.empty.Rectangular := .scalar rfl

theorem isRectangular {rows : Grid} (h : (Value.array rows).Rectangular) : Formula.isRectangular rows := by
  cases h with
  | scalar h => cases h
  | array shape _ => exact shape

theorem parts {rows : Grid} (h : (Value.array rows).Rectangular) : ∀ row ∈ rows, ∀ v ∈ row, v.Rectangular := by
  cases h with
  | scalar h => cases h
  | array _ values => exact values

theorem hereditary : Hereditary Rectangular where
  empty := empty
  boolean := boolean
  error := error
  array := .array
  parts := parts

end Value.Rectangular

/-! ## Functions -/

section Functions

variable (s : Surroundings)

/-- A function that gives no grids. -/
theorem scalarFunction {f : Surroundings → List Value → Outcome Value}
    (h : ∀ vs, OnSuccess Value.Rectangular (f s vs)) : (pureFunction f).Keeps s Value.Rectangular :=
  pureFunction_keeps Value.Rectangular.hereditary fun vs _ => h vs

open Statistical in
theorem statistical_keeps [RegexLibrary] : ∀ f ∈ statisticalFunctions, f.implementation.Keeps s Value.Rectangular := by
  repeat first
    | exact List.forall_mem_nil _
    | refine List.forall_mem_cons.2 ⟨scalarFunction s fun _ => by
        simp [ofNumbers, count, countOf, countFilled, countBlank, sumProduct, ranked, countIf, ofMatching, countIfs,
          ofMatchingAll], ?_⟩

theorem math_keeps : ∀ f ∈ mathFunctions, f.implementation.Keeps s Value.Rectangular := by
  repeat first
    | exact List.forall_mem_nil _
    | refine List.forall_mem_cons.2 ⟨scalarFunction s fun _ => by simp, ?_⟩

open Financial in
theorem financial_keeps : ∀ f ∈ financialFunctions, f.implementation.Keeps s Value.Rectangular := by
  repeat first
    | exact List.forall_mem_nil _
    | refine List.forall_mem_cons.2 ⟨scalarFunction s fun _ => by
        simp [rateOf, netPresentValueOf, internalRateOf], ?_⟩

namespace TextFunction

variable (vs : List Value)

theorem placeOf_scalar (search : List Char → List Char → Nat → Option Nat) :
    OnSuccess Value.Rectangular (placeOf search vs) := by
  refine .after fun needle => .after fun cs => .after fun start => ?_
  split
  · simp
  · split <;> simp

theorem formatted_scalar : OnSuccess Value.Rectangular (formatted vs) := by
  refine .after fun code => ?_
  split
  · split <;> simp
  · simp

theorem valueOf_scalar : OnSuccess Value.Rectangular (valueOf s vs) := by
  unfold valueOf
  split
  · simp
  · simp
  · refine .after fun text => ?_
    split <;> simp

end TextFunction

open TextFunction in
theorem text_keeps [RegexLibrary] : ∀ f ∈ textFunctions, f.implementation.Keeps s Value.Rectangular := by
  repeat first
    | exact List.forall_mem_nil _
    | refine List.forall_mem_cons.2 ⟨scalarFunction s fun vs => placeOf_scalar vs _, ?_⟩
    | refine List.forall_mem_cons.2 ⟨scalarFunction s fun vs => formatted_scalar vs, ?_⟩
    | refine List.forall_mem_cons.2 ⟨scalarFunction s fun vs => valueOf_scalar s vs, ?_⟩
    | refine List.forall_mem_cons.2 ⟨scalarFunction s fun _ => by
        simp [left, right, middle, length, ofChars, substitute, replace, replicate, concatenate, concat, same], ?_⟩

namespace DateFunction

variable (vs : List Value)

theorem weekday_scalar : OnSuccess Value.Rectangular (weekday s vs) := by
  refine .after fun serial => .after fun kind => ?_
  split <;> simp [intResult]

theorem dateOfText_scalar : OnSuccess Value.Rectangular (dateOfText s vs) := by
  unfold dateOfText
  split <;> simp [numberResult]

end DateFunction

open DateFunction in
theorem date_keeps : ∀ f ∈ dateFunctions, f.implementation.Keeps s Value.Rectangular := by
  repeat first
    | exact List.forall_mem_nil _
    | refine List.forall_mem_cons.2 ⟨scalarFunction s (weekday_scalar s), ?_⟩
    | refine List.forall_mem_cons.2 ⟨scalarFunction s (dateOfText_scalar s), ?_⟩
    | refine List.forall_mem_cons.2 ⟨scalarFunction s fun _ => by
        simp [date, time, today, now, dateDifference, civilPart, clockPart, days, sameDay, lastDay, numberResult,
          intResult], ?_⟩

open Lookup in
theorem lookup_keeps [RegexLibrary] : ∀ f ∈ lookupFunctions, f.implementation.Keeps s Value.Rectangular := by
  have hP := Value.Rectangular.hereditary
  have hposition : ∀ vs, OnSuccess Value.Rectangular (position vs) := by
    intro vs
    refine .after fun kind => .after fun t => ?_
    split <;> simp
  have hmeasure : ∀ name f, (measure name f).implementation.Keeps s Value.Rectangular := fun name f =>
    scalarFunction s fun vs => by
      unfold measureOf
      split <;> simp
  refine List.forall_mem_cons.2 ⟨pureFunction_keeps hP fun _ h => vertical_keeps hP h, ?_⟩
  refine List.forall_mem_cons.2 ⟨pureFunction_keeps hP fun _ h => horizontal_keeps hP h, ?_⟩
  refine List.forall_mem_cons.2 ⟨scalarFunction s fun vs => hposition vs, ?_⟩
  refine List.forall_mem_cons.2 ⟨pureFunction_keeps hP fun _ h => index_keeps hP h, ?_⟩
  refine List.forall_mem_cons.2 ⟨pureFunction_keeps hP fun _ h => aligned_keeps hP h, ?_⟩
  refine List.forall_mem_cons.2 ⟨pureFunction_keeps hP fun _ h => choose_keeps h, ?_⟩
  exact List.forall_mem_cons.2 ⟨hmeasure _ _, List.forall_mem_singleton.2 (hmeasure _ _)⟩

/-- All built-in functions give rectangular values if they are given such. -/
theorem builtin_keeps_rectangular [RegexLibrary] :
    ∀ f ∈ builtinFunctions, f.implementation.Keeps s Value.Rectangular := by
  simp only [builtinFunctions, List.forall_mem_append]
  have hlogical := logical_keeps Value.Rectangular.hereditary s
  exact ⟨⟨⟨⟨⟨⟨statistical_keeps s, math_keeps s⟩, hlogical⟩, text_keeps s⟩, lookup_keeps s⟩, financial_keeps s⟩,
    date_keeps s⟩

end Functions

end Spreadsheet
