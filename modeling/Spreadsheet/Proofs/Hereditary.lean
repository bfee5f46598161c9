import Spreadsheet.Function.Builtin
import Spreadsheet.Proofs.Ensured

/-!
# Functions that keep every hereditary property

What a lookup function gives is a value that stands in one of its arguments, a row or a column of one, or a blank. What
a logical function gives is a truth value or the value of one of its arguments. So these functions keep every property
of values that grids share with the values in them. Operators give no grids at all.

* `Grid.Holds` : a property of all values in a grid, which its parts and its transpose have;
* `Lookup.inTable_keeps`, `Lookup.index_keeps`, `Lookup.aligned_keeps` : functions that take parts of grids;
* `applyBinary_keeps`, `applyUnary_keeps` : operators;
* `pureFunction_keeps`, `logical_keeps` : functions that only compute, and the logical ones.
-/

namespace Spreadsheet

open Formula (BinaryOp UnaryOp isRectangular)

/-! ## Grids -/

/-- All values in a grid have a property. -/
def Grid.Holds (P : Value → Prop) (g : Grid) : Prop := ∀ row ∈ g, ∀ v ∈ row, P v

namespace Grid

variable {P : Value → Prop} {g : Grid}

theorem inRow_of_forall (hempty : P .empty) {row : List Value} (h : ∀ v ∈ row, P v) (c : Nat) : P (inRow row c) := by
  rw [inRow]
  cases hc : row[c]? with
  | none => exact hempty
  | some v => exact h v (List.mem_of_getElem? hc)

theorem Holds.row (h : g.Holds P) (r : Nat) : ∀ v ∈ g[r]?.getD [], P v := by
  cases hr : g[r]? with
  | none => exact List.forall_mem_nil _
  | some row => exact h row (List.mem_of_getElem? hr)

theorem Holds.entry (h : g.Holds P) (hempty : P .empty) (r c : Nat) : P (g.entry r c) :=
  inRow_of_forall hempty (h.row r) c

theorem Holds.column (h : g.Holds P) (hempty : P .empty) (c : Nat) : ∀ v ∈ g.column c, P v :=
  List.forall_mem_map.2 fun row hrow => inRow_of_forall hempty (h row hrow) c

theorem Holds.transpose (h : g.Holds P) (hempty : P .empty) : g.transpose.Holds P := by
  rw [transpose_eq_map_column]
  exact List.forall_mem_map.2 fun c _ => h.column hempty c

end Grid

/-! ## Arguments -/

section Arguments

variable {P : Value → Prop} (hP : Value.Hereditary P)
include hP

theorem Value.Hereditary.grid {v : Value} (hv : P v) : v.grid.Holds P := by
  have hsingle : ∀ {v : Value}, P v → Grid.Holds P [[v]] := fun hv =>
    List.forall_mem_singleton.2 (List.forall_mem_singleton.2 hv)
  cases v with
  | array rows => exact hP.parts hv
  | _ => exact hsingle hv

/-- A column of single values. -/
theorem Value.Hereditary.columnOf {vs : List Value} (h : ∀ v ∈ vs, P v) : P (.array (vs.map fun v => [v])) :=
  hP.array (isRectangular_of_length (List.forall_mem_map.2 fun _ _ => rfl))
    (List.forall_mem_map.2 fun v hv => List.forall_mem_singleton.2 (h v hv))

theorem Value.Hereditary.rowOf {vs : List Value} (h : ∀ v ∈ vs, P v) : P (.array [vs]) :=
  hP.array rfl (List.forall_mem_singleton.2 h)

variable {arguments : List Value} (h : ∀ v ∈ arguments, P v)
include h

theorem argAt_of_forall (i : Nat) : P (argAt arguments i) := Grid.inRow_of_forall hP.empty h i

/-! ## Functions -/

namespace Lookup

omit h in
theorem inTable_keeps [RegexLibrary] {table : Grid} (htable : table.Holds P) :
    OnSuccess P (inTable arguments table) := by
  have hentry : ∀ r c, P (table.entry r c) := htable.entry hP.empty
  simp [inTable, hentry]

theorem vertical_keeps [RegexLibrary] : OnSuccess P (vertical arguments) :=
  inTable_keeps hP (hP.grid (argAt_of_forall hP h 1))

theorem horizontal_keeps [RegexLibrary] : OnSuccess P (horizontal arguments) :=
  inTable_keeps hP ((hP.grid (argAt_of_forall hP h 1)).transpose hP.empty)

omit h in
/-- The whole grid is given back as it was given. -/
theorem part_keeps {v : Value} (hv : P v) (row column : Nat) : OnSuccess P (part v.grid row column) := by
  have hg := hP.grid hv
  have hwhole : P (.array v.grid) := by
    cases v with
    | array rows => exact hv
    | _ => exact hP.rowOf (List.forall_mem_singleton.2 hv)
  unfold part
  split
  · exact onSuccess_error.2 trivial
  · split
    · exact onSuccess_ok.2 hwhole
    · exact onSuccess_ok.2 (hP.columnOf (hg.column hP.empty _))
    · exact onSuccess_ok.2 (hP.rowOf (hg.row _))
    · exact onSuccess_ok.2 (hg.entry hP.empty _ _)

theorem index_keeps : OnSuccess P (index arguments) := by
  have hpart := fun row column => part_keeps hP (argAt_of_forall hP h 0) row column
  unfold index
  split
  · exact onSuccess_error.2 trivial
  · refine .after fun first => ?_
    split
    · exact .after fun second => hpart first second
    · split
      · exact hpart 1 first
      · exact hpart first 1

omit h in
theorem resultOf_keeps {vs : List Value} (hvs : ∀ v ∈ vs, P v) (alongColumn : Bool) : P (resultOf alongColumn vs) := by
  unfold resultOf
  split
  · exact hvs _ (List.mem_singleton_self _)
  · split
    · exact hP.rowOf hvs
    · exact hP.columnOf hvs

theorem aligned_keeps [RegexLibrary] : OnSuccess P (aligned arguments) := by
  have hresults : ∀ alongColumn : Bool, Grid.Holds P
      (if alongColumn then (argAt arguments 2).grid else (argAt arguments 2).grid.transpose) := by
    intro alongColumn
    have hg := hP.grid (argAt_of_forall hP h 2)
    split
    · exact hg
    · exact hg.transpose hP.empty
  unfold aligned
  refine .after fun _ => .after fun mode => .after fun _ => .after fun backward => .after fun t => ?_
  dsimp only
  generalize (decide (1 < (argAt arguments 1).grid.length) || decide ((argAt arguments 1).grid.width = 1)) = along
  replace hresults := hresults along
  generalize (if along = true then (argAt arguments 2).grid else (argAt arguments 2).grid.transpose) = results at *
  split
  · simp
  · split
    · simp
    · split
      · exact onSuccess_pure.2 (resultOf_keeps hP (hresults.row _) along)
      · split
        · simp
        · exact onSuccess_pure.2 (argAt_of_forall hP h 3)

omit hP in
theorem choose_keeps : OnSuccess P (choose arguments) := by
  unfold choose
  refine .after fun x => .after fun k => ?_
  split
  · rename_i v hv
    exact onSuccess_ok.2 (h v (List.mem_of_getElem? hv))
  · exact onSuccess_error.2 trivial

end Lookup

end Arguments

/-! ## Operators -/

section Operators

variable {P : Value → Prop} (hP : Value.Hereditary P)
include hP

theorem arithmetic_keeps {f : Float → Float → Value} (hf : ∀ x y, P (f x y)) (v w : Value) :
    P (Value.arithmetic f v w) := by
  unfold Value.arithmetic
  split
  · exact hf _ _
  · exact hP.error _
  · exact hP.error _

/-- Binary operators give error values, truth values, finite numbers and, if they concatenate, texts. -/
theorem applyBinary_keeps {op : BinaryOp} (hfinite : ∀ x : Float, x.isFinite → P (.number x))
    (htext : op = .concat → ∀ s, P (.text s)) (v w : Value) : P (applyBinary op v w) := by
  have hofFinite : ∀ x, P (Value.ofFinite x) := by
    intro x
    unfold Value.ofFinite
    split
    · exact hfinite x ‹_›
    · exact hP.error _
  have hquotient : ∀ x y, P (Value.quotient x y) := by
    intro x y
    unfold Value.quotient
    split
    · exact hP.error _
    · exact hofFinite _
  have hpower : ∀ x y, P (Value.power x y) := by
    intro x y
    unfold Value.power
    split
    · exact hP.error _
    · exact hofFinite _
  unfold applyBinary
  split
  any_goals exact hP.error _
  cases op with
  | add => exact arithmetic_keeps hP (fun _ _ => hofFinite _) _ _
  | subtract => exact arithmetic_keeps hP (fun _ _ => hofFinite _) _ _
  | multiply => exact arithmetic_keeps hP (fun _ _ => hofFinite _) _ _
  | divide => exact arithmetic_keeps hP hquotient _ _
  | power => exact arithmetic_keeps hP hpower _ _
  | concat => exact htext rfl _
  | _ => exact hP.boolean _

/-- Signs and percent signs give error values and numbers made from the number of their operand. -/
theorem applyUnary_keeps {op : UnaryOp} {v : Value}
    (hnegate : ∀ x, v.scalar.operandNumber = .ok x → P (.number (-x)))
    (hpercent : ∀ x, v.scalar.operandNumber = .ok x → P (.number (x / (100.0 : Float)))) : P (applyUnary op v) := by
  unfold applyUnary
  split
  · exact hP.error _
  · split
    · exact hP.error _
    · rename_i x hx
      cases op with
      | negate => exact hnegate x hx
      | percent => exact hpercent x hx

end Operators

/-! ## Functions that only compute -/

/-- A function that only computes may end in an error value as well. -/
theorem pureFunction_keeps {P : Value → Prop} (hP : Value.Hereditary P) {f : Surroundings → List Value → Outcome Value}
    {s : Surroundings} (h : ∀ vs, (∀ v ∈ vs, P v) → OnSuccess P (f s vs)) : (pureFunction f).Keeps s P := by
  intro vs hvs
  refine onSuccess_ok.2 ?_
  have hf := h vs hvs
  cases hresult : f s vs with
  | ok v => exact hf v hresult
  | error e => exact hP.error e

open Logical in
theorem logical_keeps {P : Value → Prop} (hP : Value.Hereditary P) (s : Surroundings) :
    ∀ f ∈ logicalFunctions, f.implementation.Keeps s P := by
  have hconnective : ∀ name f, (connective name f).implementation.Keeps s P := fun _ f =>
    pureFunction_keeps hP fun _ _ => .after fun truths => onSuccess_pure.2 (hP.boolean (f truths))
  have hconstant : ∀ name b, (constant name b).implementation.Keeps s P := fun _ b =>
    pureFunction_keeps hP fun _ _ => onSuccess_ok.2 (hP.boolean b)
  refine List.forall_mem_cons.2 ⟨fun _ _ _ => ifElse_ensures hP, ?_⟩
  refine List.forall_mem_cons.2 ⟨fun _ _ _ => ifs_ensures hP, ?_⟩
  refine List.forall_mem_cons.2 ⟨fun _ _ _ => ifError_ensures hP, ?_⟩
  refine List.forall_mem_cons.2 ⟨fun _ _ _ => ifNotAvailable_ensures hP, ?_⟩
  refine List.forall_mem_cons.2 ⟨hconnective _ _, ?_⟩
  refine List.forall_mem_cons.2 ⟨hconnective _ _, ?_⟩
  refine List.forall_mem_cons.2 ⟨hconnective _ _, ?_⟩
  refine List.forall_mem_cons.2 ⟨?_, ?_⟩
  · exact pureFunction_keeps hP fun _ _ => .after fun holds => onSuccess_pure.2 (hP.boolean !holds)
  · exact List.forall_mem_cons.2 ⟨hconstant _ _, List.forall_mem_singleton.2 (hconstant _ _)⟩

end Spreadsheet
