import Spreadsheet.Proofs.BuiltinCalls
import Spreadsheet.Proofs.Rectangular

/-!
# Grids are read within their bounds

Some functions take grids apart by index, with nothing to fall back on: they rely on the rows of a grid being equally
long and on having compared its shape before. Here they are written with reads that are undefined out of range. On
rectangular values every such read is in range, and the values of a formula are rectangular, whatever it is made of, as
long as the cells are.

* `Indexed` : computations with reads by index; `Indexed.within` : those that make none;
* `Indexed.sumProduct`, `Indexed.inTable`, `Indexed.index`, `Indexed.aligned` : the functions, written with such reads;
* `Indexing.inRange` : they are defined, and give what the functions give, on rectangular values;
* `evaluateFormula_rectangular` : values of formulas are rectangular, and all reads by index on the way are in range.
-/

namespace Spreadsheet

open Binary64 (Number)
open Formula (Expr isRectangular parseFormula)

/-- A computation that reads lists by index: undefined if an index is out of range, otherwise a result or an error
value. -/
abbrev Indexed := ExceptT ErrorValue Option

namespace Indexed

variable {α β : Type}

/-- What stands at an index, which has to be in range. -/
def get (xs : List α) (i : Nat) : Indexed α := ExceptT.mk (xs[i]?.map .ok)

/-- A computation without reads by index. -/
def within (x : Outcome α) : Indexed α := ExceptT.mk (some x)

@[simp] theorem run_within (x : Outcome α) : (within x).run = some x := rfl

@[simp] theorem within_pure (a : α) : within (pure a) = pure a := rfl

@[simp] theorem within_throw (e : ErrorValue) : within (throw e : Outcome α) = throw e := rfl

@[simp] theorem within_bind (x : Outcome α) (f : α → Outcome β) :
    within (x >>= f) = within x >>= fun a => within (f a) := by
  cases x <;> rfl

@[simp] theorem within_ite (c : Prop) [Decidable c] (x y : Outcome α) :
    within (if c then x else y) = if c then within x else within y := by
  split <;> rfl

/-- What follows a computation needs to agree on its result only. -/
theorem within_bind_congr {x : Outcome α} {f g : α → Indexed β} (h : ∀ a, x = .ok a → f a = g a) :
    within x >>= f = within x >>= g := by
  cases x with
  | ok a => exact h a rfl
  | error e => rfl

theorem get_eq {xs : List α} {i : Nat} (h : i < xs.length) : get xs i = pure xs[i] := by
  rw [get, List.getElem?_eq_getElem h]
  rfl

/-- In range, nothing takes the place of what is missing. -/
theorem get_eq_getD {xs : List α} {i : Nat} (h : i < xs.length) (default : α) :
    get xs i = pure (xs[i]?.getD default) := by
  rw [get_eq h, List.getElem?_eq_getElem h, Option.getD_some]

theorem foldlM_within {f : β → α → Indexed β} {g : β → α → Outcome β} {xs : List α}
    (h : ∀ x ∈ xs, ∀ b, f b x = within (g b x)) : ∀ b, xs.foldlM f b = within (xs.foldlM g b) := by
  induction xs with
  | nil => exact fun _ => rfl
  | cons x xs ih =>
    obtain ⟨hx, hxs⟩ := List.forall_mem_cons.1 h
    intro b
    rw [List.foldlM_cons, List.foldlM_cons, hx, within_bind]
    exact congrArg (within (g b x) >>= ·) (funext (ih hxs))

theorem mapM_within {f : α → Indexed β} {g : α → β} {xs : List α} (h : ∀ x ∈ xs, f x = pure (g x)) :
    xs.mapM f = pure (xs.map g) := by
  induction xs with
  | nil => rfl
  | cons x xs ih =>
    obtain ⟨hx, hxs⟩ := List.forall_mem_cons.1 h
    rw [List.mapM_cons, hx, ih hxs]
    rfl

end Indexed

/-! ## Shapes -/

theorem Value.Rectangular.isRectangular_grid {v : Value} (h : v.Rectangular) : Formula.isRectangular v.grid := by
  cases v with
  | array rows => exact h.isRectangular
  | _ => rfl

/-- Every row of a rectangular grid has its width. -/
theorem Grid.length_eq_width {g : Grid} (h : isRectangular g) : ∀ row ∈ g, row.length = g.width :=
  length_of_isRectangular h

/-! ## Products of grids -/

namespace Indexed

/-- The product of the entries of all grids at one place. -/
def productAt (grids : List Grid) (row column : Nat) : Indexed Number :=
  grids.foldlM (fun acc g => do
    let entries ← get g row
    let v ← get entries column
    return acc * (← within (Statistical.factor v))) (.ofFloat 1.0)

/-- The first grid is there, and at each of its places all grids have an entry. -/
def sumProduct (arguments : List Value) : Indexed Value := do
  let grids := arguments.map Value.grid
  let first ← get grids 0
  let (rows, columns) := first.dimensions
  if grids.any fun g => g.dimensions != (rows, columns) then throw .value
  let places := (List.range rows).flatMap fun r => (List.range columns).map fun c => (r, c)
  return .number (← places.foldlM (fun total (r, c) => do return total + (← productAt grids r c)) (.ofFloat 0.0))

theorem productAt_eq {grids : List Grid} {rows columns r c : Nat} (hr : r < rows) (hc : c < columns)
    (hshape : ∀ g ∈ grids, isRectangular g ∧ g.dimensions = (rows, columns)) :
    productAt grids r c = within (Statistical.productAt (grids.map Grid.cells) r c) := by
  rw [Statistical.productAt, List.foldlM_map]
  refine foldlM_within (fun g hg acc => ?_) _
  obtain ⟨heven, hdimensions⟩ := hshape g hg
  obtain ⟨rfl, rfl⟩ := Prod.mk.inj hdimensions
  have hrow : g[r].length = Grid.width g := Grid.length_eq_width heven _ (List.getElem_mem hr)
  rw [← hrow] at hc
  rw [get_eq hr, pure_bind, get_eq hc, pure_bind, Grid.get?_cells, List.getElem?_eq_getElem hr, Option.bind_some,
    List.getElem?_eq_getElem hc, Option.getD_some, within_bind]
  rfl

theorem sumProduct_eq {arguments : List Value} (hsome : 1 ≤ arguments.length) (h : ∀ v ∈ arguments, v.Rectangular) :
    sumProduct arguments = within (Statistical.sumProduct arguments) := by
  have hfirst : 0 < (arguments.map Value.grid).length := by rwa [List.length_map]
  have heven : ∀ g ∈ arguments.map Value.grid, isRectangular g :=
    List.forall_mem_map.2 fun v hv => (h v hv).isRectangular_grid
  unfold sumProduct Statistical.sumProduct Statistical.sumOfProducts
  dsimp only
  generalize arguments.map Value.grid = grids at *
  rw [get_eq_getD hfirst [], pure_bind, ← List.head?_eq_getElem?, ← List.headD_eq_head?_getD]
  generalize grids.headD [] = first
  split
  · rfl
  · rename_i hsame
    have hshape : ∀ g ∈ grids, isRectangular g ∧ Grid.dimensions g = first.dimensions := fun g hg =>
      ⟨heven g hg, by simpa using List.any_eq_false.1 (eq_false_of_ne_true hsame) g hg⟩
    rw [within_bind]
    refine congrArg (· >>= fun total => pure (Value.number total)) (foldlM_within (fun place hplace total => ?_) _)
    obtain ⟨r, hr, hplace⟩ := List.mem_flatMap.1 hplace
    obtain ⟨c, hc, rfl⟩ := List.mem_map.1 hplace
    rw [productAt_eq (List.mem_range.1 hr) (List.mem_range.1 hc) hshape, within_bind]
    rfl

/-! ## Tables -/

/-- The value in a numbered column of a row that is there. -/
def inTable [RegexLibrary] (arguments : List Value) (table : Grid) : Indexed Value := do
  let approximate ← if isMissing arguments 3 then within (.ok true) else within (truthOf (argAt arguments 3))
  let mode := if approximate then .ascending else Lookup.Mode.exact true
  let t ← within (Lookup.Target.ofValue (argAt arguments 0) mode.wildcards)
  let k ← within (numberArg arguments 2 >>= positiveIndex)
  if table.width < k then throw .ref
  let i ← within (mode.placeOr t (table.column 0))
  return Grid.inRow (← get table i) (k - 1)

def vertical [RegexLibrary] (arguments : List Value) : Indexed Value := inTable arguments (argAt arguments 1).grid

def horizontal [RegexLibrary] (arguments : List Value) : Indexed Value :=
  inTable arguments (argAt arguments 1).grid.transpose

end Indexed

namespace Lookup

theorem mem_of_exactly? {t : Target} {keys : List (Value × Nat)} {i : Nat} (h : exactly? t keys = some i) :
    ∃ key ∈ keys, key.2 = i := by
  obtain ⟨key, hkey, hi⟩ := Option.map_eq_some_iff.1 h
  exact ⟨key, List.mem_of_find?_eq_some hkey, hi⟩

theorem mem_of_approximately? {t : Target} {beyond : Ordering} {i : Nat} {keys : List (Value × Nat)} :
    ∀ {found : Option Nat}, approximately? t beyond found keys = some i → found = some i ∨ ∃ key ∈ keys, key.2 = i := by
  induction keys with
  | nil => exact Or.inl
  | cons key keys ih =>
    intro found h
    have hlater : ∀ {found : Option Nat}, approximately? t beyond found keys = some i →
        found = some i ∨ ∃ k ∈ key :: keys, k.2 = i := fun h =>
      (ih h).imp_right fun ⟨k, hk, hi⟩ => ⟨k, List.mem_cons_of_mem key hk, hi⟩
    unfold approximately? at h
    split at h
    · split at h
      · exact Or.inl h
      · exact Or.inr ((hlater h).elim (fun hi => ⟨key, List.mem_cons_self, Option.some.inj hi⟩) id)
    · exact hlater h

theorem mem_of_closest? {t : Target} {side : Ordering} {i : Nat} {keys : List (Value × Nat)} :
    ∀ {best : Option (Value × Nat)}, closest? t side best keys = some i →
      best.map (·.2) = some i ∨ ∃ key ∈ keys, key.2 = i := by
  induction keys with
  | nil => exact Or.inl
  | cons key keys ih =>
    intro best h
    have hlater : ∀ {best : Option (Value × Nat)}, closest? t side best keys = some i →
        best.map (·.2) = some i ∨ ∃ k ∈ key :: keys, k.2 = i := fun h =>
      (ih h).imp_right fun ⟨k, hk, hi⟩ => ⟨k, List.mem_cons_of_mem key hk, hi⟩
    unfold closest? at h
    split at h
    · exact Or.inr ⟨key, List.mem_cons_self, Option.some.inj h⟩
    · split at h
      · exact Or.inr ((hlater h).elim (fun hi => ⟨key, List.mem_cons_self, Option.some.inj hi⟩) id)
      · exact hlater h
    · exact hlater h

theorem Mode.mem_of_find? {mode : Mode} {t : Target} {keys : List (Value × Nat)} {i : Nat}
    (h : mode.find? t keys = some i) : ∃ key ∈ keys, key.2 = i := by
  cases mode with
  | exact wildcards => exact mem_of_exactly? h
  | ascending => exact (mem_of_approximately? h).resolve_left nofun
  | descending => exact (mem_of_approximately? h).resolve_left nofun
  | nextSmaller => exact (mem_of_closest? h).resolve_left nofun
  | nextLarger => exact (mem_of_closest? h).resolve_left nofun

/-- The place of a key is the place of one of the keys. -/
theorem Mode.place_lt {mode : Mode} {t : Target} {keys : List Value} {backward : Bool} {i : Nat}
    (h : mode.place t keys backward = some i) : i < keys.length := by
  obtain ⟨key, hkey, rfl⟩ := Mode.mem_of_find? h
  have hmem : key ∈ keys.zipIdx := by
    cases backward with
    | true => exact List.mem_reverse.1 hkey
    | false => exact hkey
  exact List.snd_lt_of_mem_zipIdx hmem

theorem Mode.placeOr_lt {mode : Mode} {t : Target} {keys : List Value} {i : Nat}
    (h : mode.placeOr t keys = .ok i) : i < keys.length := by
  unfold placeOr at h
  split at h
  · rename_i hplace
    cases h
    exact mode.place_lt hplace
  · cases h

end Lookup

namespace Indexed

/-- The row of a key is there. -/
theorem get_placeOr_eq (mode : Lookup.Mode) (t : Lookup.Target) (table : Grid) (column : Nat) :
    (do return Grid.inRow (← get table (← within (mode.placeOr t (table.column 0)))) column)
      = within (do return table.entry (← mode.placeOr t (table.column 0)) column) := by
  rw [within_bind]
  refine within_bind_congr fun i hi => ?_
  have hlt : i < table.length := by simpa [Grid.column] using Lookup.Mode.placeOr_lt hi
  rw [get_eq_getD hlt [], pure_bind]
  rfl

theorem inTable_eq [RegexLibrary] (arguments : List Value) (table : Grid) :
    inTable arguments table = within (Lookup.inTable arguments table) := by
  have hentry := fun mode t column => get_placeOr_eq mode t table column
  simp only [within_bind] at hentry
  unfold inTable Lookup.inTable
  simp only [within_bind, within_ite, bind_assoc, hentry, within_throw]

/-! ## Parts of a grid -/

/-- The part of a grid at a row and a column, of which the row has to be there. -/
def part (g : Grid) (row column : Nat) : Indexed Value :=
  if g.length < row || g.width < column then throw .ref
  else match row, column with
    | 0, 0 => return .array g
    | 0, c + 1 => return .array ((g.column c).map fun v => [v])
    | r + 1, 0 => return .array [← get g r]
    | r + 1, c + 1 => return Grid.inRow (← get g r) c

def index (arguments : List Value) : Indexed Value :=
  match argAt arguments 0 with
  | .error e => throw e
  | v => do
    let g := v.grid
    let first ← within (Lookup.indexOf (argAt arguments 1))
    match arguments[2]? with
    | some second => part g first (← within (Lookup.indexOf second))
    | none => if g.length = 1 then part g 1 first else part g first 1

theorem part_eq (g : Grid) (row column : Nat) : part g row column = within (Lookup.part g row column) := by
  unfold part Lookup.part
  split
  · rfl
  · rename_i hsize
    simp only [Bool.or_eq_true, decide_eq_true_eq, not_or, not_lt] at hsize
    split
    · rfl
    · rfl
    · rw [get_eq_getD hsize.1 [], pure_bind]
      rfl
    · rw [get_eq_getD hsize.1 [], pure_bind]
      rfl

theorem index_eq (arguments : List Value) : index arguments = within (Lookup.index arguments) := by
  unfold index Lookup.index
  cases argAt arguments 0 with
  | error e => rfl
  | _ =>
    dsimp only
    rw [within_bind]
    refine within_bind_congr fun first _ => ?_
    cases arguments[2]? with
    | none => rw [within_ite, ← part_eq, ← part_eq]
    | some second =>
      rw [within_bind]
      exact within_bind_congr fun second _ => part_eq _ first second

/-! ## Results lined up with keys -/

/-- The values of a single row or a single column, each row of which has to have a value. -/
def vector? : Grid → Indexed (Option (List Value))
  | [row] => return some row
  | g => if g.all (·.length == 1) then return some (← g.mapM fun row => get row 0) else return none

/-- The result that lines up with the key found, which has to be there. -/
def aligned [RegexLibrary] (arguments : List Value) : Indexed Value := do
  let mode ← within (optionalNumber arguments 4 0.0 >>= Lookup.modeOf)
  let backward ← within (optionalNumber arguments 5 1.0 >>= Lookup.isBackward)
  let t ← within (Lookup.Target.ofValue (argAt arguments 0) mode.wildcards)
  let keyGrid := (argAt arguments 1).grid
  let alongColumn := 1 < keyGrid.length || keyGrid.width = 1
  match ← vector? keyGrid with
  | none => throw .value
  | some keys =>
    let resultGrid := (argAt arguments 2).grid
    let results := if alongColumn then resultGrid else resultGrid.transpose
    if results.length != keys.length then throw .value
    match mode.place t keys backward with
    | some i => return Lookup.resultOf alongColumn (← get results i)
    | none => if isMissing arguments 3 then throw .notAvailable else return argAt arguments 3

theorem vector?_eq (g : Grid) : vector? g = pure g.vector? := by
  unfold vector?
  split
  · rfl
  · rename_i hrows
    rw [Grid.vector?]
    split
    · rename_i hsingle
      have hrow : ∀ row ∈ g, get row 0 = pure (Grid.inRow row 0) ∧ [Grid.inRow row 0] = row := by
        intro row hrow
        obtain ⟨v, rfl⟩ := List.length_eq_one_iff.1 (beq_iff_eq.1 (List.all_eq_true.1 hsingle row hrow))
        exact ⟨rfl, rfl⟩
      have hflatten : g.map (Grid.inRow · 0) = g.flatten := by
        calc g.map (Grid.inRow · 0)
            = (g.map fun row => [Grid.inRow row 0]).flatten := by rw [List.map_eq_flatMap, List.flatMap_def]
          _ = g.flatten := by rw [List.map_congr_left fun row h => (hrow row h).2, List.map_id']
      rw [mapM_within fun row h => (hrow row h).1, hflatten]
      rfl
    · rfl
    · exact hrows

theorem aligned_eq [RegexLibrary] (arguments : List Value) :
    aligned arguments = within (Lookup.aligned arguments) := by
  unfold aligned Lookup.aligned
  simp only [within_bind, bind_assoc, vector?_eq, pure_bind]
  refine within_bind_congr fun code _ => within_bind_congr fun mode _ => within_bind_congr fun order _ =>
    within_bind_congr fun backward _ => within_bind_congr fun t _ => ?_
  generalize (decide (1 < (argAt arguments 1).grid.length) || decide ((argAt arguments 1).grid.width = 1)) = along
  generalize (if along = true then (argAt arguments 2).grid else (argAt arguments 2).grid.transpose) = results
  cases (argAt arguments 1).grid.vector? with
  | none => rfl
  | some keys =>
    dsimp only
    split
    · rfl
    · rename_i hlength
      have hlength : results.length = keys.length := by simpa using hlength
      cases hplace : mode.place t keys backward with
      | none => exact (within_ite _ (throw _) (pure _)).symm
      | some i =>
        dsimp only
        rw [get_eq_getD (hlength ▸ mode.place_lt hplace) [], pure_bind]
        rfl

end Indexed

/-! ## Formulas -/

/-- The name of a function that reads by index, what it gives, and the same with such reads. -/
structure Indexing where
  name : String
  apply : List Value → Outcome Value
  indexed : List Value → Indexed Value

namespace Indexing

def all [RegexLibrary] : List Indexing :=
  [ ⟨"SUMPRODUCT", Statistical.sumProduct, Indexed.sumProduct⟩,
    ⟨"VLOOKUP", Lookup.vertical, Indexed.vertical⟩,
    ⟨"HLOOKUP", Lookup.horizontal, Indexed.horizontal⟩,
    ⟨"INDEX", Lookup.index, Indexed.index⟩,
    ⟨"XLOOKUP", Lookup.aligned, Indexed.aligned⟩ ]

/-- All reads are in range if there is an argument and all are rectangular. -/
theorem inRange [RegexLibrary] {vs : List Value} (hsome : 1 ≤ vs.length) (hvs : ∀ v ∈ vs, v.Rectangular) :
    ∀ i ∈ all, i.indexed vs = .within (i.apply vs) := by
  refine List.forall_mem_cons.2 ⟨Indexed.sumProduct_eq hsome hvs, ?_⟩
  refine List.forall_mem_cons.2 ⟨Indexed.inTable_eq vs _, List.forall_mem_cons.2 ⟨Indexed.inTable_eq vs _, ?_⟩⟩
  exact List.forall_mem_cons.2 ⟨Indexed.index_eq vs, List.forall_mem_singleton.2 (Indexed.aligned_eq vs)⟩

/-- Each is one of the built-in functions, and takes at least one argument. -/
theorem exists_builtin [RegexLibrary] : ∀ i ∈ all, ∃ f ∈ builtinFunctions,
    f.name = i.name ∧ f.implementation = plainFunction i.apply ∧ 1 ≤ f.least := by
  have hstatistical : ∀ f ∈ statisticalFunctions, f ∈ builtinFunctions := fun f hf => by simp [builtinFunctions, hf]
  have hlookup : ∀ f ∈ lookupFunctions, f ∈ builtinFunctions := fun f hf => by simp [builtinFunctions, hf]
  refine List.forall_mem_cons.2 ⟨?_, ?_⟩
  · exact ⟨_, hstatistical _ (List.mem_of_getElem? (i := 14) rfl), rfl, rfl, Nat.le_refl 1⟩
  refine List.forall_mem_cons.2 ⟨?_, List.forall_mem_cons.2 ⟨?_, List.forall_mem_cons.2 ⟨?_, ?_⟩⟩⟩
  · exact ⟨_, hlookup _ (List.mem_of_getElem? (i := 0) rfl), rfl, rfl, Nat.le_add_left 1 2⟩
  · exact ⟨_, hlookup _ (List.mem_of_getElem? (i := 1) rfl), rfl, rfl, Nat.le_add_left 1 2⟩
  · exact ⟨_, hlookup _ (List.mem_of_getElem? (i := 3) rfl), rfl, rfl, Nat.le_add_left 1 1⟩
  refine List.forall_mem_singleton.2 ?_
  exact ⟨_, hlookup _ (List.mem_of_getElem? (i := 4) rfl), rfl, rfl, Nat.le_add_left 1 2⟩

/-- Such a function is found under its name in any case. -/
theorem get?_builtin [RegexLibrary] {i : Indexing} (hi : i ∈ all) {name : String}
    (hname : Text.upper name = Text.upper i.name) :
    ∃ f, Registry.builtin.get? name = some f ∧ f.implementation = plainFunction i.apply ∧ 1 ≤ f.least := by
  obtain ⟨f, hf, hfname, himplementation, hleast⟩ := exists_builtin i hi
  exact ⟨f, Registry.get?_ofList nodup_names_builtin hf (hname.trans (congrArg Text.upper hfname.symm)),
    himplementation, hleast⟩

end Indexing

section Formulas

variable {m : Type → Type} [Monad m] [LawfulMonad m] {env : Environment} {formula : String} {e : Expr}
  {src : CellSource m}

/-- With the built-in functions, every node of an expression that a formula writes keeps values rectangular. -/
theorem keeps_rectangular [RegexLibrary] (hregistry : env.registry = .builtin)
    (hparse : parseFormula formula = .ok e) {s : Expr} (hs : e.Contains s) : s.Keeps env Value.Rectangular := by
  have hP := Value.Rectangular.hereditary
  cases s with
  | array rows => exact Formula.isEven_of_parseFormula hparse hs
  | call function arguments =>
    intro f hf
    rw [hregistry] at hf
    exact builtin_keeps_rectangular env.surroundings f (Registry.mem_of_get? hf).1
  | binary op left right => exact fun v w _ _ => applyBinary_keeps hP (fun _ _ => .number _) (fun _ s => .text s) v w
  | unary op operand => exact fun v _ => applyUnary_keeps hP (fun _ _ => .number _) (fun _ _ => .number _)
  | number x => exact .number x
  | text s => exact .text s
  | _ => trivial

/-- Over cells with rectangular values, the value of a formula is rectangular. And wherever it calls one of the
functions that read by index, all reads are in range, for whatever values the arguments of the call have. -/
theorem evaluateFormula_rectangular [RegexLibrary] (hregistry : env.registry = .builtin)
    (hparse : parseFormula formula = .ok e) (hcells : ∀ a, SatisfiesM (OnSuccess Value.Rectangular) (src.cell a)) :
    SatisfiesM Value.Rectangular ((evaluateFormula env formula).outcome src) ∧
    ∀ i ∈ Indexing.all, ∀ function arguments, e.Contains (.call function arguments) →
      Text.upper function = Text.upper i.name →
      ∃ f, env.registry.get? function = some f ∧ f.implementation = plainFunction i.apply ∧
        (f.arityError? arguments.length = none →
          SatisfiesM (fun values => (i.indexed values).run = some (i.apply values))
            ((argumentValues f.ignoresBlanks [] (argumentList env arguments)).outcome src)) := by
  have hP := Value.Rectangular.hereditary
  let may : Address → Answer → Prop := fun _ => OnSuccess Value.Rectangular
  have hmay : ∀ a answer, may a answer → OnSuccess Value.Rectangular answer := fun _ _ h => h
  have hvalue : ∀ s, e.Contains s → (evaluate env s).Ensures may src.extent Value.Rectangular :=
    fun s hs => evaluate_ensures hP hmay fun t ht => .inl (keeps_rectangular hregistry hparse (hs.trans ht))
  constructor
  · rw [evaluateFormula, hparse]
    exact (hvalue e .refl).outcome hcells
  · intro i hi function arguments hcall hname
    obtain ⟨f, hf, himplementation, hleast⟩ := Indexing.get?_builtin hi hname
    refine ⟨f, hregistry ▸ hf, himplementation, fun harity => ?_⟩
    have hvalues := argumentValues_ensures hP hmay f.ignoresBlanks (List.forall_mem_nil _) fun c hc =>
      hvalue c (hcall.tail hc)
    refine (hvalues.imp fun vs hvs => ?_).outcome hcells
    have hsome : 1 ≤ vs.length := by
      rw [hvs.1]
      exact (hleast.trans (Function.arityError?_eq_none_iff.1 harity).1).trans (Nat.le_add_left _ _)
    rw [Indexing.inRange hsome hvs.2 i hi, Indexed.run_within]

end Formulas

/-- The product of a cell, and of the cell that stands at a place of a range. -/
def productFormula : String := "=Sumproduct(C3,INDEX(A1:B2,1,2))"

/-- Every cell holds a table of two rows. -/
def tableCell (a : Address) : Answer :=
  .ok (.array [[.number (Float.ofNat a.row), .number (Float.ofNat a.column)], [.boolean true, .text "total"]])

def isProductCall : Expr → Bool
  | .call function [_, _] => Text.upper function == "SUMPRODUCT"
  | _ => false

theorem evaluateFormula_rectangular_product :
    ∃ function arguments f, parseFormula productFormula = .ok (.call function arguments) ∧
      SatisfiesM Value.Rectangular
        ((evaluateFormula .plain productFormula).outcome (CellSource.plain (m := Id) tableCell fun _ => none)) ∧
      Registry.builtin.get? function = some f ∧
      SatisfiesM (fun values => (Indexed.sumProduct values).run = some (Statistical.sumProduct values))
        ((argumentValues f.ignoresBlanks [] (argumentList .plain arguments)).outcome
          (CellSource.plain (m := Id) tableCell fun _ => none)) := by
  have hread : (parseFormula productFormula).toOption.any isProductCall := by decide +kernel
  cases hparse : parseFormula productFormula with
  | error fault =>
    rw [hparse] at hread
    cases hread
  | ok e =>
    rw [hparse] at hread
    have hproduct : isProductCall e := hread
    unfold isProductCall at hproduct
    split at hproduct
    · rename_i function first second
      have hcells : ∀ a, SatisfiesM (OnSuccess Value.Rectangular)
          ((CellSource.plain (m := Id) tableCell fun _ => none).cell a) := fun a =>
        .pure (onSuccess_ok.2 (.array rfl (by simp [Value.Rectangular.number, Value.Rectangular.boolean,
          Value.Rectangular.text])))
      obtain ⟨hvalue, hreads⟩ :=
        evaluateFormula_rectangular (rfl : Environment.plain.registry = .builtin) hparse hcells
      have hname : Text.upper function = Text.upper "SUMPRODUCT" := (beq_iff_eq.1 hproduct).trans (by decide +kernel)
      obtain ⟨f, hf, -, hcall⟩ := hreads ⟨"SUMPRODUCT", Statistical.sumProduct, Indexed.sumProduct⟩
        (List.mem_cons_self ..) function [first, second] .refl hname
      have hproducts : Statistical.function "SUMPRODUCT" 1 none Statistical.sumProduct ∈ builtinFunctions := by
        have hmem : Statistical.function "SUMPRODUCT" 1 none Statistical.sumProduct ∈ statisticalFunctions :=
          List.mem_of_getElem? (i := 14) rfl
        simp only [builtinFunctions, List.mem_append, hmem, true_or]
      obtain rfl := Option.some.inj (hf.symm.trans (Registry.get?_ofList nodup_names_builtin hproducts hname))
      exact ⟨function, [first, second], _, rfl, hvalue, hf, hcall rfl⟩
    · cases hproduct

end Spreadsheet
