import Spreadsheet.Proofs.FiniteNumbers
import Spreadsheet.Proofs.Hereditary

/-!
# Values with finite numbers

If all numbers in the values that a function is given are finite, so are those in the value it gives, except for the
functions that do not look: those that add up or make texts. A text counts as the number it is read as. Counts are
finite for another reason, since there is no more to count than fits in memory.

* `Value.IsFinite` : finite numbers throughout; it is hereditary;
* `applyBinary_isFinite`, `applyUnary_isFinite` : operators;
* `collectNumbers_finite` : the numbers among arguments;
* `leaking`, `textMaking`, `counting` : the functions that do not look; `Function.Guarded` : what holds of the others;
* `builtin_guarded` : all built-in functions, by category.
-/

namespace Spreadsheet

open Binary64 (Number)
open Formula (BinaryOp UnaryOp)

/-! ## Values -/

/-- All numbers in a value are finite, and so are those that its texts are read as. -/
inductive Value.IsFinite : Value → Prop where
  | number {x : Number} (h : x.float.isFinite) : IsFinite (.number x)
  | text {s : String} (h : ∀ x, Decimal.trimmedNumber? s = some x → x.float.isFinite) : IsFinite (.text s)
  | boolean (b : Bool) : IsFinite (.boolean b)
  | error (e : ErrorValue) : IsFinite (.error e)
  | empty : IsFinite .empty
  | array {rows : Grid} (values : ∀ row ∈ rows, ∀ v ∈ row, IsFinite v) : IsFinite (.array rows)

namespace Value

theorem isFinite_zero : (0.0 : Float).isFinite = true := by decide +kernel

theorem isFinite_one : (1.0 : Float).isFinite = true := by decide +kernel

@[simp] theorem isFinite_number {x : Number} : (Value.number x).IsFinite ↔ x.float.isFinite :=
  ⟨fun | .number h => h, .number⟩

namespace IsFinite

variable {v : Value} {x : Number}

theorem parts {rows : Grid} (h : (Value.array rows).IsFinite) : ∀ row ∈ rows, ∀ v ∈ row, v.IsFinite := by
  cases h with
  | array values => exact values

theorem hereditary : Hereditary IsFinite where
  empty := empty
  boolean := boolean
  error := error
  array := fun _ values => array values
  parts := parts

/-- The number of a value. -/
theorem asNumber? (h : v.IsFinite) (hx : v.asNumber? = some x) : x.float.isFinite := by
  fun_induction Value.asNumber? v with
  | case1 y =>
    cases hx
    exact isFinite_number.1 h
  | case2 b =>
    cases hx
    cases b
    · exact isFinite_zero
    · exact isFinite_one
  | case3 s =>
    cases h with
    | text h => exact h x hx
  | case4 =>
    cases hx
    exact isFinite_zero
  | case5 v ih => exact ih (h.parts [v] (List.mem_singleton_self _) v (List.mem_singleton_self _)) hx
  | case6 => cases hx
  | case7 => cases hx

theorem scalar (h : v.IsFinite) : v.scalar.IsFinite := by
  unfold Value.scalar
  split
  · exact h.parts _ (List.mem_singleton_self _) _ (List.mem_singleton_self _)
  · exact h

theorem operandNumber (h : v.IsFinite) (hx : v.operandNumber = .ok x) : x.float.isFinite := by
  unfold Value.operandNumber at hx
  split at hx
  · cases hx
  · split at hx
    · rename_i hy
      cases hx
      exact h.asNumber? hy
    · cases hx

end IsFinite

end Value

/-! ## Operators -/

theorem applyBinary_isFinite {op : BinaryOp} (hop : op ≠ .concat) (v w : Value) : (applyBinary op v w).IsFinite :=
  applyBinary_keeps Value.IsFinite.hereditary (fun _ hx => Value.isFinite_number.2 hx) (fun h => absurd h hop) v w

/-- Signs and percent signs check nothing, and need not. -/
theorem applyUnary_isFinite {op : UnaryOp} {v : Value} (h : v.IsFinite) : (applyUnary op v).IsFinite := by
  refine applyUnary_keeps Value.IsFinite.hereditary (fun x hx => ?_) fun x hx => ?_
  · exact Value.isFinite_number.2 (Number.isFinite_neg (h.scalar.operandNumber hx))
  · exact Value.isFinite_number.2 (Number.isFinite_percent (h.scalar.operandNumber hx))

/-! ## Numbers of arguments -/

/-- All numbers of a list are finite. -/
def FiniteNumbers (xs : List Number) : Prop := ∀ x ∈ xs, x.float.isFinite

theorem gather_finite {adds : Value → Outcome (List Number)} {vs : List Value}
    (h : ∀ v ∈ vs, OnSuccess FiniteNumbers (adds v)) : OnSuccess FiniteNumbers (gather adds vs) := by
  refine (onSuccess_mapM h).bind fun parts hparts => onSuccess_pure.2 fun x hx => ?_
  obtain ⟨xs, hxs, hx⟩ := List.mem_flatten.1 hx
  exact hparts xs hxs x hx

theorem cellNumbers_finite {v : Value} (h : v.IsFinite) : OnSuccess FiniteNumbers (cellNumbers v) := by
  cases h with
  | number h => exact onSuccess_ok.2 (List.forall_mem_singleton.2 h)
  | error e => exact onSuccess_error.2 trivial
  | _ => exact onSuccess_ok.2 (List.forall_mem_nil _)

theorem directNumbers_finite {v : Value} (h : v.IsFinite) : OnSuccess FiniteNumbers (directNumbers v) := by
  cases h with
  | number h => exact onSuccess_ok.2 (List.forall_mem_singleton.2 h)
  | text h => exact onSuccess_ok.2 fun x hx => h x (Option.mem_toList.1 hx)
  | boolean b =>
    refine onSuccess_ok.2 (List.forall_mem_singleton.2 ?_)
    cases b
    · exact Value.isFinite_zero
    · exact Value.isFinite_one
  | error e => exact onSuccess_error.2 trivial
  | empty => exact onSuccess_ok.2 (List.forall_mem_nil _)
  | array _ => exact onSuccess_ok.2 (List.forall_mem_nil _)

theorem argumentNumbers_finite {v : Value} (h : v.IsFinite) : OnSuccess FiniteNumbers (argumentNumbers v) := by
  unfold argumentNumbers
  split
  · refine gather_finite fun w hw => ?_
    obtain ⟨row, hrow, hw⟩ := List.mem_flatten.1 hw
    exact cellNumbers_finite (h.parts row hrow w hw)
  · exact directNumbers_finite h

theorem collectNumbers_finite {vs : List Value} (h : ∀ v ∈ vs, v.IsFinite) :
    OnSuccess FiniteNumbers (collectNumbers vs) := gather_finite fun v hv => argumentNumbers_finite (h v hv)

/-! ## Functions -/

/-- Functions that give a number without a look at it: those that add up or multiply, and the one that reads a number
off a text with marks in it. -/
def leaking : List String :=
  ["SUM", "AVERAGE", "MEDIAN", "STDEV", "STDEVP", "VAR", "VARP", "PRODUCT", "SUMPRODUCT", "SUMIF", "AVERAGEIF",
    "SUMIFS", "AVERAGEIFS", "VALUE"]

/-- Functions that make texts, which may be read as numbers later on. -/
def textMaking : List String :=
  ["LEFT", "RIGHT", "MID", "UPPER", "LOWER", "PROPER", "TRIM", "SUBSTITUTE", "REPLACE", "CONCATENATE", "CONCAT", "REPT",
    "TEXT"]

/-- Functions that count values or characters. -/
def counting : List String :=
  ["COUNT", "COUNTA", "COUNTBLANK", "COUNTIF", "COUNTIFS", "LEN", "FIND", "SEARCH", "MATCH", "ROWS", "COLUMNS"]

/-- A function that gives finite values in given surroundings if it is given such, unless it leaks numbers, makes texts
or counts. -/
def Function.Guarded (s : Surroundings) (f : Function) : Prop :=
  f.name ∉ leaking ++ textMaking ++ counting → f.implementation.Keeps s Value.IsFinite

section Functions

variable {s : Surroundings}

theorem guarded_of_mem {name : String} {category : Category} {least : Nat} {most : Option Nat}
    {implementation : Implementation} {ignoresBlanks : Bool} (h : name ∈ leaking ++ textMaking ++ counting) :
    Function.Guarded s ⟨name, category, least, most, implementation, ignoresBlanks⟩ := fun hnot => absurd h hnot

theorem guarded_of_pure {f : Surroundings → List Value → Outcome Value} {name : String} {category : Category}
    {least : Nat} {most : Option Nat} {ignoresBlanks : Bool}
    (h : ∀ vs, (∀ v ∈ vs, v.IsFinite) → OnSuccess Value.IsFinite (f s vs)) :
    Function.Guarded s ⟨name, category, least, most, pureFunction f, ignoresBlanks⟩ := fun _ =>
  pureFunction_keeps Value.IsFinite.hereditary h

/-! ### Statistics -/

namespace Statistical

variable {xs : List Number}

theorem larger_eq (x y : Number) : x.larger y = x ∨ x.larger y = y := by
  unfold Number.larger
  split
  · exact Or.inr rfl
  · split
    · exact Or.inr rfl
    · exact Or.inl rfl

theorem smaller_eq (x y : Number) : x.smaller y = x ∨ x.smaller y = y := by
  unfold Number.smaller
  split
  · exact Or.inr rfl
  · split
    · exact Or.inr rfl
    · exact Or.inl rfl

theorem extreme_finite {choose : Number → Number → Number} (hchoose : ∀ x y, choose x y = x ∨ choose x y = y)
    (h : FiniteNumbers xs) : (extreme choose xs).float.isFinite := by
  cases xs with
  | nil => exact Value.isFinite_zero
  | cons x xs =>
    obtain ⟨hx, hxs⟩ := List.forall_mem_cons.1 h
    rw [extreme]
    induction xs generalizing x with
    | nil => exact hx
    | cons y ys ih =>
      obtain ⟨hy, hys⟩ := List.forall_mem_cons.1 hxs
      have hbest : (choose x y).float.isFinite := by
        rcases hchoose x y with h | h <;> rw [h]
        · exact hx
        · exact hy
      exact ih (choose x y) (List.forall_mem_cons.2 ⟨hbest, hys⟩) hbest hys

theorem mem_of_mem_eraseDups {α : Type} [BEq α] {x : α} : ∀ {xs : List α}, x ∈ xs.eraseDups → x ∈ xs
  | [], h => by rwa [List.eraseDups_nil] at h
  | y :: ys, h => by
    rw [List.eraseDups_cons] at h
    rcases List.mem_cons.1 h with rfl | h
    · exact List.mem_cons_self
    · exact List.mem_cons_of_mem y (List.mem_filter.1 (mem_of_mem_eraseDups h)).1
termination_by xs => xs.length
decreasing_by exact Nat.lt_succ_of_le (List.length_filter_le _ _)

theorem mem_of_foldl_betterOf {xs ys : List Float} (hys : ∀ y ∈ ys, y ∈ xs) :
    ∀ {best : Option (Float × Nat)}, (∀ b ∈ best, b.1 ∈ xs) → ∀ b ∈ ys.foldl (betterOf xs) best, b.1 ∈ xs := by
  induction ys with
  | nil => exact fun hbest => hbest
  | cons y ys ih =>
    intro best hbest
    obtain ⟨hy, hys⟩ := List.forall_mem_cons.1 hys
    refine ih hys fun b hb => ?_
    unfold betterOf at hb
    dsimp only at hb
    split at hb
    · cases hb
      exact hy
    · exact hbest b hb

theorem mem_of_mostFrequent {xs : List Float} : OnSuccess (· ∈ xs) (mostFrequent xs) := by
  unfold mostFrequent
  split
  · rename_i x count hfound
    have hnone : ∀ b ∈ (none : Option (Float × Nat)), b.1 ∈ xs := nofun
    exact onSuccess_ok.2 (mem_of_foldl_betterOf (fun y => mem_of_mem_eraseDups) hnone _ hfound)
  · exact onSuccess_error.2 trivial

theorem mode_finite (h : FiniteNumbers xs) :
    OnSuccess (fun x => x.float.isFinite) (Number.ofFloat <$> mostFrequent (xs.map (·.float))) := by
  refine onSuccess_map.2 (mem_of_mostFrequent.imp fun x hx => ?_)
  obtain ⟨y, hy, rfl⟩ := List.mem_map.1 hx
  exact h y hy

theorem mem_of_kth (k : Float) : OnSuccess (· ∈ xs) (kth xs k) := by
  unfold kth
  split
  · exact onSuccess_error.2 trivial
  · split
    · rename_i hx
      exact onSuccess_ok.2 (List.mem_of_getElem? hx)
    · exact onSuccess_error.2 trivial

variable {vs : List Value} (h : ∀ v ∈ vs, v.IsFinite)
include h

theorem ofNumbers_finite {f : List Number → Outcome Number}
    (hf : ∀ xs, FiniteNumbers xs → OnSuccess (fun x => x.float.isFinite) (f xs)) :
    OnSuccess Value.IsFinite (ofNumbers f vs) :=
  (collectNumbers_finite h).bind fun xs hxs => (hf xs hxs).bind fun _ hx => onSuccess_pure.2 (.number hx)

theorem ranked_finite {sort : List Number → List Number} (hsort : ∀ xs, ∀ x ∈ sort xs, x ∈ xs) :
    OnSuccess Value.IsFinite (ranked sort vs) :=
  (collectNumbers_finite fun v hv => h v (List.mem_of_mem_take hv)).bind fun xs hxs => .after fun k =>
    (mem_of_kth k).bind fun x hx => onSuccess_pure.2 (.number (hxs x (hsort xs x hx)))

end Statistical

open Statistical in
theorem statistical_guarded [RegexLibrary] : ∀ f ∈ statisticalFunctions, f.Guarded s := by
  repeat first
    | exact List.forall_mem_nil _
    | refine List.forall_mem_cons.2 ⟨guarded_of_mem (by decide), ?_⟩
    | refine List.forall_mem_cons.2 ⟨guarded_of_pure fun _ h => ofNumbers_finite h fun xs hxs =>
        onSuccess_ok.2 (extreme_finite larger_eq hxs), ?_⟩
    | refine List.forall_mem_cons.2 ⟨guarded_of_pure fun _ h => ofNumbers_finite h fun xs hxs =>
        onSuccess_ok.2 (extreme_finite smaller_eq hxs), ?_⟩
    | refine List.forall_mem_cons.2 ⟨guarded_of_pure fun _ h => ofNumbers_finite h fun _ => mode_finite, ?_⟩
    | refine List.forall_mem_cons.2 ⟨guarded_of_pure fun _ h => ranked_finite h fun _ _ => List.mem_mergeSort.1, ?_⟩

/-! ### Mathematics -/

namespace Math

@[simp] theorem onSuccess_finite {x : Float} : OnSuccess (fun y : Float => y.isFinite) (finite x) := by
  unfold finite
  split
  · exact onSuccess_ok.2 ‹_›
  · exact onSuccess_error.2 trivial

theorem isFinite_sign (x : Float) : (sign x).isFinite := by
  unfold sign
  split
  · decide +kernel
  · split <;> decide +kernel

variable {name : String} {default : Float}

theorem unary_guarded {f : Float → Outcome Float} (hf : ∀ x, OnSuccess (fun y : Float => y.isFinite) (f x)) :
    (unary name f).Guarded s :=
  guarded_of_pure fun _ _ => .after fun x => (hf x).bind fun _ hy => onSuccess_pure.2 (Value.isFinite_number.2 hy)

theorem withDefault_guarded {f : Float → Float → Outcome Float}
    (hf : ∀ x y, OnSuccess (fun z : Float => z.isFinite) (f x y)) : (withDefault name default f).Guarded s :=
  guarded_of_pure fun _ _ => .after fun x => .after fun y =>
    (hf x y).bind fun _ hz => onSuccess_pure.2 (Value.isFinite_number.2 hz)

theorem binary_guarded {f : Float → Float → Outcome Float}
    (hf : ∀ x y, OnSuccess (fun z : Float => z.isFinite) (f x y)) : (binary name f).Guarded s :=
  guarded_of_pure fun _ _ => .after fun x => .after fun y =>
    (hf x y).bind fun _ hz => onSuccess_pure.2 (Value.isFinite_number.2 hz)

end Math

open Math in
theorem math_guarded : ∀ f ∈ mathFunctions, f.Guarded s := by
  have hratio : circleRatio.isFinite := by decide +kernel
  repeat first
    | exact List.forall_mem_nil _
    | refine List.forall_mem_cons.2 ⟨unary_guarded fun _ => by
        simp [squareRoot, naturalLog, commonLog, isFinite_sign], ?_⟩
    | refine List.forall_mem_cons.2 ⟨binary_guarded fun _ _ => by simp [power, modulo], ?_⟩
    | refine List.forall_mem_cons.2 ⟨withDefault_guarded fun _ _ => by
        simp [Math.round, floorTo, ceilingTo, logarithm, Value.isFinite_zero], ?_⟩
    | refine List.forall_mem_cons.2 ⟨guarded_of_pure fun _ _ => onSuccess_ok.2 (Value.isFinite_number.2 hratio), ?_⟩

/-! ### Finance -/

namespace Financial

@[simp] theorem onSuccess_finite {x : Float} : OnSuccess (fun y : Float => y.isFinite) (finite x) := by
  unfold finite
  split
  · exact onSuccess_ok.2 ‹_›
  · exact onSuccess_error.2 trivial

/-- A step that would leave the finite floats ends the approximation. -/
theorem newton_finite {f : Float → Option (Float × Float)} (budget : Nat) :
    ∀ x, OnSuccess (fun a => ∀ y, a = .settled y → y.isFinite) (newton f budget x) := by
  induction budget with
  | zero => exact fun _ => onSuccess_ok.2 nofun
  | succ budget ih =>
    intro x
    rw [newton]
    split
    · exact onSuccess_error.2 trivial
    · split
      · exact onSuccess_error.2 trivial
      · dsimp only
        split
        · exact onSuccess_error.2 trivial
        · split
          · rename_i hfinite _
            refine onSuccess_ok.2 fun y hy => ?_
            cases hy
            simpa using hfinite
          · exact ih _

theorem rate_finite (periods payment present future timing guess : Float) (budget : Nat) :
    OnSuccess (fun y : Float => y.isFinite) (rate periods payment present future timing guess budget) := by
  unfold rate
  dsimp only
  split
  · exact onSuccess_error.2 trivial
  · refine (newton_finite budget guess).bind fun a ha => ?_
    cases a with
    | settled x => exact onSuccess_pure.2 (ha x rfl)
    | unsettled x => exact onSuccess_throw.2 trivial

theorem internalRate_finite (flows : List Float) (guess : Float) (budget : Nat) :
    OnSuccess (fun y : Float => y.isFinite) (internalRate flows guess budget) := by
  unfold internalRate
  dsimp only
  split
  · exact onSuccess_error.2 trivial
  · refine .after fun a => ?_
    cases a with
    | settled x => exact onSuccess_finite
    | unsettled x => exact onSuccess_finite

theorem netPresentValue_finite (rate : Float) (payments : List Float) :
    OnSuccess (fun y : Float => y.isFinite) (netPresentValue rate payments) := by
  simp [netPresentValue]

theorem annuity_guarded {name : String} {f : Float → Float → Float → Float → Float → Outcome Float}
    (hf : ∀ a b c d e, OnSuccess (fun y : Float => y.isFinite) (f a b c d e)) : (annuity name f).Guarded s :=
  guarded_of_pure fun _ _ => .after fun a => .after fun b => .after fun c => .after fun d => .after fun e =>
    (hf a b c d e).bind fun _ hy => onSuccess_pure.2 (Value.isFinite_number.2 hy)

end Financial

open Financial in
theorem financial_guarded : ∀ f ∈ financialFunctions, f.Guarded s := by
  refine List.forall_mem_cons.2 ⟨annuity_guarded fun _ _ _ _ _ => by simp [presentValue], ?_⟩
  refine List.forall_mem_cons.2 ⟨annuity_guarded fun _ _ _ _ _ => by simp [futureValue], ?_⟩
  refine List.forall_mem_cons.2 ⟨annuity_guarded fun _ _ _ _ _ => by simp [payment], ?_⟩
  refine List.forall_mem_cons.2 ⟨annuity_guarded fun _ _ _ _ _ => by
    simp [periods, periodsWithoutInterest, Value.isFinite_zero], ?_⟩
  refine List.forall_mem_cons.2 ⟨guarded_of_pure fun vs _ => ?_, ?_⟩
  · exact .after fun _ => .after fun _ => .after fun _ => .after fun _ => .after fun _ => .after fun _ =>
      (rate_finite _ _ _ _ _ _ _).bind fun _ hy => onSuccess_pure.2 (Value.isFinite_number.2 hy)
  refine List.forall_mem_cons.2 ⟨guarded_of_pure fun vs _ => ?_, List.forall_mem_singleton.2 ?_⟩
  · exact .after fun _ => .after fun _ =>
      (netPresentValue_finite _ _).bind fun _ hy => onSuccess_pure.2 (Value.isFinite_number.2 hy)
  · exact guarded_of_pure fun vs _ => .after fun _ => .after fun _ =>
      (internalRate_finite _ _ _).bind fun _ hy => onSuccess_pure.2 (Value.isFinite_number.2 hy)

/-! ### Texts and tables -/

theorem text_guarded [RegexLibrary] : ∀ f ∈ textFunctions, f.Guarded s := by
  repeat first
    | exact List.forall_mem_nil _
    | refine List.forall_mem_cons.2 ⟨guarded_of_mem (by decide), ?_⟩
    | refine List.forall_mem_cons.2 ⟨guarded_of_pure fun _ _ => .after fun s => .after fun t =>
        onSuccess_pure.2 (.boolean (s == t)), ?_⟩

open Lookup in
theorem lookup_guarded [RegexLibrary] : ∀ f ∈ lookupFunctions, f.Guarded s := by
  have hP := Value.IsFinite.hereditary
  refine List.forall_mem_cons.2 ⟨guarded_of_pure fun _ h => vertical_keeps hP h, ?_⟩
  refine List.forall_mem_cons.2 ⟨guarded_of_pure fun _ h => horizontal_keeps hP h, ?_⟩
  refine List.forall_mem_cons.2 ⟨guarded_of_mem (by decide), ?_⟩
  refine List.forall_mem_cons.2 ⟨guarded_of_pure fun _ h => index_keeps hP h, ?_⟩
  refine List.forall_mem_cons.2 ⟨guarded_of_pure fun _ h => aligned_keeps hP h, ?_⟩
  refine List.forall_mem_cons.2 ⟨guarded_of_pure fun _ h => choose_keeps h, ?_⟩
  refine List.forall_mem_cons.2 ⟨guarded_of_mem (by decide), List.forall_mem_singleton.2 (guarded_of_mem (by decide))⟩

/-! ### Dates -/

namespace DateFunction

open Calendar (Date Clock)

variable {vs : List Value}

theorem onSuccess_orElse {α : Type} {Q : α → Prop} {e : ErrorValue} {x : Option α} :
    OnSuccess Q (orElse e x) ↔ ∀ a, x = some a → Q a := by
  cases x with
  | none => exact ⟨fun _ => nofun, fun _ => onSuccess_error.2 trivial⟩
  | some a => exact onSuccess_ok.trans ⟨fun h _ ha => Option.some.inj ha ▸ h, fun h => h a rfl⟩

theorem validSerial_finite (x : Float) : OnSuccess (fun y : Float => y.isFinite ∧ ¬y < 0.0) (validSerial x) := by
  unfold validSerial
  split
  · exact onSuccess_error.2 trivial
  · rename_i hvalid
    refine onSuccess_ok.2 ?_
    simp only [Bool.or_eq_true, decide_eq_true_eq, Bool.not_eq_true', not_or, Bool.not_eq_false] at hvalid
    exact ⟨hvalid.2, hvalid.1⟩

theorem serialArg_finite (i : Nat) : OnSuccess (fun y : Float => y.isFinite ∧ ¬y < 0.0) (serialArg s vs i) := by
  unfold serialArg
  split
  · exact .after fun x => validSerial_finite x
  · exact onSuccess_error.2 trivial

theorem numberResult_finite {x : Float} (h : x.isFinite) : (numberResult x).IsFinite := Value.isFinite_number.2 h

theorem intResult_finite {z : Int} (h : |z| ≤ 2 ^ 63) : (intResult z).IsFinite :=
  Value.isFinite_number.2 (Binary64.isFinite_ofInt h)

theorem validResult_finite (x : Float) : OnSuccess Value.IsFinite (do return numberResult (← validSerial x)) :=
  (validSerial_finite x).bind fun _ hy => onSuccess_pure.2 (numberResult_finite hy.1)

theorem date_finite : OnSuccess Value.IsFinite (date vs) := by
  unfold date
  refine .after fun year => .after fun month => .after fun day => ?_
  dsimp only
  split
  · exact onSuccess_error.2 trivial
  · split
    · exact onSuccess_error.2 trivial
    · exact .after fun serial => validResult_finite serial

theorem isFinite_secondsOfDay {total : Float} (htotal : total.isFinite) : (secondsOfDay total).isFinite := by
  unfold secondsOfDay
  split
  · exact htotal
  · have hday : 0 < (Calendar.secondsPerDay : Int) := by decide
    have hlt := Int.emod_lt_of_pos (Binary64.wholePart total) hday
    refine Binary64.isFinite_ofInt ?_
    rw [abs_of_nonneg (Int.emod_nonneg _ hday.ne')]
    exact hlt.le.trans (by decide)

theorem time_finite : OnSuccess Value.IsFinite (time vs) := by
  refine .after fun hour => .after fun minute => .after fun second => ?_
  refine (validSerial_finite _).bind fun total htotal => onSuccess_pure.2 ?_
  exact numberResult_finite (Calendar.isFinite_partOfDay (isFinite_secondsOfDay htotal.1))

theorem civilPart_finite {part : Calendar.Civil → Int}
    (hpart : ∀ x c, Calendar.serialCivil? x = some c → |part c| ≤ 2 ^ 63) :
    OnSuccess Value.IsFinite (civilPart part s vs) :=
  .after fun x => (onSuccess_orElse.2 (hpart x)).bind fun _ hc => onSuccess_pure.2 (intResult_finite hc)

theorem clockPart_finite {part : Clock → Nat}
    (hpart : ∀ x d c, Calendar.serialTime? x = some (d, c) → part c ≤ Calendar.secondsPerDay) :
    OnSuccess Value.IsFinite (clockPart part s vs) := by
  refine .after fun x => (onSuccess_orElse.2 fun dc hdc => hpart x dc.1 dc.2 hdc).bind fun dc hdc => ?_
  refine onSuccess_pure.2 (intResult_finite ?_)
  rw [Nat.abs_cast]
  exact_mod_cast hdc.trans (by decide)

theorem weekday_finite : OnSuccess Value.IsFinite (weekday s vs) := by
  refine .after fun serial => .after fun kind => ?_
  have hday : ∀ n : Int, 0 ≤ n → n ≤ 7 → (intResult n).IsFinite := fun n hnonneg hle =>
    intResult_finite (abs_le.2 ⟨by omega, by omega⟩)
  split
  · exact onSuccess_pure.2 (hday _ (by omega) (by omega))
  · exact onSuccess_pure.2 (hday _ (by omega) (by omega))
  · exact onSuccess_pure.2 (hday _ (by omega) (by omega))
  · exact onSuccess_error.2 trivial

theorem distance_le {days : Int} (hdays : |days| ≤ 2 ^ 63) (start finish : Date) (unit : DateFunction.Unit) :
    OnSuccess (fun z : Int => |z| ≤ 2 ^ 63) (distance start finish days unit) := by
  have hmonths : |wholeMonths start finish| ≤ 2 ^ 40 := by
    have hstart := start.abs_year_le
    have hfinish := finish.abs_year_le
    have hstart' := start.month_le
    have hfinish' := finish.month_le
    rw [abs_le] at *
    unfold wholeMonths
    dsimp only
    split <;> omega
  have hafter : ∀ months, OnSuccess (fun z : Int => |z| ≤ 2 ^ 63) (daysAfterMonths start finish months) := by
    intro months
    refine .after fun moved => onSuccess_pure.2 ?_
    have hfinish := finish.abs_dayNumber_le
    have hmoved := moved.abs_dayNumber_le
    rw [abs_le] at *
    omega
  have hsmall : ∀ z : Int, z.natAbs ≤ (wholeMonths start finish).natAbs → |z| ≤ 2 ^ 63 := by
    intro z hz
    rw [Int.abs_eq_natAbs] at hmonths ⊢
    omega
  unfold distance
  dsimp only
  split
  · exact onSuccess_ok.2 (hsmall _ (Int.natAbs_tdiv_le_natAbs _ _))
  · exact onSuccess_ok.2 (hsmall _ le_rfl)
  · exact onSuccess_ok.2 hdays
  · refine onSuccess_ok.2 (hsmall _ ?_)
    rw [Int.natAbs_tmod]
    exact Nat.mod_le _ _
  · exact hafter _
  · exact hafter _

theorem dateDifference_finite : OnSuccess Value.IsFinite (dateDifference s vs) := by
  refine .after fun start => .after fun finish => .after fun code => ?_
  dsimp only
  split
  · exact onSuccess_error.2 trivial
  · refine .after fun first => .after fun last => .after fun unit => ?_
    exact (distance_le (Binary64.abs_toInt64Range_le _) first last unit).bind fun _ hz =>
      onSuccess_pure.2 (intResult_finite hz)

theorem days_finite : OnSuccess Value.IsFinite (days s vs) :=
  (serialArg_finite 0).bind fun _ hx => (serialArg_finite 1).bind fun _ hy =>
    onSuccess_pure.2 (numberResult_finite (Binary64.isFinite_sub_truncate hx.1 hx.2 hy.1 hy.2))

theorem sameDay_finite : OnSuccess Value.IsFinite (sameDay s vs) :=
  .after fun _ => .after fun _ => .after fun _ => validResult_finite _

theorem lastDay_finite : OnSuccess Value.IsFinite (lastDay s vs) :=
  .after fun _ => .after fun _ => .after fun _ => validResult_finite _

theorem dateOfText_finite : OnSuccess Value.IsFinite (dateOfText s vs) := by
  unfold dateOfText
  split
  · refine (onSuccess_orElse.2 fun d hd => Calendar.isFinite_of_parseDate? hd).bind fun d hd => onSuccess_pure.2 ?_
    exact numberResult_finite (Binary64.isFinite_floor hd)
  · exact onSuccess_error.2 trivial
  · exact onSuccess_error.2 trivial

end DateFunction

open DateFunction in
/-- The time of the surroundings has to be one of a day. -/
theorem date_guarded (hclock : s.clock.seconds < Calendar.secondsPerDay) : ∀ f ∈ dateFunctions, f.Guarded s := by
  have hsmall : ∀ n : Nat, n ≤ 366 → |(n : Int)| ≤ 2 ^ 63 := fun n hn => by
    rw [Nat.abs_cast]
    omega
  have hcivil : ∀ x c, Calendar.serialCivil? x = some c →
      |c.year| ≤ 2 ^ 63 ∧ |(c.month : Int)| ≤ 2 ^ 63 ∧ |(c.day : Int)| ≤ 2 ^ 63 := by
    intro x c hc
    obtain ⟨hyear, hmonth, hday⟩ := Calendar.serialCivil?_le hc
    exact ⟨hyear.trans (by decide), hsmall _ (hmonth.trans (by decide)), hsmall _ hday⟩
  have htime := fun x d c => @Calendar.serialTime?_le x d c
  refine List.forall_mem_cons.2 ⟨guarded_of_pure fun _ _ => date_finite, ?_⟩
  refine List.forall_mem_cons.2 ⟨guarded_of_pure fun _ _ => time_finite, ?_⟩
  refine List.forall_mem_cons.2 ⟨guarded_of_pure fun _ _ => dateDifference_finite, ?_⟩
  refine List.forall_mem_cons.2 ⟨guarded_of_pure fun _ _ => onSuccess_ok.2 ?_, ?_⟩
  · exact numberResult_finite (Calendar.isFinite_serialNumber s.today)
  refine List.forall_mem_cons.2 ⟨guarded_of_pure fun _ _ => onSuccess_ok.2 ?_, ?_⟩
  · exact numberResult_finite (Calendar.isFinite_serialOfTime s.today hclock)
  refine List.forall_mem_cons.2 ⟨guarded_of_pure fun _ _ => civilPart_finite fun x c hc => (hcivil x c hc).1, ?_⟩
  refine List.forall_mem_cons.2 ⟨guarded_of_pure fun _ _ => civilPart_finite fun x c hc => (hcivil x c hc).2.1, ?_⟩
  refine List.forall_mem_cons.2 ⟨guarded_of_pure fun _ _ => civilPart_finite fun x c hc => (hcivil x c hc).2.2, ?_⟩
  refine List.forall_mem_cons.2 ⟨guarded_of_pure fun _ _ => clockPart_finite fun x d c hc => (htime x d c hc).1, ?_⟩
  refine List.forall_mem_cons.2 ⟨guarded_of_pure fun _ _ => clockPart_finite fun x d c hc => (htime x d c hc).2.1, ?_⟩
  refine List.forall_mem_cons.2 ⟨guarded_of_pure fun _ _ => clockPart_finite fun x d c hc => (htime x d c hc).2.2, ?_⟩
  refine List.forall_mem_cons.2 ⟨guarded_of_pure fun _ _ => weekday_finite, ?_⟩
  refine List.forall_mem_cons.2 ⟨guarded_of_pure fun _ _ => sameDay_finite, ?_⟩
  refine List.forall_mem_cons.2 ⟨guarded_of_pure fun _ _ => lastDay_finite, ?_⟩
  refine List.forall_mem_cons.2 ⟨guarded_of_pure fun _ _ => days_finite, ?_⟩
  exact List.forall_mem_singleton.2 (guarded_of_pure fun _ _ => dateOfText_finite)

/-- All other built-in functions give finite values if they are given such. -/
theorem builtin_guarded [RegexLibrary] (hclock : s.clock.seconds < Calendar.secondsPerDay) :
    ∀ f ∈ builtinFunctions, f.Guarded s := by
  have hlogical : ∀ f ∈ logicalFunctions, f.Guarded s := fun f hf _ =>
    logical_keeps Value.IsFinite.hereditary s f hf
  simp only [builtinFunctions, List.forall_mem_append]
  exact ⟨⟨⟨⟨⟨⟨statistical_guarded, math_guarded⟩, hlogical⟩, text_guarded⟩, lookup_guarded⟩, financial_guarded⟩,
    date_guarded hclock⟩

end Functions

end Spreadsheet
