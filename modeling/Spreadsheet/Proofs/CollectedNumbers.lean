import Spreadsheet.Proofs.ExactFloats
import Spreadsheet.Proofs.OrderStatistics

/-!
# The numbers of arguments

Aggregates collect the numbers of their arguments, and the first error value ends that. `COUNT` goes through the
arguments on its own and passes over errors. What counts as a number is the same for both: any number, and of the values
that are given directly also truth values and numeric text.

* `Statistical.numbersOf`, `Statistical.firstError?` : the numbers and the first error value of some arguments;
* `Statistical.collectNumbers_eq`, `Statistical.count_eq` : what is collected, and what is counted;
* `Statistical.gives_ofNumbers_iff` : what the aggregates of numbers give;
* `Statistical.sum_count_average` : the sum, the count and the average are about the same numbers.
-/

namespace Spreadsheet.Statistical

open Binary64 (Number)

/-! ## Numbers and errors -/

/-- The numbers that an argument adds: those in a grid, or of a single value what it is as a number. -/
def addends : Value → List Number
  | .array rows => rows.flatten.filterMap numeric?
  | .number x => [x]
  | .boolean b => [.ofFloat (Value.ofTruth b)]
  | .text s => (Decimal.trimmedNumber? s).toList
  | .error _ => []
  | .empty => []

/-- The numbers of all arguments, in their order and row by row. -/
def numbersOf (values : List Value) : List Number := values.flatMap addends

/-- The first error value, in the order of the arguments and row by row. -/
def firstError? (values : List Value) : Option ErrorValue := (scalars values).findSome? Value.error?

variable {values : List Value} {v : Value}

theorem argumentNumbers_eq (v : Value) : argumentNumbers v =
    match (cellsOf v).findSome? Value.error? with
    | some e => .error e
    | none => .ok (addends v) := by
  cases v with
  | array rows => exact gather_cellNumbers rows.flatten
  | _ => rfl

theorem firstError?_cons (v : Value) (values : List Value) :
    firstError? (v :: values) = ((cellsOf v).findSome? Value.error?).or (firstError? values) := by
  rw [firstError?, scalars, List.flatMap_cons, List.findSome?_append]
  rfl

theorem numbersOf_cons (v : Value) (values : List Value) : numbersOf (v :: values) = addends v ++ numbersOf values :=
  List.flatMap_cons

/-- All numbers are collected unless there is an error value. -/
theorem collectNumbers_eq (values : List Value) : collectNumbers values =
    match firstError? values with
    | some e => .error e
    | none => .ok (numbersOf values) := by
  induction values with
  | nil => rfl
  | cons v values ih =>
    have hrest : gather argumentNumbers values = collectNumbers values := rfl
    rw [collectNumbers, gather_cons, argumentNumbers_eq, hrest, ih, firstError?_cons, numbersOf_cons]
    cases (cellsOf v).findSome? Value.error? with
    | some e => rfl
    | none => cases firstError? values <;> rfl

theorem numberCount_eq (v : Value) : numberCount v = (addends v).length := by
  cases v with
  | array rows =>
    rw [numberCount, addends, List.length_filterMap_eq_countP]
    refine List.countP_congr fun v _ => ?_
    cases v <;> simp [numeric?]
  | text s =>
    rw [numberCount, Decimal.trimmedFloat?, addends, Option.isSome_map]
    cases Decimal.trimmedNumber? s <;> rfl
  | _ => rfl

/-- All numbers are counted, whether or not there is an error value. -/
theorem count_eq (values : List Value) : count values = .ok (countOf (numbersOf values).length) := by
  have hfold : ∀ n, values.foldl (fun n v => n + numberCount v) n = n + (numbersOf values).length := by
    induction values with
    | nil => exact fun n => rfl
    | cons v values ih =>
      intro n
      rw [List.foldl_cons, ih, numberCount_eq, numbersOf_cons, List.length_append, Nat.add_assoc]
  rw [count, hfold, Nat.zero_add]

/-! ## Calls -/

/-- An aggregate of numbers is one of all numbers, or the first error value. -/
theorem gives_ofNumbers_iff [RegexLibrary] {i : ℕ} {name : String} {f : List Number → Outcome Number}
    (hi : statisticalFunctions[i]? = some (aggregate name (ofNumbers f))) (hvalues : values ≠ []) :
    Gives name values v ↔ (match firstError? values with
      | some e => .error e
      | none => Outcome.toValue (Value.number <$> f (numbersOf values))) = v := by
  rw [gives_aggregate_iff hi hvalues, ofNumbers, collectNumbers_eq]
  cases firstError? values with
  | some e => rfl
  | none => rw [ok_bind, map_eq_pure_bind]

section Names

variable (hvalues : values ≠ [])
include hvalues

theorem gives_count [RegexLibrary] : Gives "COUNT" values (.number (Float.ofNat (numbersOf values).length)) :=
  (gives_aggregate_iff (i := 4) rfl hvalues).2 (congrArg Outcome.toValue (count_eq values))

theorem gives_sum_iff [RegexLibrary] : Gives "SUM" values v ↔ (match firstError? values with
    | some e => .error e
    | none => .number (sum (numbersOf values))) = v :=
  gives_ofNumbers_iff (i := 0) rfl hvalues

theorem gives_average_iff [RegexLibrary] : Gives "AVERAGE" values v ↔ (match firstError? values with
    | some e => .error e
    | none => meanOf (.ok (numbersOf values))) = v := by
  rw [gives_ofNumbers_iff (i := 1) rfl hvalues]
  cases numbersOf values <;> rfl

theorem gives_count_zero_iff [RegexLibrary] : Gives "COUNT" values (.number (0.0 : Float)) ↔ numbersOf values = [] := by
  rw [(gives_count hvalues).iff_eq, ← List.length_eq_zero_iff, ← Binary64.ofNat_eq_zero_iff]
  constructor
  · intro h
    exact Number.ofFloat.inj (Value.number.inj h)
  · intro h
    rw [h]

/-- Without error values the count is how many numbers the sum adds up, there is no average where it is zero, and
otherwise the average is the sum divided by the count. The first error value takes the place of the sum and of the
average, but the numbers are still counted. -/
theorem sum_count_average [RegexLibrary] :
    Gives "COUNT" values (.number (Float.ofNat (numbersOf values).length)) ∧
    (firstError? values = none →
      Gives "SUM" values (.number (sum (numbersOf values))) ∧
      (Gives "AVERAGE" values (.error .divisionByZero) ↔ Gives "COUNT" values (.number (0.0 : Float))) ∧
      ∀ total count : Number, Gives "SUM" values (.number total) → Gives "COUNT" values (.number count) →
        ¬Gives "COUNT" values (.number (0.0 : Float)) → Gives "AVERAGE" values (.number (total / count))) ∧
    ∀ e, firstError? values = some e → Gives "SUM" values (.error e) ∧ Gives "AVERAGE" values (.error e) := by
  refine ⟨gives_count hvalues, fun hclean => ?_, fun e he => ?_⟩
  · have hsum := gives_sum_iff (v := .number (sum (numbersOf values))) hvalues
    have haverage := fun v => gives_average_iff (v := v) hvalues
    rw [hclean] at hsum haverage
    have hsum := hsum.2 rfl
    refine ⟨hsum, ?_, fun total count htotal hcount hsome => ?_⟩
    · rw [haverage, gives_count_zero_iff hvalues]
      cases numbersOf values <;> simp [meanOf]
    · rw [gives_count_zero_iff hvalues] at hsome
      obtain rfl := Value.number.inj (hsum.unique htotal)
      obtain rfl := Value.number.inj ((gives_count hvalues).unique hcount)
      rw [haverage]
      cases hnumbers : numbersOf values with
      | nil => exact absurd hnumbers hsome
      | cons x xs => rfl
  · rw [gives_sum_iff hvalues, gives_average_iff hvalues, he]
    exact ⟨rfl, rfl⟩

end Names

/-- A truth value and text, given directly and in a grid. -/
def mixedValues : List Value :=
  [.boolean true, .text " 2 ", .text "two", .empty, .array [[.number (6.0 : Float), .boolean true], [.text "8", .empty]]]

/-- The same behind two error values. -/
def brokenValues : List Value := .array [[.empty, .error .ref]] :: .error .num :: mixedValues

/-- The truth value, the text and the number in the grid are nine together; with an error value before them and one
among them they are still counted. -/
theorem sum_count_average_mixed :
    mixedValues ≠ [] ∧ firstError? mixedValues = none ∧ Gives "COUNT" mixedValues (.number (3.0 : Float)) ∧
    Gives "SUM" mixedValues (.number (9.0 : Float)) ∧ Gives "AVERAGE" mixedValues (.number (3.0 : Float)) ∧
    firstError? brokenValues = some .ref ∧ Gives "COUNT" brokenValues (.number (3.0 : Float)) ∧
    Gives "AVERAGE" brokenValues (.error .ref) := by
  have hclean : firstError? mixedValues = none := by decide +kernel
  have hbroken : firstError? brokenValues = some .ref := by decide +kernel
  have hlength : (numbersOf mixedValues).length = 3 := by decide +kernel
  have hsum : sum (numbersOf mixedValues) = .ofFloat 9.0 := Number.totalKey_injective (by decide +kernel)
  have hthird : Number.ofFloat 9.0 / Number.ofFloat (Float.ofNat 3) = .ofFloat 3.0 :=
    Number.totalKey_injective (by decide +kernel)
  have hmixed : mixedValues ≠ [] := List.cons_ne_nil _ _
  have hbehind : brokenValues ≠ [] := List.cons_ne_nil _ _
  obtain ⟨hcount, hnumbers, -⟩ := sum_count_average hmixed
  obtain ⟨hcount', -, herror⟩ := sum_count_average hbehind
  obtain ⟨htotal, -, hmean⟩ := hnumbers hclean
  have hsome : ¬Gives "COUNT" mixedValues (.number (0.0 : Float)) := fun hzero => by
    have hnumber := Number.ofFloat.inj (Value.number.inj (hcount.unique hzero))
    rw [Binary64.ofNat_eq_zero_iff, hlength] at hnumber
    cases hnumber
  have hmean := hmean _ _ htotal hcount hsome
  rw [hlength] at hcount hmean
  rw [hsum] at htotal hmean
  rw [hthird] at hmean
  exact ⟨hmixed, hclean, hcount, htotal, hmean, hbroken, hcount', (herror _ hbroken).2⟩

end Spreadsheet.Statistical
