import Spreadsheet.Function.Statistical
import Spreadsheet.Regex.Tables

/-!
# Criteria for equality

The criteria `=x` and `<>x` read their operand `x` in the same way, as nothing, a number, a truth value or a pattern,
and one of them should pick what the other does not. Two kinds of texts are picked by both: an empty text is a blank
where blanks are asked for, and still not one where they are not; and a text that is read as the number `x` equals it,
while it also counts as no number and thus as different from it. An error value is not blank, and picked for nothing
else.

* `Criterion.ofEquality` : what the two criteria ask for;
* `Criterion.picks` : how many of them pick a value;
* `Criterion.pickedTwice` : the values that both of them pick;
* `Criterion.equality_opposite` : one of them picks any other value but an error, and their counts in a range.
-/

namespace Spreadsheet.Criterion

open Text (equalIgnoringAsciiCase)

/-- What is asked for by `=` and an operand, or by `<>` if it is negated. -/
def ofEquality [RegexLibrary] (negated : Bool) (x : String) : Criterion :=
  let op : Comparison := if negated then .notEqual else .equal
  if x = "" then if negated then notBlank else blank
  else match Decimal.trimmedFloat? x with
    | some a => number op a
    | none =>
      if equalIgnoringAsciiCase x "TRUE" then boolean op true
      else if equalIgnoringAsciiCase x "FALSE" then boolean op false
      else pattern negated (TextPattern.ofText x)

variable {x : String}

/-- The criterion that a text writes after what it begins with is split off. -/
theorem ofText_of_split [RegexLibrary] {s : String} {negated : Bool}
    (h : Comparison.split s.toList = (if negated then .notEqual else .equal, x.toList)) :
    ofText s = ofEquality negated x := by
  have hempty : x.toList.isEmpty = decide (x = "") := by
    rw [Bool.eq_iff_iff, List.isEmpty_iff, decide_eq_true_iff, String.toList_eq_nil_iff]
  rw [ofText, h]
  simp only [String.ofList_toList, hempty, decide_eq_true_eq, ofEquality]
  cases negated <;> rfl

theorem ofText_equal [RegexLibrary] (x : String) : ofText ("=" ++ x) = ofEquality false x :=
  ofText_of_split (by rw [String.toList_append]; rfl)

theorem ofText_notEqual [RegexLibrary] (x : String) : ofText ("<>" ++ x) = ofEquality true x :=
  ofText_of_split (by rw [String.toList_append]; rfl)

/-! ## What both criteria pick -/

/-- Whether a value is a text with nothing in it. -/
def isEmptyText : Value → Bool
  | .text s => s.isEmpty
  | _ => false

/-- Whether a value is a text that is read as a number close to a given one. -/
def readsClose (a : Float) : Value → Bool
  | .text s => (Decimal.trimmedFloat? s).any fun b => compareClosely b a == .eq
  | _ => false

/-- Whether a value is an empty text where no operand is given, or a text that is read as the number of the operand. -/
def pickedTwice (x : String) (v : Value) : Bool :=
  if x = "" then isEmptyText v else (Decimal.trimmedFloat? x).any fun a => readsClose a v

/-- How many of two criteria pick a value. -/
def picks (c d : Criterion) (v : Value) : Nat := (c.accepts v).toNat + (d.accepts v).toNat

theorem toNat_add_toNat_not (b : Bool) : b.toNat + (!b).toNat = 1 := by cases b <;> rfl

theorem ne_iff_of_toNat_add_toNat {b c twice : Bool} (h : b.toNat + c.toNat = 1 + twice.toNat) :
    b ≠ c ↔ twice = false := by
  revert h
  cases b <;> cases c <;> cases twice <;> decide

theorem picks_blank (v : Value) : picks blank notBlank v = 1 + (isEmptyText v).toNat := by
  cases v with
  | text s =>
    rw [picks, accepts, isEmptyText, Nat.add_comm]
    rfl
  | _ => rfl

theorem picks_number (a : Float) (v : Value) :
    picks (number .equal a) (number .notEqual a) v = (!v.isError).toNat + (readsClose a v).toNat := by
  cases v with
  | number y => exact toNat_add_toNat_not _
  | text s =>
    have hequal : (number .equal a).accepts (.text s) = readsClose a (.text s) := by
      rw [accepts, readsClose]
      cases Decimal.trimmedFloat? s <;> rfl
    rw [picks, hequal, Nat.add_comm]
    rfl
  | _ => rfl

theorem picks_boolean (b : Bool) (v : Value) :
    picks (boolean .equal b) (boolean .notEqual b) v = (!v.isError).toNat := by
  cases v with
  | boolean c => exact toNat_add_toNat_not _
  | _ => rfl

theorem picks_pattern (p : TextPattern) (v : Value) :
    picks (pattern false p) (pattern true p) v = (!v.isError).toNat := by
  cases v with
  | text s =>
    rw [picks, accepts, accepts, Bool.bne_false, Bool.bne_true]
    exact toNat_add_toNat_not _
  | _ => rfl

/-- The two criteria pick a value once if it is no error, once more if it is one of the texts that both pick, and once
if it is an error and there is no operand. -/
theorem picks_equality [RegexLibrary] (x : String) (v : Value) : picks (ofEquality false x) (ofEquality true x) v =
    (!v.isError).toNat + (pickedTwice x v).toNat + if x = "" then v.isError.toNat else 0 := by
  by_cases hx : x = ""
  · simp only [ofEquality, pickedTwice, if_pos hx, if_neg Bool.false_ne_true, if_true]
    refine (picks_blank v).trans ?_
    cases v <;> rfl
  · simp only [ofEquality, pickedTwice, if_neg hx, if_neg Bool.false_ne_true, if_true]
    cases Decimal.trimmedFloat? x with
    | some a => exact picks_number a v
    | none =>
      dsimp only
      split
      · exact picks_boolean true v
      · split
        · exact picks_boolean false v
        · exact picks_pattern _ v

/-! ## Counts -/

theorem countP_equality [RegexLibrary] (x : String) (vs : List Value) :
    vs.countP (ofEquality false x).accepts + vs.countP (ofEquality true x).accepts =
      vs.countP (!·.isError) + vs.countP (pickedTwice x) + if x = "" then vs.countP (·.isError) else 0 := by
  induction vs with
  | nil => simp
  | cons v vs ih =>
    have hpicks := picks_equality x v
    have hcons (p : Value → Bool) : (v :: vs).countP p = vs.countP p + (p v).toNat := by
      rw [List.countP_cons]
      cases p v <;> rfl
    simp only [hcons, picks] at hpicks ⊢
    by_cases hx : x = ""
    · simp only [if_pos hx] at hpicks ih ⊢
      omega
    · simp only [if_neg hx] at hpicks ih ⊢
      omega

open Statistical in
/-- Of the two criteria for an operand just one picks a value that is no error, unless it is one of the texts that both
pick. Their counts in a range add up to the number of values that are no errors, with those texts counted again and, if
there is no operand, with the errors. -/
theorem equality_opposite [RegexLibrary] (x : String) :
    (∀ v : Value, v.isError = false →
      ((ofValue (.text ("=" ++ x))).accepts v ≠ (ofValue (.text ("<>" ++ x))).accepts v ↔ pickedTwice x v = false)) ∧
    ∀ range : Value, ∃ n m : Nat, countIf [range, .text ("=" ++ x)] = .ok (countOf n) ∧
      countIf [range, .text ("<>" ++ x)] = .ok (countOf m) ∧
      n + m = (cellsOf range).countP (!·.isError) + (cellsOf range).countP (pickedTwice x) +
        if x = "" then (cellsOf range).countP (·.isError) else 0 := by
  simp only [ofValue, ofText_equal, ofText_notEqual]
  refine ⟨fun v hv => ?_, fun range => ?_⟩
  · have hpicks := picks_equality x v
    rw [hv, Bool.toNat_false, ite_self] at hpicks
    exact ne_iff_of_toNat_add_toNat hpicks
  · have hscalars : scalars [range] = cellsOf range := List.append_nil _
    refine ⟨_, _, ?_, ?_, countP_equality x (cellsOf range)⟩
    · rw [← hscalars, ← ofText_equal]
      rfl
    · rw [← hscalars, ← ofText_notEqual]
      rfl

open Statistical in
theorem equality_opposite_five : Value.isError (.text "x") = false ∧
    (ofValue (.text "=5")).accepts (.text "x") ≠ (ofValue (.text "<>5")).accepts (.text "x") ∧
    ∃ n m : Nat,
      countIf [.array [[.number (5.0 : Float), .text " 5 ", .text "x", .error .notAvailable]], .text "=5"] =
        .ok (countOf n) ∧
      countIf [.array [[.number (5.0 : Float), .text " 5 ", .text "x", .error .notAvailable]], .text "<>5"] =
        .ok (countOf m) ∧
      n + m = 4 := by
  have hopposite := equality_opposite "5"
  refine ⟨rfl, (hopposite.1 (.text "x") rfl).2 (by decide +kernel), ?_⟩
  obtain ⟨n, m, hn, hm, hsum⟩ :=
    hopposite.2 (.array [[.number (5.0 : Float), .text " 5 ", .text "x", .error .notAvailable]])
  exact ⟨n, m, hn, hm, hsum.trans (by decide +kernel)⟩

/-- What a text that is read as a number and an empty text are picked by. -/
theorem equality_pickedTwice :
    (ofValue (.text "=5")).accepts (.text "5") ∧ (ofValue (.text "<>5")).accepts (.text "5") ∧
    (ofValue (.text "=")).accepts (.text "") ∧ (ofValue (.text "<>")).accepts (.text "") ∧
    ¬ ∀ (x : String) (v : Value), v.isError = false →
      (ofValue (.text ("=" ++ x))).accepts v ≠ (ofValue (.text ("<>" ++ x))).accepts v := by
  have hequal : (ofValue (.text "=5")).accepts (.text "5") := by decide +kernel
  have hdifferent : (ofValue (.text "<>5")).accepts (.text "5") := by decide +kernel
  exact ⟨hequal, hdifferent, by decide +kernel, by decide +kernel, fun h =>
    h "5" (.text "5") rfl (hequal.trans hdifferent.symm)⟩

end Spreadsheet.Criterion
