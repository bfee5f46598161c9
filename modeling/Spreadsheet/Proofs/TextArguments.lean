import Spreadsheet.Proofs.DateArguments

/-!
# Calls of text functions with whole numbers

A count of characters is a whole number from zero on, and a place among them one from one on. Both are held within 64
bits when they are read, which is more than any text has characters.

* `Binary64.Represents.toNat64Range` : a natural number as it is read off a float;
* `TextFunction.countArg_eq`, `TextFunction.placeArg_eq` : counts and places as arguments;
* `TextFunction.gives_iff_of_getElem?` : the calls of a text function.
-/

namespace Spreadsheet

open Binary64 (Represents represents_zero represents_one)

theorem Binary64.Represents.toNat64Range {x : Float} {n : ℕ} (h : Represents x (n : ℤ)) :
    toNat64Range x = min n (2 ^ 64 - 1) := by
  rw [Binary64.toNat64Range, saturate_of_represents h]
  omega

namespace TextFunction

variable {arguments : List Value} {v : Value} {i k : ℕ}

/-! ## Arguments -/

theorem optionalNumber_eq {x default : Float} (hk : arguments[k]? = some (.number x)) :
    optionalNumber arguments k default = .ok x := by
  rw [optionalNumber, isMissing, numberArg, hk]
  rfl

theorem countArg_eq {default : Float} (hk : arguments[k]? = some v) (hv : v.Holds i) :
    countArg arguments k default = .ok (min i (2 ^ 64 - 1)) := by
  obtain ⟨x, rfl, hx⟩ := hv
  have hleast : ¬x < 0.0 := by
    rw [hx.lt_iff represents_zero]
    exact_mod_cast i.not_lt_zero
  rw [countArg, optionalNumber_eq hk, ok_bind, if_neg hleast, hx.toNat64Range]
  rfl

theorem placeArg_eq (hk : arguments[k]? = some v) (hv : v.Holds i) (hi : 1 ≤ i) :
    placeArg arguments k = .ok (min i (2 ^ 64 - 1)) := by
  obtain ⟨x, rfl, hx⟩ := hv
  have hleast : ¬x < 1.0 := by
    rw [hx.lt_iff represents_one]
    exact_mod_cast hi.not_gt
  rw [placeArg, optionalNumber_eq hk, ok_bind, if_neg hleast, hx.toNat64Range]
  rfl

/-- What stands before a place, however large. -/
theorem before_min (hk : 1 ≤ k) : before (min k (2 ^ 64 - 1)) = min k (2 ^ 64 - 1) - 1 :=
  if_neg (by omega)

/-! ## Calls -/

section Calls

variable [RegexLibrary]

theorem gives_iff_of_getElem? {name : String} {least most j : ℕ} {g : List Value → Outcome Value}
    (hj : textFunctions[j]? = some (function name least most g)) (hleast : least ≤ arguments.length)
    (hmost : arguments.length ≤ most) : Gives name arguments v ↔ (g arguments).toValue = v := by
  have hmem : function name least most g ∈ builtinFunctions := by
    simp [builtinFunctions, List.mem_of_getElem? hj]
  have hgives : Gives name arguments (g arguments).toValue :=
    gives_of_mem (f := function name least most g) hmem rfl hleast fun n hn => Option.some.inj hn ▸ hmost
  exact hgives.iff_eq

theorem gives_of_getElem? {name : String} {least most j : ℕ} {g : List Value → Outcome Value}
    (hj : textFunctions[j]? = some (function name least most g)) (hleast : least ≤ arguments.length)
    (hmost : arguments.length ≤ most) (hv : g arguments = .ok v) : Gives name arguments v :=
  (gives_iff_of_getElem? hj hleast hmost).2 (congrArg Outcome.toValue hv)

end Calls

end TextFunction

end Spreadsheet
