import Spreadsheet.Proofs.OrderStatistics

/-!
# Approximations and their budget

An approximation ends at the first step within the tolerance, or where there is no next step; the budget only says how
many steps are looked at. So what a budget is enough for, every larger one is enough for, and it ends the same way.

* `Financial.nextApproximation?`, `Financial.approximation?` : one step, and the approximations one after the other;
* `Financial.SettlesAt`, `Financial.FailsAt` : the step that ends an approximation, and how;
* `Financial.newton_cases` : a step within the budget ends it, or the budget runs out;
* `Financial.newton_of_settlesAt`, `Financial.newton_of_failsAt` : every budget beyond that step is enough;
* `Financial.Equation` : what a call of `RATE` or `IRR` approximates, and from where;
* `Financial.approximations_stable` : larger budgets, in an approximation and in the calls.
-/

namespace Spreadsheet.Financial

variable {f : Float → Option (Float × Float)} {x y guess : Float} {n k : ℕ}

/-! ## Steps -/

/-- The next approximation, if the function is defined and the step is neither flat nor infinite. -/
def nextApproximation? (f : Float → Option (Float × Float)) (x : Float) : Option Float :=
  match f x with
  | none => none
  | some (y, slope) =>
    if slope == 0.0 || !slope.isFinite then none
    else if (x - y / slope).isFinite then some (x - y / slope) else none

/-- The approximation after so many steps, if they can all be made. -/
def approximation? (f : Float → Option (Float × Float)) : ℕ → Float → Option Float
  | 0, guess => some guess
  | n + 1, guess => (nextApproximation? f guess).bind (approximation? f n)

/-- Whether a step is within the tolerance. -/
def IsSmallStep (x next : Float) : Prop := (next - x).abs ≤ tolerance

instance (x next : Float) : Decidable (IsSmallStep x next) := inferInstanceAs (Decidable (_ ≤ _))

/-- A step can be made and is not within the tolerance. -/
def IsLargeStep (f : Float → Option (Float × Float)) (guess : Float) (m : ℕ) : Prop :=
  ∃ x next, approximation? f m guess = some x ∧ approximation? f (m + 1) guess = some next ∧ ¬IsSmallStep x next

/-- A step is the first one within the tolerance, and leads to `x`. -/
structure SettlesAt (f : Float → Option (Float × Float)) (guess : Float) (n : ℕ) (x : Float) : Prop where
  earlier : ∀ m < n, IsLargeStep f guess m
  small : ∃ before, approximation? f n guess = some before ∧ approximation? f (n + 1) guess = some x ∧
    IsSmallStep before x

/-- A step cannot be made, and none before it was within the tolerance. -/
structure FailsAt (f : Float → Option (Float × Float)) (guess : Float) (n : ℕ) : Prop where
  earlier : ∀ m < n, IsLargeStep f guess m
  stuck : ∃ before, approximation? f n guess = some before ∧ approximation? f (n + 1) guess = none

theorem newton_succ (f : Float → Option (Float × Float)) (k : ℕ) (x : Float) :
    newton f (k + 1) x = match nextApproximation? f x with
      | none => .error .num
      | some next => if IsSmallStep x next then .ok (.settled next) else newton f k next := by
  rw [newton, nextApproximation?]
  cases f x with
  | none => rfl
  | some value =>
    obtain ⟨y, slope⟩ := value
    by_cases hflat : (slope == 0.0 || !slope.isFinite) = true
    · simp only [hflat, if_true]
    · by_cases hfinite : (x - y / slope).isFinite = true
      · simp only [hflat, hfinite, if_true, Bool.not_true, Bool.false_eq_true, if_false]
        rfl
      · simp only [hflat, hfinite, Bool.false_eq_true, if_false, Bool.not_false, if_true]

theorem isFinite_of_nextApproximation? (h : nextApproximation? f x = some y) : y.isFinite = true := by
  unfold nextApproximation? at h
  split at h
  · cases h
  · split_ifs at h with hflat hfinite
    obtain rfl := Option.some.inj h
    exact hfinite

/-! ## The end of an approximation -/

theorem not_isLargeStep_of_settlesAt (h : SettlesAt f guess n x) : ¬IsLargeStep f guess n := by
  rintro ⟨before, next, hbefore, hnext, hlarge⟩
  obtain ⟨before', hbefore', hnext', hsmall⟩ := h.small
  obtain rfl := Option.some.inj (hbefore.symm.trans hbefore')
  obtain rfl := Option.some.inj (hnext.symm.trans hnext')
  exact hlarge hsmall

theorem not_isLargeStep_of_failsAt (h : FailsAt f guess n) : ¬IsLargeStep f guess n := by
  rintro ⟨before, next, -, hnext, -⟩
  obtain ⟨before', -, hstuck⟩ := h.stuck
  cases hnext.symm.trans hstuck

/-- There is one first step that is not a large one. -/
theorem first_unique {m : ℕ} (hn : ∀ i < n, IsLargeStep f guess i) (hn' : ¬IsLargeStep f guess n)
    (hm : ∀ i < m, IsLargeStep f guess i) (hm' : ¬IsLargeStep f guess m) : n = m := by
  rcases Nat.lt_trichotomy n m with h | h | h
  · exact absurd (hm n h) hn'
  · exact h
  · exact absurd (hn m h) hm'

/-- How an approximation ends within a budget. -/
inductive Ended (f : Float → Option (Float × Float)) (guess : Float) (k : ℕ) : Outcome Approximation → Prop where
  | settled {n : ℕ} {x : Float} (hn : n < k) (h : SettlesAt f guess n x) : Ended f guess k (.ok (.settled x))
  | failed {n : ℕ} (hn : n < k) (h : FailsAt f guess n) : Ended f guess k (.error .num)
  | exhausted {x : Float} (h : ∀ m < k, IsLargeStep f guess m) (hx : approximation? f k guess = some x) :
      Ended f guess k (.ok (.unsettled x))

section Next

variable (hy : nextApproximation? f x = some y)
include hy

theorem approximation?_succ (n : ℕ) : approximation? f (n + 1) x = approximation? f n y := by
  rw [approximation?, hy, Option.bind_some]

theorem isLargeStep_zero (hlarge : ¬IsSmallStep x y) : IsLargeStep f x 0 :=
  ⟨x, y, rfl, approximation?_succ hy 0, hlarge⟩

theorem isLargeStep_succ {m : ℕ} (h : IsLargeStep f y m) : IsLargeStep f x (m + 1) := by
  obtain ⟨before, next, hbefore, hnext, hlarge⟩ := h
  exact ⟨before, next, (approximation?_succ hy m).trans hbefore, (approximation?_succ hy (m + 1)).trans hnext, hlarge⟩

/-- All steps after a large one are steps of what is left. -/
theorem forall_isLargeStep_succ (hlarge : ¬IsSmallStep x y) (h : ∀ m < n, IsLargeStep f y m) :
    ∀ m < n + 1, IsLargeStep f x m := by
  intro m hm
  cases m with
  | zero => exact isLargeStep_zero hy hlarge
  | succ m => exact isLargeStep_succ hy (h m (Nat.lt_of_succ_lt_succ hm))

theorem Ended.succ (hlarge : ¬IsSmallStep x y) {o : Outcome Approximation} (h : Ended f y k o) :
    Ended f x (k + 1) o := by
  cases h with
  | settled hn h =>
    obtain ⟨before, hbefore, hnext, hsmall⟩ := h.small
    exact .settled (Nat.succ_lt_succ hn) ⟨forall_isLargeStep_succ hy hlarge h.earlier, before,
      (approximation?_succ hy _).trans hbefore, (approximation?_succ hy _).trans hnext, hsmall⟩
  | failed hn h =>
    obtain ⟨before, hbefore, hstuck⟩ := h.stuck
    exact .failed (Nat.succ_lt_succ hn) ⟨forall_isLargeStep_succ hy hlarge h.earlier, before,
      (approximation?_succ hy _).trans hbefore, (approximation?_succ hy _).trans hstuck⟩
  | exhausted h hx => exact .exhausted (forall_isLargeStep_succ hy hlarge h) ((approximation?_succ hy _).trans hx)

end Next

theorem ended_newton (f : Float → Option (Float × Float)) (k : ℕ) (guess : Float) :
    Ended f guess k (newton f k guess) := by
  induction k generalizing guess with
  | zero => exact .exhausted (fun _ hm => absurd hm (Nat.not_lt_zero _)) rfl
  | succ k ih =>
    rw [newton_succ]
    have hfirst : ∀ m < 0, IsLargeStep f guess m := fun _ hm => absurd hm (Nat.not_lt_zero _)
    cases hnext : nextApproximation? f guess with
    | none => exact .failed k.succ_pos ⟨hfirst, guess, rfl, by rw [approximation?, hnext, Option.bind_none]⟩
    | some next =>
      by_cases hsmall : IsSmallStep guess next
      · simp only [if_pos hsmall]
        exact .settled k.succ_pos ⟨hfirst, guess, rfl, approximation?_succ hnext 0, hsmall⟩
      · simp only [if_neg hsmall]
        exact (ih next).succ hnext hsmall

/-- A budget beyond the step that settles an approximation is enough. -/
theorem newton_of_settlesAt (h : SettlesAt f guess n x) (hn : n < k) : newton f k guess = .ok (.settled x) := by
  have hstop := not_isLargeStep_of_settlesAt h
  have hended := ended_newton f k guess
  generalize newton f k guess = o at hended
  cases hended with
  | settled hm h' =>
    obtain rfl := first_unique h.earlier hstop h'.earlier (not_isLargeStep_of_settlesAt h')
    obtain ⟨before, -, hx, -⟩ := h.small
    obtain ⟨before', -, hx', -⟩ := h'.small
    rw [Option.some.inj (hx.symm.trans hx')]
  | failed hm h' =>
    obtain rfl := first_unique h.earlier hstop h'.earlier (not_isLargeStep_of_failsAt h')
    obtain ⟨before, -, hx, -⟩ := h.small
    obtain ⟨before', -, hx'⟩ := h'.stuck
    cases hx.symm.trans hx'
  | exhausted h' hx => exact absurd (h' n hn) hstop

/-- A budget beyond the step that cannot be made makes no difference either. -/
theorem newton_of_failsAt (h : FailsAt f guess n) (hn : n < k) : newton f k guess = .error .num := by
  have hstop := not_isLargeStep_of_failsAt h
  have hended := ended_newton f k guess
  generalize newton f k guess = o at hended
  cases hended with
  | settled hm h' =>
    obtain rfl := first_unique h.earlier hstop h'.earlier (not_isLargeStep_of_settlesAt h')
    obtain ⟨before, -, hx⟩ := h.stuck
    obtain ⟨before', -, hx', -⟩ := h'.small
    cases hx.symm.trans hx'
  | failed hm h' => rfl
  | exhausted h' hx => exact absurd (h' n hn) hstop

theorem newton_settled_iff : newton f k guess = .ok (.settled x) ↔ ∃ n < k, SettlesAt f guess n x := by
  constructor
  · intro h
    have hended := ended_newton f k guess
    rw [h] at hended
    cases hended with
    | settled hn h => exact ⟨_, hn, h⟩
  · rintro ⟨n, hn, h⟩
    exact newton_of_settlesAt h hn

/-- An approximation that settled or failed does so under every larger budget. -/
theorem newton_eq_of_le {k' : ℕ} (hk : k ≤ k') (hended : ∀ x, newton f k guess ≠ .ok (.unsettled x)) :
    newton f k' guess = newton f k guess := by
  have h := ended_newton f k guess
  generalize newton f k guess = o at h hended
  cases h with
  | settled hn h => exact newton_of_settlesAt h (hn.trans_le hk)
  | failed hn h => exact newton_of_failsAt h (hn.trans_le hk)
  | exhausted h hx => exact absurd rfl (hended _)

/-! ## Calls -/

/-- What is approximated, and from where. -/
structure Equation where
  balance : Float → Option (Float × Float)
  guess : Float

/-- What `RATE` approximates. -/
def rateEquation (arguments : List Value) : Outcome Equation := do
  let periods ← numberArg arguments 0
  let payment ← numberArg arguments 1
  let present ← numberArg arguments 2
  let future ← optionalNumber arguments 3 0.0
  let timing ← timingArg arguments 4
  let guess ← optionalNumber arguments 5 0.1
  if periods <= 0.0 || guess <= -1.0 then throw .num
  return ⟨annuityBalance periods payment present future timing, guess⟩

/-- What `IRR` approximates. -/
def internalRateEquation (arguments : List Value) : Outcome Equation := do
  let flows ← collectNumbers (arguments.take 1)
  let guess ← optionalNumber arguments 1 0.1
  let flows := flows.map (·.float)
  if !flows.any (· > 0.0) || !flows.any (· < 0.0) || guess <= -1.0 then throw .num
  return ⟨flowBalance flows, guess⟩

/-- Only an approximation that settled is a rate. -/
def Approximation.rate : Approximation → Outcome Float
  | .settled x => .ok x
  | .unsettled _ => .error .num

/-- Where the budget runs out, the last approximation stands for the internal rate. -/
def Approximation.internalRate : Approximation → Outcome Float
  | .settled x => finite x
  | .unsettled x => finite x

theorem rateOf_eq (s : Surroundings) (values : List Value) :
    rateOf s values = do
      let e ← rateEquation values
      let a ← newton e.balance s.options.maxIterations e.guess
      return .number (← a.rate) := by
  unfold rateOf rateEquation rate
  simp only [bind_assoc]
  refine bind_congr fun periods => bind_congr fun payment => bind_congr fun present => bind_congr fun future =>
    bind_congr fun timing => bind_congr fun guess => ?_
  by_cases h : (decide (periods <= 0.0) || decide (guess <= -1.0)) = true
  · simp only [h, if_true]
    rfl
  · simp only [h, Bool.false_eq_true, if_false, bind_assoc, pure_bind]
    exact bind_congr fun a => by cases a <;> rfl

theorem internalRateOf_eq (s : Surroundings) (values : List Value) :
    internalRateOf s values = do
      let e ← internalRateEquation values
      let a ← newton e.balance s.options.maxIterations e.guess
      return .number (← a.internalRate) := by
  unfold internalRateOf internalRateEquation internalRate
  simp only [bind_assoc]
  refine bind_congr fun flows => bind_congr fun guess => ?_
  generalize flows.map (·.float) = flows
  by_cases h : (!flows.any (· > 0.0) || !flows.any (· < 0.0) || guess <= -1.0) = true
  · simp only [h, if_true]
    rfl
  · simp only [h, Bool.false_eq_true, if_false, bind_assoc, pure_bind]
    exact bind_congr fun a => by cases a <;> rfl

theorem isFinite_of_approximation? (h : approximation? f (n + 1) guess = some x) : x.isFinite = true := by
  induction n generalizing guess with
  | zero =>
    obtain ⟨next, hnext, hx⟩ := Option.bind_eq_some_iff.1 h
    obtain rfl := Option.some.inj hx
    exact isFinite_of_nextApproximation? hnext
  | succ n ih =>
    obtain ⟨next, -, hx⟩ := Option.bind_eq_some_iff.1 h
    exact ih hx

variable {s s' : Surroundings} {values : List Value} {v : Value} {e : Equation}

theorem rateOf_eq_ok_iff : rateOf s values = .ok v ↔ ∃ e, rateEquation values = .ok e ∧
    ∃ x, newton e.balance s.options.maxIterations e.guess = .ok (.settled x) ∧ .number x = v := by
  rw [rateOf_eq, bind_eq_ok_iff]
  refine exists_congr fun e => and_congr_right fun _ => ?_
  rw [bind_eq_ok_iff]
  constructor
  · rintro ⟨a, ha, h⟩
    cases a with
    | settled x => exact ⟨x, ha, Except.ok.inj h⟩
    | unsettled x => cases h
  · rintro ⟨x, hx, rfl⟩
    exact ⟨_, hx, rfl⟩

/-- An approximation that settles is the internal rate. -/
theorem internalRateOf_of_settled (he : internalRateEquation values = .ok e)
    (hx : newton e.balance s.options.maxIterations e.guess = .ok (.settled x)) :
    internalRateOf s values = .ok (.number x) := by
  obtain ⟨n, -, hsettles⟩ := newton_settled_iff.1 hx
  obtain ⟨before, -, hlast, -⟩ := hsettles.small
  have hfinite : finite x = .ok x := if_pos (isFinite_of_approximation? hlast)
  rw [internalRateOf_eq, he, ok_bind, hx, ok_bind, Approximation.internalRate, hfinite]
  rfl

theorem mem_builtinFunctions [RegexLibrary] {i : ℕ} {g : Function} (hi : financialFunctions[i]? = some g) :
    g ∈ builtinFunctions := by
  simp [builtinFunctions, List.mem_of_getElem? hi]

/-- An approximation that settles or fails within a budget ends the same way under every larger one, and it settles at
the first step within the tolerance. So a number that `RATE` gives stays its value under every larger budget, and so
does the value of `IRR` where its approximation settles. -/
theorem approximations_stable [RegexLibrary] :
    (∀ (f : Float → Option (Float × Float)) (guess : Float) (k : ℕ),
      (∀ k' ≥ k, (∀ x, newton f k guess ≠ .ok (.unsettled x)) → newton f k' guess = newton f k guess) ∧
      ∀ x, newton f k guess = .ok (.settled x) ↔ ∃ n < k, SettlesAt f guess n x) ∧
    ∀ (s s' : Surroundings) (values : List Value), s.options.maxIterations ≤ s'.options.maxIterations →
      (∀ x, GivesIn s "RATE" values (.number x) → GivesIn s' "RATE" values (.number x) ∧
        ∃ e, rateEquation values = .ok e ∧
          ∃ n < s.options.maxIterations, ∃ y, SettlesAt e.balance e.guess n y ∧ x = .ofFloat y) ∧
      ∀ e x v, internalRateEquation values = .ok e →
        newton e.balance s.options.maxIterations e.guess = .ok (.settled x) →
        GivesIn s "IRR" values v → v = .number x ∧ GivesIn s' "IRR" values v := by
  refine ⟨fun f guess k => ⟨fun k' hk => newton_eq_of_le hk, fun x => newton_settled_iff⟩,
    fun s s' values hbudget => ⟨fun x h => ?_, fun e x v he hx h => ?_⟩⟩
  · have hrate := mem_builtinFunctions (i := 4) rfl
    obtain ⟨harity, hv⟩ := (givesIn_iff hrate rfl).1 h
    rw [Outcome.toValue_eq_iff rfl] at hv
    obtain ⟨e, he, y, hy, hxy⟩ := rateOf_eq_ok_iff.1 hv
    obtain ⟨n, hn, hsettles⟩ := newton_settled_iff.1 hy
    have hlarger := rateOf_eq_ok_iff.2 ⟨e, he, y, newton_of_settlesAt hsettles (hn.trans_le hbudget), hxy⟩
    refine ⟨(givesIn_iff hrate rfl).2 ⟨harity, congrArg Outcome.toValue hlarger⟩, e, he, n, hn, y, hsettles, ?_⟩
    exact (Value.number.inj hxy).symm
  · have hrate := mem_builtinFunctions (i := 6) rfl
    obtain ⟨harity, hv⟩ := (givesIn_iff hrate rfl).1 h
    obtain ⟨n, hn, hsettles⟩ := newton_settled_iff.1 hx
    have hlarger := internalRateOf_of_settled he (newton_of_settlesAt hsettles (hn.trans_le hbudget))
    rw [internalRateOf_of_settled he hx] at hv
    subst hv
    exact ⟨rfl, (givesIn_iff hrate rfl).2 ⟨harity, congrArg Outcome.toValue hlarger⟩⟩

/-- The distance of a square from two, and its slope. -/
def squareBalance (x : Float) : Option (Float × Float) := some (x * x - 2.0, 2.0 * x)

/-- Two payments that together come to what was lent. -/
def levelAnnuity : List Value :=
  [.number (2.0 : Float), .number (-50.0 : Float), .number (100.0 : Float), .empty, .empty, .number (0.0 : Float)]

def surroundingsWithBudget (k : ℕ) : Surroundings :=
  { Environment.plain.surroundings with options := { maxIterations := k } }

def settles : Outcome Approximation → Bool
  | .ok (.settled _) => true
  | _ => false

theorem settles_iff {o : Outcome Approximation} : settles o ↔ ∃ x, o = .ok (.settled x) := by
  rcases o with _ | (_ | _) <;> simp [settles]

/-- The key of the number that an outcome is. -/
def numberKey? : Outcome Value → Option Int
  | .ok (.number x) => some x.totalKey
  | _ => none

theorem eq_number_of_numberKey? {o : Outcome Value} {x : Binary64.Number}
    (h : numberKey? o = some x.totalKey) : o = .ok (.number x) := by
  unfold numberKey? at h
  split at h
  · rw [Binary64.Number.totalKey_injective (Option.some.inj h)]
  · cases h

/-- The square root of two takes five steps from one, and no step more under a larger budget. The rate of an annuity
without interest takes one. -/
theorem approximations_stable_squareRoot :
    newton squareBalance 1000 1.0 = newton squareBalance 5 1.0 ∧
    (∃ x, newton squareBalance 5 1.0 = .ok (.settled x)) ∧
    GivesIn (surroundingsWithBudget 1) "RATE" levelAnnuity (.number (0.0 : Float)) ∧
    GivesIn (surroundingsWithBudget 100) "RATE" levelAnnuity (.number (0.0 : Float)) := by
  have hsettles : settles (newton squareBalance 5 1.0) := by decide +kernel
  have hrate : GivesIn (surroundingsWithBudget 1) "RATE" levelAnnuity (.number (0.0 : Float)) := by
    refine (givesIn_iff (mem_builtinFunctions (i := 4) rfl) rfl).2 ⟨by decide, ?_⟩
    have hkey : numberKey? (rateOf (surroundingsWithBudget 1) levelAnnuity)
        = some (Binary64.Number.ofFloat 0.0).totalKey := by decide +kernel
    exact congrArg Outcome.toValue (eq_number_of_numberKey? hkey)
  obtain ⟨x, hx⟩ := settles_iff.1 hsettles
  have hstable := (approximations_stable.1 squareBalance 1.0 5).1 1000 (by decide)
  have hlarger := (approximations_stable.2 (surroundingsWithBudget 1) (surroundingsWithBudget 100) levelAnnuity
    (by decide)).1 _ hrate
  exact ⟨hstable (by rw [hx]; nofun), ⟨x, hx⟩, hrate, hlarger.1⟩

end Spreadsheet.Financial
