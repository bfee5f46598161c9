import Spreadsheet.Proofs.BuiltinCalls
import Spreadsheet.Proofs.SheetCalendar

/-!
# Calls of date functions with whole numbers

What a whole number is read as by the date functions: as a serial if it is not negative, as a number of months up to a
million either way. Each function has a result just where all that it computes on the way has one.

* `Value.Holds`, `Value.ofInt` : whole numbers as values; `Value.Holds.unique`;
* `DateFunction.serialArg_eq`, `DateFunction.dateArg_eq_ok_iff`, `DateFunction.monthsArg_eq_ok_iff` : arguments;
* `DateFunction.gives_sameDay_iff`, `DateFunction.gives_lastDay_iff` : calls that move by months;
* `DateFunction.gives_day_iff` : the day that a sheet shows.
-/

namespace Spreadsheet

open Binary64 (Represents represents_ofInt represents_zero)

/-- A number without a fraction, of any size. -/
def Value.Holds (v : Value) (n : ℤ) : Prop := ∃ x : Float, v = .number x ∧ Represents x n

def Value.ofInt (n : ℤ) : Value := .number (Float.ofInt n)

theorem Value.holds_ofInt {n : ℤ} (hn : |n| < 2 ^ 53) : (Value.ofInt n).Holds n := ⟨_, rfl, represents_ofInt hn⟩

theorem Value.holds_ofInt_natCast {n : ℕ} (hn : n < 2 ^ 53) : (Value.ofInt n).Holds n :=
  Value.holds_ofInt (by rw [Nat.abs_cast]; exact_mod_cast hn)

theorem Value.Holds.isError {v : Value} {n : ℤ} (h : v.Holds n) : v.isError = false := by
  obtain ⟨x, rfl, -⟩ := h
  rfl

theorem Value.Holds.unique {v : Value} {m n : ℤ} (hm : v.Holds m) (hn : v.Holds n) : m = n := by
  obtain ⟨x, rfl, hx⟩ := hm
  obtain ⟨y, hy, hx'⟩ := hn
  cases hy
  exact_mod_cast hx.unique hx'

namespace DateFunction

open Calendar (Date)

variable {s : Surroundings} {arguments : List Value} {v w u : Value} {n k months : ℤ} {x : Float} {i : ℕ} {d : Date}

/-! ## Arguments -/

theorem validSerial_of_represents (hx : Represents x n) : validSerial x = if n < 0 then .error .num else .ok x := by
  have hlt : x < 0.0 ↔ n < 0 := by
    rw [hx.lt_iff represents_zero]
    exact_mod_cast Iff.rfl
  unfold validSerial
  by_cases hn : n < 0
  · rw [if_pos hn, decide_eq_true (hlt.2 hn)]
    rfl
  · rw [if_neg hn, decide_eq_false (mt hlt.1 hn), hx.isFinite]
    rfl

theorem validSerial_ofInt {z : Float} (hn : |n| < 2 ^ 53) :
    validSerial (Float.ofInt n) = .ok z ↔ 0 ≤ n ∧ Float.ofInt n = z := by
  rw [validSerial_of_represents (represents_ofInt hn)]
  split
  · exact ⟨nofun, fun h => by omega⟩
  · exact ⟨fun h => ⟨by omega, Except.ok.inj h⟩, fun h => congrArg Except.ok h.2⟩

theorem serialArg_eq (h : arguments[i]? = some (.number x)) (hx : Represents x n) :
    serialArg s arguments i = if n < 0 then .error .num else .ok x := by
  rw [serialArg, h]
  exact validSerial_of_represents hx

theorem dateArg_eq_ok_iff (h : arguments[i]? = some (.number x)) (hx : Represents x n) :
    dateArg s arguments i = .ok d ↔ 0 ≤ n ∧ Calendar.serialDate? x = some d := by
  rw [dateArg, serialArg_eq h hx]
  split
  · exact ⟨nofun, fun h => by omega⟩
  · exact orElse_eq_ok_iff.trans ⟨fun h => ⟨by omega, h⟩, fun h => h.2⟩

theorem represents_million : Represents 1e6 (10 ^ 6 : ℤ) :=
  ⟨⟨false, 10 ^ 6 * 2 ^ 33, -33⟩, rfl, by norm_num [Binary64.Binary.value]⟩

theorem monthsArg_eq_ok_iff (h : arguments[i]? = some v) (hv : v.Holds k) :
    monthsArg arguments i = .ok months ↔ |k| ≤ 10 ^ 6 ∧ months = k := by
  obtain ⟨x, rfl, hx⟩ := hv
  have htruncate := hx.truncate
  have hlt : (1e6 : Float) < (Binary64.truncate x).abs ↔ 10 ^ 6 < |k| := by
    rw [represents_million.lt_iff htruncate.abs]
    exact_mod_cast Iff.rfl
  have hnumber : numberArg arguments i = .ok x := by
    rw [numberArg, h]
    rfl
  rw [monthsArg, hnumber, ok_bind]
  dsimp only
  split
  · rename_i hlarge
    exact ⟨nofun, fun h => absurd (hlt.1 hlarge) (by omega)⟩
  · rename_i hsmall
    have hk : |k| ≤ 10 ^ 6 := Int.not_lt.1 (mt hlt.2 hsmall)
    have hread : Binary64.toInt64Range (Binary64.truncate x) = k := htruncate.toInt64Range (by omega)
    exact ⟨fun h => ⟨hk, (Except.ok.inj h).symm.trans hread⟩, fun h => congrArg Except.ok (hread.trans h.2.symm)⟩

/-! ## Moving by months -/

theorem sameDay_eq_ok_iff : sameDay s arguments = .ok v ↔ ∃ d months e, dateArg s arguments 0 = .ok d ∧
    monthsArg arguments 1 = .ok months ∧ d.addMonths? months = some e ∧ 0 ≤ e.serial ∧ v = .ofInt e.serial := by
  have hvalid : ∀ (e : Date) (z : Float), validSerial e.serialNumber = .ok z ↔ 0 ≤ e.serial ∧ e.serialNumber = z :=
    fun e z => validSerial_ofInt ((Calendar.abs_serial_lt e).trans (by norm_num))
  simp only [sameDay, bind_eq_ok_iff, orElse_eq_ok_iff, hvalid]
  constructor
  · rintro ⟨d, hd, months, hmonths, e, he, z, ⟨hserial, rfl⟩, hv⟩
    exact ⟨d, months, e, hd, hmonths, he, hserial, (Except.ok.inj hv).symm⟩
  · rintro ⟨d, months, e, hd, hmonths, he, hserial, rfl⟩
    exact ⟨d, hd, months, hmonths, e, he, _, ⟨hserial, rfl⟩, rfl⟩

/-- Day zero is the day before the first one. -/
theorem lastDay_eq_ok_iff : lastDay s arguments = .ok v ↔ ∃ d months f, dateArg s arguments 0 = .ok d ∧
    monthsArg arguments 1 = .ok months ∧ Calendar.firstOfMonth? d.year (d.month + months + 1) = some f ∧
    1 ≤ f.serial ∧ v = .ofInt (f.serial - 1) := by
  have hvalid : ∀ (f : Date) (z : Float), validSerial (Float.ofInt (f.serial - 1)) = .ok z ↔
      0 ≤ f.serial - 1 ∧ Float.ofInt (f.serial - 1) = z := by
    intro f z
    have hserial := Calendar.abs_serial_lt f
    refine validSerial_ofInt ?_
    rw [abs_lt] at *
    omega
  have hparts : ∀ (year month : ℤ) (f : Date), Calendar.firstOfMonth? year month = some f →
      Calendar.serialOfParts? year month 0 = some (Float.ofInt (f.serial - 1)) := by
    intro year month f hf
    rw [Calendar.serialOfParts?_eq hf (by norm_num), Int.add_zero]
  simp only [lastDay, bind_eq_ok_iff, orElse_eq_ok_iff]
  constructor
  · rintro ⟨d, hd, months, hmonths, serial, hserial, z, hz, hv⟩
    obtain ⟨f, hf, -⟩ := Option.map_eq_some_iff.1 hserial
    obtain rfl : Float.ofInt (f.serial - 1) = serial := Option.some.inj ((hparts _ _ f hf).symm.trans hserial)
    obtain ⟨hpositive, rfl⟩ := (hvalid f z).1 hz
    exact ⟨d, months, f, hd, hmonths, hf, by omega, (Except.ok.inj hv).symm⟩
  · rintro ⟨d, months, f, hd, hmonths, hf, hserial, rfl⟩
    exact ⟨d, hd, months, hmonths, _, hparts _ _ f hf, _, (hvalid f _).2 ⟨by omega, rfl⟩, rfl⟩

theorem civilPart_eq_ok_iff {part : Calendar.Civil → ℤ} : civilPart part s arguments = .ok v ↔ ∃ x c,
    serialArg s arguments 0 = .ok x ∧ Calendar.serialCivil? x = some c ∧ v = .ofInt (part c) := by
  simp only [civilPart, bind_eq_ok_iff, orElse_eq_ok_iff]
  constructor
  · rintro ⟨x, hx, c, hc, hv⟩
    exact ⟨x, c, hx, hc, (Except.ok.inj hv).symm⟩
  · rintro ⟨x, c, hx, hc, rfl⟩
    exact ⟨x, hx, c, hc, rfl⟩

/-! ## Calls -/

theorem gives_iff_of_getElem? [RegexLibrary] {name : String} {least most j : ℕ}
    {g : Surroundings → List Value → Outcome Value}
    (hj : dateFunctions[j]? = some (function name least most g)) (hleast : least ≤ arguments.length)
    (hmost : arguments.length ≤ most) (hv : v.isError = false) :
    Gives name arguments v ↔ ∀ s, g s arguments = .ok v := by
  have hmem : function name least most g ∈ builtinFunctions := by
    simp [builtinFunctions, List.mem_of_getElem? hj]
  have hgives : Gives name arguments v ↔ ∀ s, (g s arguments).toValue = v :=
    gives_iff_of_mem (f := function name least most g) hmem rfl hleast fun n hn => Option.some.inj hn ▸ hmost
  exact hgives.trans (forall_congr' fun s => Outcome.toValue_eq_iff hv)

variable (hx : Represents x n) (hw : w.Holds k) (hu : u.isError = false)
include hx hw hu

theorem gives_sameDay_iff [RegexLibrary] : Gives "EDATE" [.number x, w] u ↔ 0 ≤ n ∧ |k| ≤ 10 ^ 6 ∧ ∃ d e,
    Calendar.serialDate? x = some d ∧ d.addMonths? k = some e ∧ 0 ≤ e.serial ∧ u = .ofInt e.serial := by
  have hmonths : ∀ months, monthsArg [.number x, w] 1 = .ok months ↔ |k| ≤ 10 ^ 6 ∧ months = k :=
    fun _ => monthsArg_eq_ok_iff rfl hw
  have hdate : ∀ s d, dateArg s [.number x, w] 0 = .ok d ↔ 0 ≤ n ∧ Calendar.serialDate? x = some d :=
    fun _ _ => dateArg_eq_ok_iff rfl hx
  refine Iff.trans (gives_iff_of_getElem? (j := 12) rfl (Nat.le_refl 2) (Nat.le_refl 2) hu) ?_
  simp only [sameDay_eq_ok_iff, hdate, hmonths]
  constructor
  · intro h
    obtain ⟨d, months, e, ⟨hn, hd⟩, ⟨hk, rfl⟩, he, hserial, rfl⟩ := h Environment.plain.surroundings
    exact ⟨hn, hk, d, e, hd, he, hserial, rfl⟩
  · rintro ⟨hn, hk, d, e, hd, he, hserial, rfl⟩ s
    exact ⟨d, k, e, ⟨hn, hd⟩, ⟨hk, rfl⟩, he, hserial, rfl⟩

theorem gives_lastDay_iff [RegexLibrary] : Gives "EOMONTH" [.number x, w] u ↔ 0 ≤ n ∧ |k| ≤ 10 ^ 6 ∧ ∃ d f,
    Calendar.serialDate? x = some d ∧ Calendar.firstOfMonth? d.year (d.month + k + 1) = some f ∧ 1 ≤ f.serial ∧
    u = .ofInt (f.serial - 1) := by
  have hmonths : ∀ months, monthsArg [.number x, w] 1 = .ok months ↔ |k| ≤ 10 ^ 6 ∧ months = k :=
    fun _ => monthsArg_eq_ok_iff rfl hw
  have hdate : ∀ s d, dateArg s [.number x, w] 0 = .ok d ↔ 0 ≤ n ∧ Calendar.serialDate? x = some d :=
    fun _ _ => dateArg_eq_ok_iff rfl hx
  refine Iff.trans (gives_iff_of_getElem? (j := 13) rfl (Nat.le_refl 2) (Nat.le_refl 2) hu) ?_
  simp only [lastDay_eq_ok_iff, hdate, hmonths]
  constructor
  · intro h
    obtain ⟨d, months, f, ⟨hn, hd⟩, ⟨hk, rfl⟩, hf, hserial, rfl⟩ := h Environment.plain.surroundings
    exact ⟨hn, hk, d, f, hd, hf, hserial, rfl⟩
  · rintro ⟨hn, hk, d, f, hd, hf, hserial, rfl⟩ s
    exact ⟨d, k, f, ⟨hn, hd⟩, ⟨hk, rfl⟩, hf, hserial, rfl⟩

omit hw in
theorem gives_day_iff [RegexLibrary] : Gives "DAY" [.number x] u ↔
    0 ≤ n ∧ ∃ c, Calendar.serialCivil? x = some c ∧ u = .ofInt c.day := by
  have hserial : ∀ s, serialArg s [.number x] 0 = if n < 0 then .error .num else .ok x := fun _ => serialArg_eq rfl hx
  refine Iff.trans (gives_iff_of_getElem? (j := 7) rfl (Nat.le_refl 1) (Nat.le_refl 1) hu) ?_
  simp only [civilPart_eq_ok_iff, hserial]
  constructor
  · intro h
    obtain ⟨x', c, hx', hc, rfl⟩ := h Environment.plain.surroundings
    split at hx'
    · cases hx'
    · cases hx'
      exact ⟨by omega, c, hc, rfl⟩
  · rintro ⟨hn, c, hc, rfl⟩ s
    exact ⟨x, c, if_neg (by omega), hc, rfl⟩

end DateFunction

end Spreadsheet
