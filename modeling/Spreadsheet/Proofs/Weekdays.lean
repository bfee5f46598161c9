import Spreadsheet.Proofs.DateArguments
import Spreadsheet.Proofs.DateCodes

/-!
# Two days of the week

`WEEKDAY` counts serials from a Sunday, day 1, and the code `dddd` asks the calendar, in which 1900-01-01 was a Monday.
The day too many, 29 February 1900, takes up the difference: from that day on both agree, and before it the code names
the day after the one that `WEEKDAY` numbers.

* `formatNumber_dddd` : the name that a serial shows;
* `weekday_of_dateOfWhole?` : the day of the week of a whole serial;
* `DateFunction.gives_weekday`, `TextFunction.gives_formatted` : calls with a number;
* `weekdays_agree_iff` : when the two agree.
-/

namespace Spreadsheet

open Binary64 (Represents)
open Calendar (Date dayName dayNames dateOfWhole?)

variable {x : Float} {n : ℤ} {d : Date}

/-! ## Days by the calendar -/

namespace Calendar

theorem dayName_inj {v w : ℕ} (hv : v < 7) (hw : w < 7) : dayName v = dayName w ↔ v = w := by
  have hall : ∀ v w : Fin 7, dayName v = dayName w ↔ v = w := by decide +kernel
  exact (hall ⟨v, hv⟩ ⟨w, hw⟩).trans Fin.mk_eq_mk

/-- Serial 1 was a Monday, and the days before and after the day too many a Wednesday and a Thursday. -/
theorem weekday_of_dateOfWhole? (h : dateOfWhole? n = some d) :
    (d.weekday : ℤ) = (if 60 ≤ n then n - 1 else n) % 7 := by
  have hnumber := dayNumber_of_dateOfWhole? h
  unfold Date.weekday serialEpoch at *
  split at hnumber <;> split <;> omega

end Calendar

theorem formatNumber_dddd (hx : Represents x n) (hn : |n| < 2 ^ 32) (hd : dateOfWhole? n = some d) :
    Format.formatNumber x "dddd" = dayName d.weekday := by
  have hsplit := Calendar.splitSerial_of_represents hx hn
  obtain ⟨c, hc⟩ : ∃ c, Calendar.serialCivil? x = some c := by
    rw [Calendar.serialCivil?_of_represents hx hn, hd]
    split
    · exact ⟨_, rfl⟩
    · exact ⟨_, rfl⟩
  have hm : Format.Moment.ofSerial? x = some ⟨c, d.weekday, Calendar.Clock.ofSeconds 0⟩ := by
    rw [Format.Moment.ofSerial?, Calendar.serialTime?, hsplit, hc]
    simp [hd]
  have hpieces : Format.datePieces (Text.trim (String.ofList (Format.firstSection false ['d', 'd', 'd', 'd']))) =
      [.field .day 4] := by decide +kernel
  have hshown : Format.formatNumber x (String.ofList ['d', 'd', 'd', 'd']) = _ := Format.formatNumber_letter rfl hm
  rw [hpieces] at hshown
  refine hshown.trans ?_
  simp [Format.Moment.showPieces, Format.Moment.showPiece, Format.Moment.showField]

/-! ## Calls -/

theorem DateFunction.gives_weekday [RegexLibrary] (hx : Represents x n) (hnonneg : 0 ≤ n) (hn : |n| < 2 ^ 32) :
    Gives "WEEKDAY" [.number x] (.ofInt ((n - 1) % 7 + 1)) := by
  have hgives : Gives "WEEKDAY" [.number x] (.ofInt ((n - 1) % 7 + 1)) ↔
      ∀ s, weekday s [.number x] = .ok (.ofInt ((n - 1) % 7 + 1)) :=
    gives_iff_of_getElem? (j := 11) rfl (Nat.le_refl 1) (Nat.le_succ 1) rfl
  refine hgives.2 fun s => ?_
  have hserial : serialArg s [.number x] 0 = .ok x := (serialArg_eq rfl hx).trans (if_neg (by omega))
  have hkind : Binary64.toInt64Range 1.0 = 1 :=
    Binary64.Represents.toInt64Range (z := 1) Binary64.represents_one (by norm_num)
  rw [weekday, hserial, ok_bind, hx.toInt64Range (hn.trans (by norm_num))]
  dsimp only
  rw [show optionalNumber [.number x] 1 1.0 = .ok 1.0 from rfl, ok_bind, hkind]
  rfl

theorem TextFunction.gives_formatted [RegexLibrary] (x : Float) (code : String) :
    Gives "TEXT" [.number x, .text code] (.text (Format.formatNumber x code)) :=
  gives_of_mem (f := function "TEXT" 2 2 formatted) (by simp [builtinFunctions, textFunctions]) rfl (Nat.le_refl 2)
    (by rintro most ⟨⟩; exact Nat.le_refl 2)

/-! ## Both days -/

/-- `WEEKDAY` numbers the day that the code `dddd` names just if the serial is that of the day too many or a later one;
an earlier serial shows the name of the next day. -/
theorem weekdays_agree_iff [RegexLibrary] (hx : Represents x n) (hn : n ∈ Set.Icc 1 Calendar.lastSerial) :
    ∃ (k : ℕ) (name : String), Gives "WEEKDAY" [.number x] (.ofInt k) ∧
      Gives "TEXT" [.number x, .text "dddd"] (.text name) ∧ 1 ≤ k ∧ k ≤ 7 ∧
      (name = dayName (k - 1) ↔ 60 ≤ n) ∧ (n < 60 → name = dayName (k % 7)) := by
  obtain ⟨hfirst, hlast⟩ := hn
  have hbound : Calendar.firstSerial ≤ 1 ∧ Calendar.lastSerial < 2 ^ 32 := by decide
  have hsize : |n| < 2 ^ 32 := by
    rw [abs_lt]
    omega
  obtain ⟨d, hd⟩ := Calendar.exists_dateOfWhole? ⟨hbound.1.trans hfirst, hlast⟩
  have hweekday := Calendar.weekday_of_dateOfWhole? hd
  have hnumber := DateFunction.gives_weekday hx (by omega) hsize
  have hname := TextFunction.gives_formatted x "dddd"
  rw [formatNumber_dddd hx hsize hd] at hname
  obtain ⟨k, hk⟩ : ∃ k : ℕ, (n - 1) % 7 + 1 = k := ⟨((n - 1) % 7 + 1).toNat, by omega⟩
  rw [hk] at hnumber
  refine ⟨k, dayName d.weekday, hnumber, hname, by omega, by omega, ?_, fun hearly => ?_⟩
  · rw [Calendar.dayName_inj (by split at hweekday <;> omega) (by omega)]
    split at hweekday <;> omega
  · rw [if_neg (by omega)] at hweekday
    rw [show d.weekday = k % 7 by omega]

theorem weekdays_agree_iff_march1900 : Represents (Float.ofInt 61) (61 : ℤ) ∧ 61 ∈ Set.Icc 1 Calendar.lastSerial ∧
    ∃ (k : ℕ) (name : String), Gives "WEEKDAY" [.number (Float.ofInt 61)] (.ofInt k) ∧
      Gives "TEXT" [.number (Float.ofInt 61), .text "dddd"] (.text name) ∧ name = dayName (k - 1) := by
  have hx : Represents (Float.ofInt 61) (61 : ℤ) := Binary64.represents_ofInt (by norm_num)
  have hn : 61 ∈ Set.Icc 1 Calendar.lastSerial := by decide
  obtain ⟨k, name, hnumber, hname, -, -, hagree, -⟩ := weekdays_agree_iff hx hn
  exact ⟨hx, hn, k, name, hnumber, hname, hagree.2 (by decide)⟩

/-- Serial 1 is a Sunday for `WEEKDAY` and shows as a Monday. -/
theorem weekdays_differ : Gives "WEEKDAY" [.number (1.0 : Float)] (.ofInt 1) ∧
    Gives "TEXT" [.number (1.0 : Float), .text "dddd"] (.text "Monday") ∧ dayName (1 - 1) = "Sunday" := by
  have hone : Represents 1.0 (1 : ℤ) := by exact_mod_cast Binary64.represents_one
  have hname := TextFunction.gives_formatted 1.0 "dddd"
  rw [show Format.formatNumber 1.0 "dddd" = "Monday" by decide +kernel] at hname
  exact ⟨DateFunction.gives_weekday hone (by decide) (by norm_num), hname, rfl⟩

end Spreadsheet
