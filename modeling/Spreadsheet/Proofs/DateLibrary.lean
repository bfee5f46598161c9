import Spreadsheet.Proofs.Months

/-!
# What is asked of a library of dates

The calendar stands for a library of dates, of which no more is used than its documentation says: it has the dates of
the Gregorian calendar over some years, and it numbers them and names their weekdays one after the other, from the
first day of the year 1 on. This leaves nothing open, so all such libraries agree with the calendar in use.

* `DateLibrary` : the operations; `DateLibrary.Documented` : what is said of them;
* `DateLibrary.gregorian`, `DateLibrary.documented_gregorian` : the calendar in use is such a library;
* `Civil.next`, `civilOfDay_succ` : the days of the calendar, one after the other;
* `DateLibrary.Agreement`, `Documented.agree` : any two such libraries agree.
-/

namespace Spreadsheet.Calendar

/-! ## Libraries -/

/-- The operations of a library of dates, as far as they are used. -/
structure DateLibrary (D : Type) where
  ofCivil? : Civil → Option D
  ofDayNumber? : ℤ → Option D
  civil : D → Civil
  dayNumber : D → ℤ
  /-- Days after Sunday. -/
  weekday : D → ℕ
  addDays? : D → ℤ → Option D
  addMonths? : D → ℤ → Option D

namespace Civil

/-- The day after. -/
def next (c : Civil) : Civil :=
  if c.day < daysInMonth (isLeap c.year) c.month then ⟨c.year, c.month, c.day + 1⟩
  else if c.month < 12 then ⟨c.year, c.month + 1, 1⟩
  else ⟨c.year + 1, 1, 1⟩

/-- The same day some months later, or the last one of a shorter month. -/
def addMonths (c : Civil) (months : ℤ) : Civil :=
  let count := 12 * c.year + c.month - 1 + months
  let month := (count % 12).toNat + 1
  ⟨count / 12, month, min c.day (daysInMonth (isLeap (count / 12)) month)⟩

/-- The years that a library has to know. -/
def InRange (c : Civil) : Prop := firstYear ≤ c.year ∧ c.year ≤ lastYear

end Civil

namespace DateLibrary

/-- What is said of the operations: 0001-01-01 is day 1, a Monday, and there is a date just if it is one of the calendar
and in range. -/
structure Documented {D : Type} (L : DateLibrary D) : Prop where
  ofCivil?_eq_some {c : Civil} {d : D} : L.ofCivil? c = some d ↔ L.civil d = c
  exists_iff {c : Civil} : (∃ d, L.civil d = c) ↔ c.IsDate ∧ c.InRange
  dayNumber_first {d : D} : L.civil d = ⟨1, 1, 1⟩ → L.dayNumber d = 1
  dayNumber_next {d e : D} : L.civil e = (L.civil d).next → L.dayNumber e = L.dayNumber d + 1
  weekday_lt (d : D) : L.weekday d < 7
  weekday_first {d : D} : L.civil d = ⟨1, 1, 1⟩ → L.weekday d = 1
  weekday_next {d e : D} : L.civil e = (L.civil d).next → L.weekday e = (L.weekday d + 1) % 7
  ofDayNumber?_eq_some {n : ℤ} {d : D} : L.ofDayNumber? n = some d ↔ L.dayNumber d = n
  addDays?_eq_some {d e : D} {days : ℤ} : L.addDays? d days = some e ↔ L.dayNumber e = L.dayNumber d + days
  addMonths?_eq_some {d e : D} {months : ℤ} :
    L.addMonths? d months = some e ↔ L.civil e = (L.civil d).addMonths months

/-- The calendar in use. -/
def gregorian : DateLibrary Date where
  ofCivil? := Date.ofCivil?
  ofDayNumber? := Date.ofDayNumber?
  civil := Date.civil
  dayNumber := Date.dayNumber
  weekday := Date.weekday
  addDays? := Date.addDays?
  addMonths? := Date.addMonths?

end DateLibrary

/-! ## Day after day -/

namespace Civil

variable {c : Civil}

/-- The day after a date is a date, and its number is the next one. -/
theorem IsDate.next (h : c.IsDate) : c.next.IsDate ∧ c.next.dayNumber = c.dayNumber + 1 := by
  obtain ⟨hfirst, hlast, hday, hdays⟩ := h
  have hbefore := daysBeforeMonth_succ (isLeap c.year) hfirst
  unfold Civil.next
  split
  · rename_i hinside
    refine ⟨⟨hfirst, hlast, Nat.le_add_left 1 _, hinside⟩, ?_⟩
    unfold dayNumber
    dsimp only
    omega
  · rename_i hend
    split
    · rename_i hmonth
      have hlength := le_daysInMonth (isLeap c.year) (c.month + 1)
      refine ⟨⟨Nat.le_add_left 1 _, hmonth, le_rfl, hlength.trans' (Nat.le_add_left 1 27)⟩, ?_⟩
      unfold dayNumber
      dsimp only
      omega
    · have hmonth : c.month = 12 := by omega
      have hyear := daysBeforeYear_succ c.year
      have hjanuary : daysBeforeMonth (isLeap (c.year + 1)) 1 = 0 := rfl
      have hlength := le_daysInMonth (isLeap (c.year + 1)) 1
      rw [hmonth] at hend hdays hbefore
      rw [daysBeforeMonth_year] at hbefore
      refine ⟨⟨le_rfl, Nat.le_add_left 1 11, le_rfl, hlength.trans' (Nat.le_add_left 1 27)⟩, ?_⟩
      unfold dayNumber
      dsimp only
      rw [hmonth]
      omega

end Civil

theorem civilOfDay_succ (n : ℤ) : civilOfDay (n + 1) = (civilOfDay n).next := by
  obtain ⟨hdate, hnumber⟩ := (isDate_civilOfDay n).next
  rw [dayNumber_civilOfDay] at hnumber
  rw [← hnumber, civilOfDay_dayNumber hdate]

theorem inRange_civilOfDay_iff {n : ℤ} : (civilOfDay n).InRange ↔
    daysBeforeYear firstYear + 1 ≤ n ∧ n ≤ daysBeforeYear (lastYear + 1) := by
  obtain ⟨hlow, hhigh⟩ := daysBeforeYear_yearOfDay n
  have hyear : (civilOfDay n).year = yearOfDay n := rfl
  rw [Civil.InRange, hyear]
  constructor
  · rintro ⟨hfirst, hlast⟩
    have hfirst := daysBeforeYear_mono hfirst
    have hlast := daysBeforeYear_mono (Int.add_le_add_right hlast 1)
    omega
  · rintro ⟨hfirst, hlast⟩
    refine ⟨not_lt.1 fun h => ?_, not_lt.1 fun h => ?_⟩
    · have := daysBeforeYear_mono (Int.add_one_le_of_lt h)
      omega
    · have := daysBeforeYear_mono (Int.add_one_le_of_lt h)
      omega

/-! ## The calendar in use -/

namespace DateLibrary

theorem ofCivil?_eq_some_iff {c : Civil} {d : Date} : Date.ofCivil? c = some d ↔ d.civil = c := by
  constructor
  · exact Date.civil_of_ofCivil?
  · rintro rfl
    rw [Date.ofCivil?, if_pos d.isDate_civil]
    exact Date.ofDayNumber?_eq_some_iff.2 (dayNumber_civilOfDay _).symm

theorem dayNumber_of_civil {d : Date} {n : ℤ} (h : d.civil = civilOfDay n) : d.dayNumber = n := by
  rw [← dayNumber_civilOfDay n, ← h]
  exact (dayNumber_civilOfDay d.dayNumber).symm

theorem documented_gregorian : gregorian.Documented where
  ofCivil?_eq_some := ofCivil?_eq_some_iff
  exists_iff := by
    intro c
    constructor
    · rintro ⟨d, rfl⟩
      exact ⟨d.isDate_civil, inRange_civilOfDay_iff.2 ⟨d.first_le, d.le_last⟩⟩
    · rintro ⟨hdate, hfirst, hlast⟩
      obtain ⟨d, hd, -⟩ := Date.exists_of_isDate hdate hfirst hlast
      exact ⟨d, Date.civil_of_ofCivil? hd⟩
  dayNumber_first h := dayNumber_of_civil (n := 1) h
  dayNumber_next h := dayNumber_of_civil (h.trans (civilOfDay_succ _).symm)
  weekday_lt d := by
    show (d.dayNumber % 7).toNat < 7
    omega
  weekday_first {d} h := by
    have hnumber : d.dayNumber = 1 := dayNumber_of_civil (n := 1) h
    show (d.dayNumber % 7).toNat = 1
    rw [hnumber]
    rfl
  weekday_next {d e} h := by
    have hnumber : e.dayNumber = d.dayNumber + 1 := dayNumber_of_civil (h.trans (civilOfDay_succ _).symm)
    show (e.dayNumber % 7).toNat = ((d.dayNumber % 7).toNat + 1) % 7
    omega
  ofDayNumber?_eq_some := Date.ofDayNumber?_eq_some_iff
  addDays?_eq_some := Date.ofDayNumber?_eq_some_iff
  addMonths?_eq_some := ofCivil?_eq_some_iff

/-! ## Agreement -/

variable {D E : Type} {L : DateLibrary D} {M : DateLibrary E}

namespace Documented

theorem civil_injective (h : L.Documented) {d d' : D} (hd : L.civil d = L.civil d') : d = d' := by
  have hsome := h.ofCivil?_eq_some.2 hd
  rw [h.ofCivil?_eq_some.2 rfl] at hsome
  exact (Option.some.inj hsome).symm

/-- Days are counted and named forwards and backwards from the first one. -/
theorem number_and_weekday (h : L.Documented) (n : ℤ) :
    ∀ d, L.civil d = civilOfDay n → L.dayNumber d = n ∧ L.weekday d = (n % 7).toNat := by
  have hbounds : daysBeforeYear firstYear + 1 ≤ 1 ∧ 1 ≤ daysBeforeYear (lastYear + 1) := by decide
  have hexists : ∀ {k : ℤ}, daysBeforeYear firstYear + 1 ≤ k → k ≤ daysBeforeYear (lastYear + 1) →
      ∃ d, L.civil d = civilOfDay k := fun hfirst hlast =>
    h.exists_iff.2 ⟨isDate_civilOfDay _, inRange_civilOfDay_iff.2 ⟨hfirst, hlast⟩⟩
  induction n using Int.inductionOn' (b := 1) with
  | zero => exact fun d hd => ⟨h.dayNumber_first hd, h.weekday_first hd⟩
  | succ k hk ih =>
    intro d hd
    obtain ⟨-, hlast⟩ := inRange_civilOfDay_iff.1 (h.exists_iff.1 ⟨d, hd⟩).2
    obtain ⟨e, he⟩ := hexists (hbounds.1.trans hk) (by omega)
    obtain ⟨hnumber, hweekday⟩ := ih e he
    rw [civilOfDay_succ, ← he] at hd
    have hnumber' := h.dayNumber_next hd
    have hweekday' := h.weekday_next hd
    omega
  | pred k hk ih =>
    intro d hd
    obtain ⟨hfirst, -⟩ := inRange_civilOfDay_iff.1 (h.exists_iff.1 ⟨d, hd⟩).2
    obtain ⟨e, he⟩ := hexists (by omega) (hk.trans hbounds.2)
    obtain ⟨hnumber, hweekday⟩ := ih e he
    rw [← Int.sub_add_cancel k 1, civilOfDay_succ, ← hd] at he
    have hnumber' := h.dayNumber_next he
    have hweekday' := h.weekday_next he
    have hlt := h.weekday_lt d
    omega

theorem civilOfDay_civil (h : L.Documented) (d : D) : L.civil d = civilOfDay (L.civil d).dayNumber :=
  (civilOfDay_dayNumber (h.exists_iff.1 ⟨d, rfl⟩).1).symm

theorem dayNumber_eq (h : L.Documented) (d : D) : L.dayNumber d = (L.civil d).dayNumber :=
  (h.number_and_weekday _ d (h.civilOfDay_civil d)).1

theorem weekday_eq (h : L.Documented) (d : D) : L.weekday d = ((L.civil d).dayNumber % 7).toNat :=
  (h.number_and_weekday _ d (h.civilOfDay_civil d)).2

theorem exists_same (hL : L.Documented) (hM : M.Documented) (d : D) : ∃ e, M.civil e = L.civil d :=
  hM.exists_iff.2 (hL.exists_iff.1 ⟨d, rfl⟩)

end Documented

/-- The dates of two libraries correspond, and their operations do the same with them. -/
structure Agreement (L : DateLibrary D) (M : DateLibrary E) where
  same : D ≃ E
  civil (d : D) : M.civil (same d) = L.civil d
  dayNumber (d : D) : M.dayNumber (same d) = L.dayNumber d
  weekday (d : D) : M.weekday (same d) = L.weekday d
  ofCivil? (c : Civil) : M.ofCivil? c = (L.ofCivil? c).map same
  ofDayNumber? (n : ℤ) : M.ofDayNumber? n = (L.ofDayNumber? n).map same
  addDays? (d : D) (days : ℤ) : M.addDays? (same d) days = (L.addDays? d days).map same
  addMonths? (d : D) (months : ℤ) : M.addMonths? (same d) months = (L.addMonths? d months).map same

theorem eq_map_of_iff {same : D ≃ E} {x : Option E} {y : Option D} (h : ∀ d, x = some (same d) ↔ y = some d) :
    x = y.map same := by
  refine Option.ext fun e => ?_
  obtain ⟨d, rfl⟩ := same.surjective e
  rw [h d, Option.map_eq_some_iff]
  constructor
  · exact fun hd => ⟨d, hd, rfl⟩
  · rintro ⟨d', hd', heq⟩
    rwa [← same.injective heq]

/-- What the documentation says leaves nothing open. -/
theorem Documented.agree (hL : L.Documented) (hM : M.Documented) : Nonempty (L.Agreement M) := by
  choose f hf using hL.exists_same hM
  choose g hg using hM.exists_same hL
  let same : D ≃ E := ⟨f, g, fun d => hL.civil_injective ((hg _).trans (hf d)),
    fun e => hM.civil_injective ((hf _).trans (hg e))⟩
  have hcivil : ∀ d, M.civil (same d) = L.civil d := hf
  have hnumber : ∀ d, M.dayNumber (same d) = L.dayNumber d := fun d => by
    rw [hM.dayNumber_eq, hL.dayNumber_eq, hcivil]
  refine ⟨⟨same, hcivil, hnumber, fun d => ?_, fun c => ?_, fun n => ?_, fun d days => ?_, fun d months => ?_⟩⟩
  · rw [hM.weekday_eq, hL.weekday_eq, hcivil]
  · exact eq_map_of_iff fun d => by rw [hM.ofCivil?_eq_some, hL.ofCivil?_eq_some, hcivil]
  · exact eq_map_of_iff fun d => by rw [hM.ofDayNumber?_eq_some, hL.ofDayNumber?_eq_some, hnumber]
  · exact eq_map_of_iff fun e => by rw [hM.addDays?_eq_some, hL.addDays?_eq_some, hnumber, hnumber]
  · exact eq_map_of_iff fun e => by rw [hM.addMonths?_eq_some, hL.addMonths?_eq_some, hcivil, hcivil]

end DateLibrary

end Spreadsheet.Calendar
