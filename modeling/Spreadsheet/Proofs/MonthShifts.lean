import Spreadsheet.Proofs.DateArguments

/-!
# Moving by months

`EDATE` moves a date by months and stays within the month that it comes to, whose last day `EOMONTH` gives. The first
day of the month after it decides both: it is later than the day moved to, and the last day is the day before it. A day
that every month has is not changed by a move, so moves that begin with one add up.

* `Date.firstOfMonth?_eq` : the first day of the month so many months later; `Date.exists_monthAfter` : of the next one;
* `Date.addMonths?_add` : moves add up;
* `DateFunction.monthShifts_agree` : `EDATE`, `EOMONTH` and `DAY` agree.
-/

namespace Spreadsheet

namespace Calendar

variable {d e f : Date} {a b months : ℤ} {x : Float} {c : Civil}

theorem Date.firstOfMonth?_eq (d : Date) (hmonths : |months| < 2 ^ 59) :
    firstOfMonth? d.year (d.month + months) = ofDayNumber? (monthStart (d.monthCount + months)) := by
  have hyear := d.abs_year_lt
  have hcount : 12 * d.year + (d.month + months - 1) = d.monthCount + months := by
    unfold monthCount
    omega
  have hmonth := d.abs_monthCount_lt
  rw [abs_lt] at hmonths hyear hmonth
  rw [firstOfMonth?_eq_ofDayNumber?, hcount]
  all_goals
    simp only [fits64, Bool.and_eq_true, decide_eq_true_eq]
    omega

theorem Date.exists_monthAfter (h : d.year < lastYear) :
    ∃ f, ofDayNumber? (monthStart (d.monthCount + 1)) = some f ∧ f.day = 1 ∧ d.serial < f.serial := by
  have hyear := d.year_eq
  have hmonth := d.monthCount_mem
  have hcount : 12 * d.year + (d.month + 1 - 1) = d.monthCount + 1 := by
    unfold monthCount
    omega
  obtain ⟨f, hf⟩ : ∃ f, firstOfMonth? d.year (d.month + 1) = some f :=
    Calendar.exists_firstOfMonth? d.abs_year_lt (by omega) (by omega)
  have hstart : f.dayNumber = monthStart (d.monthCount + 1) := hcount ▸ dayNumber_of_firstOfMonth? hf
  exact ⟨f, ofDayNumber?_eq_some_iff.2 hstart, (monthCount_of_firstOfMonth? hf).2,
    serial_lt_iff.2 (hstart ▸ d.lt_monthStart)⟩

theorem Date.day_of_addMonths?_of_le (hday : d.day ≤ 28) (h : d.addMonths? a = some e) : e.day = d.day := by
  have hlength := le_monthLength (d.monthCount + a)
  rw [day_of_addMonths? h, min_eq_left (by omega)]

theorem Date.addMonths?_add (hday : d.day ≤ 28) (he : d.addMonths? a = some e) :
    e.addMonths? b = d.addMonths? (a + b) := by
  rw [addMonths?_eq, addMonths?_eq, shifted, shifted, day_of_addMonths?_of_le hday he, monthCount_of_addMonths? he,
    Int.add_assoc]

/-- What a sheet shows is the date, but for the day too many. -/
theorem day_of_serialCivil? (hd : serialDate? x = some d) (hc : serialCivil? x = some c) :
    c.day = d.day ∨ c.day = 29 := by
  obtain ⟨⟨whole, seconds⟩, hsplit, hdate⟩ := Option.bind_eq_some_iff.1 hd
  rw [serialCivil?, hsplit, Option.bind_some] at hc
  dsimp only at hc hdate
  rw [hdate] at hc
  split at hc
  · exact .inr (Option.some.inj hc ▸ rfl)
  · exact .inl (Option.some.inj hc ▸ rfl)

end Calendar

namespace DateFunction

open Binary64 (represents_ofInt ofInt_add)
open Calendar (Date represents_serialNumber serialDate?_serialNumber serialCivil?_serialNumber)

variable {v w u : Value} {n k : ℤ}

theorem abs_serial_sub_one_lt (f : Date) : |f.serial - 1| < 2 ^ 53 := by
  have hserial := Calendar.abs_serial_lt f
  rw [abs_lt] at *
  omega

/-- What `EDATE` gives is a date; the last day of its month is what `EOMONTH` gives, from where it started and from
there, and a day later it is the first of the month. -/
theorem lastDay_of_sameDay [RegexLibrary] (hv : v.Holds n) (hw : w.Holds k) (h : Gives "EDATE" [v, w] u)
    (hu : u.isError = false) :
    ∃ e : Date, u = .ofInt e.serial ∧ (e.year < Calendar.lastYear → ∃ last : ℤ, e.serial ≤ last ∧
      Gives "EOMONTH" [v, w] (.ofInt last) ∧ Gives "EOMONTH" [u, .ofInt 0] (.ofInt last) ∧
      Gives "DAY" [.number (Float.ofInt last + 1.0 : Float)] (.ofInt 1)) := by
  obtain ⟨x, rfl, hx⟩ := hv
  obtain ⟨hn, hk, d, e, hd, he, hserial, rfl⟩ := (gives_sameDay_iff hx hw hu).1 h
  refine ⟨e, rfl, fun hyear => ?_⟩
  obtain ⟨f, hf, hfirst, hlater⟩ := Date.exists_monthAfter hyear
  have hmonth := Date.monthCount_of_addMonths? he
  have hfrom : Calendar.firstOfMonth? d.year (d.month + k + 1) = some f := by
    rw [Int.add_assoc, d.firstOfMonth?_eq (by rw [abs_lt]; rw [abs_le] at hk; omega), ← Int.add_assoc, ← hmonth, hf]
  have hthere : Calendar.firstOfMonth? e.year (e.month + 0 + 1) = some f := by
    rw [Int.add_zero, e.firstOfMonth?_eq (by norm_num), hf]
  have hnext : Float.ofInt (f.serial - 1) + 1.0 = f.serialNumber := by
    have hsum := ofInt_add (abs_serial_sub_one_lt f) (by norm_num : |(1 : ℤ)| < 2 ^ 53)
      (by rw [Int.sub_add_cancel]; exact (Calendar.abs_serial_lt f).trans (by norm_num))
    rwa [Int.sub_add_cancel] at hsum
  refine ⟨f.serial - 1, by omega, ?_, ?_, ?_⟩
  · exact (gives_lastDay_iff hx hw rfl).2 ⟨hn, hk, d, f, hd, hfrom, by omega, rfl⟩
  · exact (gives_lastDay_iff (represents_serialNumber e) (Value.holds_ofInt (by norm_num)) rfl).2
      ⟨hserial, by norm_num, e, f, serialDate?_serialNumber e, hthere, by omega, rfl⟩
  · rw [hnext]
    exact (gives_day_iff (represents_serialNumber f) rfl).2
      ⟨by omega, f.civil, serialCivil?_serialNumber f, congrArg (fun day : ℕ => Value.ofInt day) hfirst.symm⟩

theorem sameDay_add [RegexLibrary] {a b day : ℤ} {wa wb wab p q r : Value} (hv : v.Holds n) (hday : Gives "DAY" [v] u)
    (hu : u.Holds day) (hle : day ≤ 28) (ha : wa.Holds a) (hb : wb.Holds b) (hab : wab.Holds (a + b))
    (hp : Gives "EDATE" [v, wa] p) (hq : Gives "EDATE" [p, wb] q) (hr : Gives "EDATE" [v, wab] r)
    (hpn : p.isError = false) (hqn : q.isError = false) (hrn : r.isError = false) : q = r := by
  obtain ⟨x, rfl, hx⟩ := hv
  obtain ⟨-, -, d, e, hd, he, -, rfl⟩ := (gives_sameDay_iff hx ha hpn).1 hp
  obtain ⟨-, -, e', f, he', hf, -, rfl⟩ := (gives_sameDay_iff (represents_serialNumber e) hb hqn).1 hq
  obtain ⟨-, -, d', g, hd', hg, -, rfl⟩ := (gives_sameDay_iff hx hab hrn).1 hr
  obtain rfl : e = e' := Option.some.inj ((serialDate?_serialNumber e).symm.trans he')
  obtain rfl : d = d' := Option.some.inj (hd.symm.trans hd')
  have hshort : d.day ≤ 28 := by
    obtain ⟨-, c, hc, rfl⟩ := (gives_day_iff hx hu.isError).1 hday
    have hlength := d.day_le_monthLength.trans (Calendar.monthLength_le _)
    have hshown := Calendar.day_of_serialCivil? hd hc
    have hsame : (c.day : ℤ) = day := (Value.holds_ofInt (by rw [abs_lt]; omega)).unique hu
    omega
  rw [Date.addMonths?_add hshort he, hg] at hf
  rw [Option.some.inj hf]

/-- From the same day, however it is moved by months: `EOMONTH` gives the last day of the month that `EDATE` comes to,
also from there, which is not before that day and which a first day of a month follows; and moves from a day up to 28
add up. Only the last year of the calendar has a month without one after it to count from. -/
theorem monthShifts_agree [RegexLibrary] (hv : v.Holds n) :
    (∀ k w u, w.Holds k → Gives "EDATE" [v, w] u → u.isError = false →
      ∃ e : Date, u = .ofInt e.serial ∧ (e.year < Calendar.lastYear → ∃ last : ℤ, e.serial ≤ last ∧
        Gives "EOMONTH" [v, w] (.ofInt last) ∧ Gives "EOMONTH" [u, .ofInt 0] (.ofInt last) ∧
        Gives "DAY" [.number (Float.ofInt last + 1.0 : Float)] (.ofInt 1))) ∧
    ∀ day u, Gives "DAY" [v] u → u.Holds day → day ≤ 28 → ∀ a b wa wb wab p q r, wa.Holds a → wb.Holds b →
      wab.Holds (a + b) → Gives "EDATE" [v, wa] p → Gives "EDATE" [p, wb] q → Gives "EDATE" [v, wab] r →
      p.isError = false → q.isError = false → r.isError = false → q = r :=
  ⟨fun _ _ _ hw => lastDay_of_sameDay hv hw,
    fun _ _ hday hu hle _ _ _ _ _ _ _ _ => sameDay_add hv hday hu hle⟩

theorem monthShifts_agree_january2024 : (Value.ofInt 45319).Holds 45319 ∧
    Gives "EDATE" [.ofInt 45319, .ofInt 1] (.ofInt 45350) ∧
    (∃ last : ℤ, 45350 ≤ last ∧ Gives "EOMONTH" [.ofInt 45319, .ofInt 1] (.ofInt last) ∧
      Gives "EOMONTH" [.ofInt 45350, .ofInt 0] (.ofInt last) ∧
      Gives "DAY" [.number (Float.ofInt last + 1.0 : Float)] (.ofInt 1)) ∧
    ∃ q r, Gives "EDATE" [.ofInt 45350, .ofInt (-2)] q ∧ Gives "EDATE" [.ofInt 45319, .ofInt (1 + -2)] r ∧ q = r := by
  have hstart : (Value.ofInt 45319).Holds 45319 := Value.holds_ofInt (by norm_num)
  have hmonths : ∀ k : ℤ, |k| ≤ 3 → (Value.ofInt k).Holds k := fun k hk => Value.holds_ofInt (by omega)
  have hmoved : Gives "EDATE" [.ofInt 45319, .ofInt 1] (.ofInt 45350) :=
    (gives_sameDay_iff (represents_ofInt (by norm_num)) (hmonths 1 (by norm_num)) rfl).2
      ⟨by norm_num, by norm_num, ⟨738913, by decide, by decide⟩, ⟨738944, by decide, by decide⟩, by decide +kernel,
        by decide +kernel, by decide, rfl⟩
  have hback : Gives "EDATE" [.ofInt 45350, .ofInt (-2)] (.ofInt 45288) :=
    (gives_sameDay_iff (represents_ofInt (by norm_num)) (hmonths (-2) (by norm_num)) rfl).2
      ⟨by norm_num, by norm_num, ⟨738944, by decide, by decide⟩, ⟨738882, by decide, by decide⟩, by decide +kernel,
        by decide +kernel, by decide, rfl⟩
  have hsum : Gives "EDATE" [.ofInt 45319, .ofInt (1 + -2)] (.ofInt 45288) :=
    (gives_sameDay_iff (represents_ofInt (by norm_num)) (hmonths (1 + -2) (by norm_num)) rfl).2
      ⟨by norm_num, by norm_num, ⟨738913, by decide, by decide⟩, ⟨738882, by decide, by decide⟩, by decide +kernel,
        by decide +kernel, by decide, rfl⟩
  have hday : Gives "DAY" [.ofInt 45319] (.ofInt 28) :=
    (gives_day_iff (represents_ofInt (by norm_num)) rfl).2 ⟨by norm_num, ⟨2024, 1, 28⟩, by decide +kernel, rfl⟩
  obtain ⟨hlast, hadd⟩ := monthShifts_agree hstart
  obtain ⟨e, he, hmonth⟩ := hlast 1 _ _ (hmonths 1 (by norm_num)) hmoved rfl
  have hserial : e.serial = 45350 :=
    (Value.holds_ofInt ((Calendar.abs_serial_lt e).trans (by norm_num))).unique (he ▸ Value.holds_ofInt (by norm_num))
  obtain rfl : e = ⟨738944, by decide, by decide⟩ := Date.ext_serial hserial
  exact ⟨hstart, hmoved, hmonth (by decide +kernel), _, _, hback, hsum, hadd 28 _ hday
    (Value.holds_ofInt (by norm_num)) le_rfl 1 (-2) _ _ _ _ _ _ (hmonths 1 (by norm_num)) (hmonths (-2) (by norm_num))
    (hmonths _ (by norm_num)) hmoved hback hsum rfl rfl rfl⟩

end DateFunction

end Spreadsheet
