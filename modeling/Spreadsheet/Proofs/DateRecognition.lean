import Spreadsheet.Proofs.DateDisplay

/-!
# Which texts are dates

A text is a date where it belongs to a layout and its parts are a date of the calendar and a time of the day. Parts that
are rolled into the calendar without moving are such a date, and the serial is the one of the rolled date.

* `isDate_iff_rolled` : the parts of a date are those that rolling leaves alone;
* `dateText_of_order` : the order is asked only about slash dates with two parts that can be months;
* `parseDate?_accepts` : the texts that are recognised, with their serials.
-/

namespace Spreadsheet.Calendar

/-! ## Rolling parts into the calendar -/

variable {year month day : Nat}

theorem firstOfMonth?_eq (hyear : year < 10000) (hfirst : 1 ≤ month) (hlast : month ≤ 12) :
    firstOfMonth? year month = Date.ofCivil? ⟨year, month, 1⟩ := by
  have hfits : fits64 (12 * (year : Int)) ∧ fits64 (12 * (year : Int) + (month - 1)) := by
    simp only [fits64, Bool.and_eq_true, decide_eq_true_eq]
    omega
  have hyears : (12 * (year : Int) + (month - 1)) / 12 = year := by omega
  have hmonths : ((12 * (year : Int) + (month - 1)) % 12).toNat + 1 = month := by omega
  simp only [firstOfMonth?, hfits, Bool.and_self, if_true, hyears, hmonths]

theorem exists_ofCivil? (hyear : year < 10000) (hdate : Civil.IsDate ⟨year, month, day⟩) :
    ∃ d, Date.ofCivil? ⟨year, month, day⟩ = some d ∧ d.dayNumber = Civil.dayNumber ⟨year, month, day⟩ := by
  have hfirst : firstYear ≤ year := by unfold firstYear; omega
  have hlast : (year : Int) ≤ lastYear := by unfold lastYear; omega
  exact Date.exists_of_isDate hdate hfirst hlast

theorem rollDate?_of_isDate (hyear : year < 10000) (hdate : Civil.IsDate ⟨year, month, day⟩) :
    rollDate? year month day = Date.ofCivil? ⟨year, month, day⟩ := by
  obtain ⟨d, hd, hnumber⟩ := exists_ofCivil? hyear hdate
  obtain ⟨hfirst, hlast, hday, hdays⟩ := hdate
  have hstart : Civil.IsDate ⟨year, month, 1⟩ := ⟨hfirst, hlast, Nat.le_refl 1, hday.trans hdays⟩
  obtain ⟨first, hfirst', hnumber'⟩ := exists_ofCivil? hyear hstart
  have hday' : day ≤ 31 := hdays.trans (daysInMonth_le _ _)
  have hshift : ((day : Int) - 1).natAbs ≤ maxDayShift := by unfold maxDayShift; omega
  have hsum : first.dayNumber + ((day : Int) - 1) = d.dayNumber := by
    rw [hnumber, hnumber']
    unfold Civil.dayNumber
    dsimp only
    omega
  rw [rollDate?, firstOfMonth?_eq hyear hfirst hlast, hfirst', Option.bind_some, if_pos hshift, Date.addDays?, hsum, hd,
    Date.ofDayNumber?, dif_pos ⟨d.first_le, d.le_last⟩]

/-- A day that does not exist is rolled to another one. -/
theorem isDate_iff_rolled (hyear : year < 10000) :
    Civil.IsDate ⟨year, month, day⟩ ↔ ∃ d, rollDate? year month day = some d ∧ d.civil = ⟨year, month, day⟩ := by
  constructor
  · intro hdate
    obtain ⟨d, hd, -⟩ := exists_ofCivil? hyear hdate
    exact ⟨d, (rollDate?_of_isDate hyear hdate).trans hd, Date.civil_of_ofCivil? hd⟩
  · rintro ⟨d, -, hcivil⟩
    rw [← hcivil]
    exact isDate_civilOfDay d.dayNumber

theorem ofCivil?_eq_some_iff (hyear : year < 10000) {d : Date} :
    Date.ofCivil? ⟨year, month, day⟩ = some d ↔
      rollDate? year month day = some d ∧ d.civil = ⟨year, month, day⟩ := by
  constructor
  · intro h
    exact ⟨(rollDate?_of_isDate hyear (isDate_of_ofCivil? h)).trans h, Date.civil_of_ofCivil? h⟩
  · rintro ⟨hroll, hcivil⟩
    rw [← rollDate?_of_isDate hyear ((isDate_iff_rolled hyear).2 ⟨d, hroll, hcivil⟩), hroll]

/-! ## The order of a slash date -/

variable {order other : DateOrder} {cs : List Char} {w : WrittenDate} {text : String}

/-- With another order a text has a layout as well, and the same parts unless it is a slash date of two parts that can
be months. -/
theorem dateText_of_order (h : DateText order cs w) (other : DateOrder) : ∃ w', DateText other cs w' ∧
    (w' = w ∨ w.layout ∈ [.slashDayFirst, .slashMonthFirst] ∧ w.month ≤ 12 ∧ w.day ≤ 12) := by
  cases h with
  | iso hyear hmonth hday htime => exact ⟨_, .iso hyear hmonth hday htime, .inl rfl⟩
  | @slash _ _ _ _ first second year time hfirst hsecond hyear htime =>
    refine ⟨_, .slash hfirst hsecond hyear htime, ?_⟩
    by_cases hlarge : 12 < first ∨ 12 < second
    · left
      unfold slashDate
      rcases hlarge with hlarge | hlarge <;> simp [hlarge]
    · obtain ⟨hfirst', hsecond'⟩ := not_or.1 hlarge
      right
      cases order <;> simp [slashDate, hfirst', hsecond', Nat.not_lt.1 hfirst', Nat.not_lt.1 hsecond']
  | dayMonthDash hday hword hyear => exact ⟨_, .dayMonthDash hday hword hyear, .inl rfl⟩
  | dayMonthBlank hday hword hpoint hcomma hyear =>
    exact ⟨_, .dayMonthBlank hday hword hpoint hcomma hyear, .inl rfl⟩
  | monthDay hword hpoint hday hending hcomma hyear =>
    exact ⟨_, .monthDay hword hpoint hday hending hcomma hyear, .inl rfl⟩

theorem slash_of_parseDate?_ne (h : parseDate? text order ≠ parseDate? text other) :
    ∃ w, DateText order (Text.trim text).toList w ∧ w.layout ∈ [.slashDayFirst, .slashMonthFirst] ∧ w.month ≤ 12 ∧
      w.day ≤ 12 := by
  unfold parseDate? at h
  cases hread : readDateText order (Text.trim text).toList with
  | some w =>
    have hw := dateText_of_readDateText hread
    obtain ⟨w', hw', rfl | hslash⟩ := dateText_of_order hw other
    · rw [hread, readDateText_of_dateText hw'] at h
      exact absurd rfl h
    · exact ⟨w, hw, hslash⟩
  | none =>
    -- A text without a layout has none with the other order, either.
    cases hread' : readDateText other (Text.trim text).toList with
    | some w' =>
      obtain ⟨w, hw, -⟩ := dateText_of_order (dateText_of_readDateText hread') order
      rw [readDateText_of_dateText hw] at hread
      cases hread
    | none =>
      rw [hread, hread'] at h
      exact absurd rfl h

/-! ## Texts that are recognised -/

theorem parseDate?_eq_some_iff {p : RecognisedDate} : parseDate? text order = some p ↔
    ∃ w d, DateText order (Text.trim text).toList w ∧ rollDate? w.year w.month w.day = some d ∧
      d.civil = ⟨w.year, w.month, w.day⟩ ∧ (∀ t ∈ w.time, t.IsTime) ∧
      p = ⟨serialWith d w.time, w.layout.codeWith w.time⟩ := by
  simp only [parseDate?, Option.bind_eq_some_iff, readDateText_eq_some_iff, recognise_eq_some]
  constructor
  · rintro ⟨w, hw, d, hdate, htime, hp⟩
    obtain ⟨hroll, hcivil⟩ := (ofCivil?_eq_some_iff hw.fits.year_lt).1 hdate
    exact ⟨w, d, hw, hroll, hcivil, htime, hp⟩
  · rintro ⟨w, d, hw, hroll, hcivil, htime, hp⟩
    exact ⟨w, hw, d, (ofCivil?_eq_some_iff hw.fits.year_lt).2 ⟨hroll, hcivil⟩, htime, hp⟩

/-- A text is recognised where it belongs to a layout, its parts are a date and its time is one of the day. The serial
is the one of the date that the parts roll to, with the fraction of the time, and only a slash date of two parts that
can be months asks for the order. The look at the start of a text refuses no text of a layout. -/
theorem parseDate?_accepts (text : String) (order : DateOrder) :
    ((parseDate? text order).isSome ↔ ∃ w, DateText order (Text.trim text).toList w ∧
      Civil.IsDate ⟨w.year, w.month, w.day⟩ ∧ ∀ t ∈ w.time, t.IsTime) ∧
    (∀ p, parseDate? text order = some p ↔
      ∃ w d, DateText order (Text.trim text).toList w ∧ rollDate? w.year w.month w.day = some d ∧
        d.civil = ⟨w.year, w.month, w.day⟩ ∧ (∀ t ∈ w.time, t.IsTime) ∧
        p = ⟨serialWith d w.time, w.layout.codeWith w.time⟩) ∧
    (∀ other, parseDate? text order ≠ parseDate? text other →
      ∃ w, DateText order (Text.trim text).toList w ∧ w.layout ∈ [.slashDayFirst, .slashMonthFirst] ∧ w.month ≤ 12 ∧
        w.day ≤ 12) ∧
    (∀ w, DateText order (Text.trim text).toList w → looksLikeDate text) := by
  refine ⟨?_, fun p => parseDate?_eq_some_iff, fun other => slash_of_parseDate?_ne, fun w => DateText.looksLikeDate⟩
  rw [Option.isSome_iff_exists]
  constructor
  · rintro ⟨p, hp⟩
    obtain ⟨w, d, hw, hroll, hcivil, htime, -⟩ := parseDate?_eq_some_iff.1 hp
    exact ⟨w, hw, (isDate_iff_rolled hw.fits.year_lt).2 ⟨d, hroll, hcivil⟩, htime⟩
  · rintro ⟨w, hw, hdate, htime⟩
    obtain ⟨d, hroll, hcivil⟩ := (isDate_iff_rolled hw.fits.year_lt).1 hdate
    exact ⟨_, parseDate?_eq_some_iff.2 ⟨w, d, hw, hroll, hcivil, htime, rfl⟩⟩

/-- Both parts can be months, so the order decides between the third of April and the fourth of March. -/
theorem parseDate?_accepts_ambiguous :
    (∃ d : Date, d.civil = ⟨2024, 4, 3⟩ ∧ parseDate? " 3/4/2024 6:00" .dayFirst =
      some ⟨serialWith d (some ⟨6, 0, none⟩), "DD/MM/YYYY hh:mm"⟩) ∧
    looksLikeDate " 3/4/2024 6:00" ∧
    parseDate? " 3/4/2024 6:00" .dayFirst ≠ parseDate? " 3/4/2024 6:00" .monthFirst ∧
    ∃ w, DateText .dayFirst (Text.trim " 3/4/2024 6:00").toList w ∧
      w.layout ∈ [.slashDayFirst, .slashMonthFirst] ∧ w.month ≤ 12 ∧ w.day ≤ 12 := by
  obtain ⟨-, haccepts, horder, hlooks⟩ := parseDate?_accepts " 3/4/2024 6:00" .dayFirst
  have hread : readDateText .dayFirst (Text.trim " 3/4/2024 6:00").toList =
      some ⟨.slashDayFirst, 2024, 4, 3, some ⟨6, 0, none⟩⟩ := by
    decide +kernel
  have hw := dateText_of_readDateText hread
  obtain ⟨d, hroll, hcivil⟩ := (@isDate_iff_rolled 2024 4 3 (by decide)).1 (by decide)
  have htime : ∀ t ∈ some (⟨6, 0, none⟩ : WrittenTime), t.IsTime := by decide
  have hne : parseDate? " 3/4/2024 6:00" .dayFirst ≠ parseDate? " 3/4/2024 6:00" .monthFirst := fun h =>
    absurd (congrArg (Option.map RecognisedDate.code) h) (by decide +kernel)
  exact ⟨⟨d, hcivil, (haccepts _).2 ⟨_, d, hw, hroll, hcivil, htime, rfl⟩⟩, hlooks _ hw, hne, horder _ hne⟩

end Spreadsheet.Calendar
