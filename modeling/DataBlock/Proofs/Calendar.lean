import DataBlock.Calendar.TimeOfDay

/-!
# Laws of the calendar

Day numbers order the dates as years, months and days do, so that a date is known
by its day number; a time of day is known by its milliseconds since midnight.

Main results:

- `Date.ordinal_injective`: a date is known by its day number.
- `Date.addDays_eq_of_ordinal`: counting the days between two dates forward leads
  from the one to the other.
- `TimeOfDay.ofMillis_of_dayMillis?`: a time of whole milliseconds is the time so
  many milliseconds after midnight.
-/

namespace DataBlock

/-! ## Years and months -/

theorem daysBeforeYear_mono {year year' : Int} (h : year ≤ year') :
    daysBeforeYear year ≤ daysBeforeYear year' := by
  unfold daysBeforeYear
  omega

/-- The days before the month after a month. -/
theorem daysBeforeMonth_add_one (year : Int) {month : Nat} (h : 1 ≤ month) :
    daysBeforeMonth year (month + 1)
      = daysBeforeMonth year month + monthLength year month := by
  obtain ⟨m, rfl⟩ : ∃ m, month = m + 1 := ⟨month - 1, by omega⟩
  rfl

/-- A month ends before a later month of the same year begins. -/
theorem daysBeforeMonth_add_le (year : Int) {month month' : Nat} (hpos : 1 ≤ month)
    (h : month < month') :
    daysBeforeMonth year month + monthLength year month ≤ daysBeforeMonth year month' := by
  induction month' with
  | zero => omega
  | succ m ih =>
      rw [daysBeforeMonth_add_one year (by omega)]
      rcases Nat.lt_succ_iff_lt_or_eq.1 h with hlt | rfl
      · have hle := ih hlt
        omega
      · exact Nat.le_refl _

namespace Date

/-! ## Day numbers -/

/-- A date lies within its year. -/
theorem ordinal_le_daysBeforeYear_add_one (d : Date) :
    d.ordinal ≤ daysBeforeYear (d.year + 1) := by
  have hmonth := d.month_valid
  have hday := d.day_valid
  have hwithin : daysBeforeMonth d.year d.month + monthLength d.year d.month
      ≤ daysBeforeMonth d.year 12 + monthLength d.year 12 := by
    rcases Nat.lt_or_eq_of_le hmonth.2 with hlt | heq
    · have hle := daysBeforeMonth_add_le d.year hmonth.1 hlt
      omega
    · exact Nat.le_of_eq (by rw [heq])
  rw [daysBeforeYear_add_one, ordinal]
  omega

theorem ordinal_lt_of_year_lt {d e : Date} (h : d.year < e.year) : d.ordinal < e.ordinal := by
  have hday := e.day_valid
  have hyear : daysBeforeYear (d.year + 1) ≤ daysBeforeYear e.year :=
    daysBeforeYear_mono (by omega)
  have hle := ordinal_le_daysBeforeYear_add_one d
  have hlt : daysBeforeYear e.year < e.ordinal := by
    rw [ordinal]
    omega
  omega

theorem ordinal_lt_of_month_lt {d e : Date} (hyear : d.year = e.year)
    (h : d.month < e.month) : d.ordinal < e.ordinal := by
  have hd := d.day_valid
  have he := e.day_valid
  have hle := daysBeforeMonth_add_le d.year d.month_valid.1 h
  rw [ordinal, ordinal, ← hyear]
  omega

/-- A date is known by its day number. -/
theorem ordinal_injective {d e : Date} (h : d.ordinal = e.ordinal) : d = e := by
  have hyear : d.year = e.year := by
    rcases Int.lt_trichotomy d.year e.year with hlt | heq | hgt
    · have := ordinal_lt_of_year_lt hlt
      omega
    · exact heq
    · have := ordinal_lt_of_year_lt hgt
      omega
  have hmonth : d.month = e.month := by
    rcases Nat.lt_trichotomy d.month e.month with hlt | heq | hgt
    · have := ordinal_lt_of_month_lt hyear hlt
      omega
    · exact heq
    · have := ordinal_lt_of_month_lt hyear.symm hgt
      omega
  have hday : d.day = e.day := by
    rw [ordinal, ordinal, hyear, hmonth] at h
    omega
  cases d
  cases e
  simp_all

/-- Counting the days between two dates forward leads from the one to the other. -/
theorem addDays_eq_of_ordinal {d e : Date} {n : Nat} (h : e.ordinal = d.ordinal + n) :
    d.addDays n = e := by
  apply ordinal_injective
  rw [ordinal_addDays, h]

/-- The parts of a date make that date again. -/
@[simp] theorem ofParts?_parts (d : Date) : ofParts? d.year d.month d.day = some d :=
  dif_pos ⟨d.month_valid, d.day_valid⟩

theorem day_le (d : Date) : d.day ≤ 31 := by
  have hlength : ∀ month, monthLength d.year month ≤ 31 := by
    intro month
    unfold monthLength
    repeat' split
    all_goals decide
  exact Nat.le_trans d.day_valid.2 (hlength _)

theorem weekday_valid (d : Date) : 1 ≤ d.weekday ∧ d.weekday ≤ 7 := by
  unfold weekday
  omega

end Date

namespace TimeOfDay

/-! ## Times in milliseconds -/

/-- A time of whole milliseconds is the time so many milliseconds after midnight. -/
theorem ofMillis_of_dayMillis? {t : TimeOfDay} {ms : Nat} (h : t.dayMillis? = some ms) :
    ∃ hday : ms < millisPerDay, ofMillis ms hday = t := by
  rcases Option.map_eq_some_iff.1 h with ⟨part, hpart, rfl⟩
  rcases millis?_eq_some_iff.1 hpart with ⟨hlt, hnanos⟩
  have hhour := t.hour_lt
  have hminute := t.minute_lt
  have hsecond := t.second_lt
  have hday : t.seconds * 1000 + part < millisPerDay := by
    unfold seconds millisPerDay
    omega
  refine ⟨hday, ?_⟩
  cases t
  simp only [ofMillis, seconds, TimeOfDay.mk.injEq] at *
  rw [hnanos]
  refine ⟨?_, ?_, ?_, congrArg (· * nanosPerMilli) ?_⟩
  all_goals omega

end TimeOfDay
end DataBlock
