import DataBlock.Proofs.Footprint
import DataBlock.Proofs.Representable
import Mathlib.Logic.Function.Iterate

/-!
# Codes of days

A day is stored as a count of days from 1990-01-01 on, or beside a date and time as the code
of its weekday.  Both follow the calendar: from each day to the next one, the count goes up by
one, and the weekday goes one further around the week.  The day after a date is told by the
lengths of the months alone, not by a count.

Main results:

- `Date.ordinal_next`: the day after a date has the next day number.
- `Date.weekday_next`: the weekday goes one further, and from the seventh to the first.
- `Date.IsWeekdayCode.eq_weekday`: there is one code that goes around the week as weekdays do.
- `FieldType.codes_follow_calendar`: the stored counts and the stored weekdays of all dates.
-/

namespace DataBlock

/-! ## The next day -/

namespace Date

/-- The day after a date: the next one of its month, the first one of the next month, or the
first one of the next year. -/
def next (d : Date) : Date :=
  if hday : d.day < monthLength d.year d.month then
    ⟨d.year, d.month, d.day + 1, d.month_valid, Nat.le_add_left 1 d.day, hday⟩
  else if hmonth : d.month < 12 then
    ⟨d.year, d.month + 1, 1, ⟨Nat.le_add_left 1 d.month, hmonth⟩, Nat.le_refl 1,
      monthLength_pos d.year (d.month + 1)⟩
  else
    ⟨d.year + 1, 1, 1, ⟨Nat.le_refl 1, Nat.le_trans d.month_valid.1 d.month_valid.2⟩,
      Nat.le_refl 1, monthLength_pos (d.year + 1) 1⟩

/-- The day after a date has the next day number, within a month, at the end of one, and at
the end of a year. -/
theorem ordinal_next (d : Date) : d.next.ordinal = d.ordinal + 1 := by
  have hvalid := d.day_valid
  unfold next
  split
  · simp only [ordinal]
    omega
  · next hday =>
      have hlast : d.day = monthLength d.year d.month := by omega
      split
      · simp only [ordinal, daysBeforeMonth_add_one d.year d.month_valid.1]
        omega
      · next hmonth =>
          have hdecember : d.month = 12 := Nat.le_antisymm d.month_valid.2 (Nat.not_lt.1 hmonth)
          rw [hdecember] at hlast
          simp only [ordinal, daysBeforeYear_add_one, daysBeforeMonth, hdecember]
          omega

/-- The day after a date is the date one day later. -/
theorem next_eq_addDays (d : Date) : d.next = d.addDays 1 :=
  (addDays_eq_of_ordinal d.ordinal_next).symm

theorem ordinal_iterate_next (d : Date) (n : Nat) : (next^[n] d).ordinal = d.ordinal + n := by
  induction n with
  | zero => simp
  | succ n ih =>
      rw [Function.iterate_succ_apply', ordinal_next, ih]
      omega

/-- Of any two dates, one is reached from the other day by day. -/
theorem exists_iterate_next (d e : Date) : ∃ n, next^[n] d = e ∨ next^[n] e = d := by
  rcases Int.le_total d.ordinal e.ordinal with hle | hle
  · refine ⟨(e.ordinal - d.ordinal).toNat, .inl (ordinal_injective ?_)⟩
    rw [ordinal_iterate_next]
    omega
  · refine ⟨(d.ordinal - e.ordinal).toNat, .inr (ordinal_injective ?_)⟩
    rw [ordinal_iterate_next]
    omega

/-! ## Weekdays -/

/-- The weekday after a weekday: the seventh is followed by the first. -/
def weekdayAfter (code : Nat) : Nat :=
  if code = 7 then 1 else code + 1

/-- The weekday goes one further from each day to the next. -/
theorem weekday_next (d : Date) : d.next.weekday = weekdayAfter d.weekday := by
  unfold weekdayAfter weekday
  rw [ordinal_next]
  split <;> omega

/-- A code of weekdays: one to seven, one further around the week from each day to the next,
and two on the first day that is counted, which is a Monday. -/
structure IsWeekdayCode (code : Date → Nat) : Prop where
  valid : ∀ d, 1 ≤ code d ∧ code d ≤ 7
  next : ∀ d, code d.next = weekdayAfter (code d)
  epoch : code epoch = 2

theorem isWeekdayCode_weekday : IsWeekdayCode weekday where
  valid := weekday_valid
  next := weekday_next
  epoch := by decide

/-- No two weekdays are followed by the same one. -/
theorem weekdayAfter_inj {m n : Nat} (hm : 1 ≤ m ∧ m ≤ 7) (hn : 1 ≤ n ∧ n ≤ 7)
    (h : weekdayAfter m = weekdayAfter n) : m = n := by
  unfold weekdayAfter at h
  split at h <;> split at h <;> omega

namespace IsWeekdayCode

variable {code code' : Date → Nat}

/-- Two codes agree at a date exactly if they agree some days later. -/
theorem iterate_next_iff (h : IsWeekdayCode code) (h' : IsWeekdayCode code') (d : Date)
    (n : Nat) : code (Date.next^[n] d) = code' (Date.next^[n] d) ↔ code d = code' d := by
  induction n with
  | zero => rfl
  | succ n ih =>
      rw [← ih, Function.iterate_succ_apply', h.next, h'.next]
      exact ⟨weekdayAfter_inj (h.valid _) (h'.valid _), congrArg weekdayAfter⟩

/-- There is one code of weekdays only. -/
theorem eq_weekday (h : IsWeekdayCode code) (d : Date) : code d = d.weekday := by
  have hstep := h.iterate_next_iff isWeekdayCode_weekday
  have hepoch := h.epoch.trans isWeekdayCode_weekday.epoch.symm
  rcases exists_iterate_next DataBlock.epoch d with ⟨n, rfl | hn⟩
  · exact (hstep DataBlock.epoch n).2 hepoch
  · exact (hstep d n).1 (by rw [hn, hepoch])

end IsWeekdayCode
end Date

/-! ## Stored codes -/

/-- The lower half of a byte of two digits is the last one. -/
theorem Bcd.low_encode (n : Nat) (h : n < 100) : low (encode n) = n % 10 := by
  have htoNat : (encode n).toNat = n / 10 * 16 + n % 10 :=
    UInt8.toNat_ofNat_of_lt' (show _ < 256 by omega)
  rw [low, htoNat]
  omega

/-- The first moment of a day. -/
def TimeOfDay.midnight : TimeOfDay :=
  .ofMillis 0 (by decide)

namespace FieldType

/-- Some write of the value to a field of the type leaves these bytes in the field. -/
def Stores (t : FieldType) (v : Value) (w : Bytes) : Prop :=
  ∃ (bs : Bytes) (offset : Nat) (bit : Option Nat) (after : Bytes),
    t.encode bs offset bit v = .ok after ∧ after.slice offset t.width = w

/-- A type that stores the bytes of a value as they are leaves these bytes, in any buffer that
is long enough. -/
theorem stores_iff_of_patch {t : FieldType} {v : Value} {w : Bytes} {x : Except Fault Bytes}
    (hpatch : ∀ bit, t.patch bit v = x.map .ofBytes) : t.Stores v w ↔ x = .ok w := by
  constructor
  · rintro ⟨bs, offset, bit, after, hencode, rfl⟩
    rcases slice_encode hencode with ⟨p, hp, hslice⟩
    rw [hpatch] at hp
    rcases Outcome.map_eq_ok_iff.1 hp with ⟨image, himage, rfl⟩
    rw [hslice, Patch.put_ofBytes, himage]
  · rintro rfl
    have hrepresents : t.Represents none v := represents_of_patch (hpatch none)
    have hfits : 0 + t.width ≤ (List.replicate t.width (0 : UInt8)).length := by simp
    rcases exists_encode_iff.2 ⟨hfits, hrepresents⟩ with ⟨after, hencode⟩
    rcases slice_encode hencode with ⟨p, hp, hslice⟩
    rw [hpatch] at hp
    cases hp
    exact ⟨_, 0, none, after, hencode, hslice.trans (Patch.put_ofBytes w _)⟩

/-- A date is stored as its count, within the years that are counted. -/
theorem stores_date_iff {d : Date} {w : Bytes} :
    date.Stores (.date d) w
      ↔ (1990 ≤ d.year ∧ d.year ≤ 2168) ∧ w = BigEndian.encode 2 (dayCount d).toNat := by
  rw [stores_iff_of_patch fun _ => rfl, dateImage_eq_ok_iff, ← dayCount_nonneg_iff,
    ← dayCount_le_iff]
  constructor
  · rintro ⟨_, hvalue, hrange, rfl⟩
    cases hvalue
    exact ⟨hrange, rfl⟩
  · rintro ⟨hrange, rfl⟩
    exact ⟨d, rfl, hrange, rfl⟩

theorem represents_date_iff {bit : Option Nat} {d : Date} :
    date.Represents bit (.date d) ↔ 1990 ≤ d.year ∧ d.year ≤ 2168 := by
  constructor
  · intro h
    cases h with
    | date hfirst hlast => exact ⟨hfirst, hlast⟩
  · rintro ⟨hfirst, hlast⟩
    exact .date hfirst hlast

/-- The number that is stored for a date is its count. -/
theorem decode_of_stores_date {d : Date} {w : Bytes} (h : date.Stores (.date d) w) :
    (BigEndian.decode w : Int) = dayCount d := by
  rcases stores_date_iff.1 h with ⟨⟨hfirst, hlast⟩, rfl⟩
  have hnonneg := (dayCount_nonneg_iff d).2 hfirst
  have hle := (dayCount_le_iff d).2 hlast
  have hlt : (dayCount d).toNat < 256 ^ 2 := by
    unfold lastDayCount at hle
    omega
  rw [BigEndian.decode_encode hlt, Int.toNat_of_nonneg hnonneg]

/-- A date outside of the years that are counted is out of range, whatever the buffer. -/
theorem encode_date_of_uncounted {d : Date} (h : ¬ (1990 ≤ d.year ∧ d.year ≤ 2168)) (bs : Bytes)
    (offset : Nat) (bit : Option Nat) :
    date.encode bs offset bit (.date d) = .error (.outOfRange (.date d)) := by
  rw [← dayCount_nonneg_iff, ← dayCount_le_iff] at h
  have himage : dateImage (.date d) = .error (.outOfRange (.date d)) := if_neg h
  have hpatch : date.patch bit (.date d) = .error (.outOfRange (.date d)) :=
    congrArg (Except.map Patch.ofBytes) himage
  exact encode_of_patch_error hpatch bs offset

/-- The last half of a date and time in decimal digits is the weekday. -/
theorem weekday_of_stores_dateAndTime {t : DateTime} {w : Bytes}
    (h : dateAndTime.Stores (.dateTime t) w) : Bcd.low (w.byte 7) = t.date.weekday := by
  rcases DateAndTime.image_eq_ok_iff.1 ((stores_iff_of_patch fun _ => rfl).1 h)
    with ⟨_, ms, hvalue, _, _, rfl⟩
  cases hvalue
  have hweekday := t.date.weekday_valid
  have hbyte : (DateAndTime.bytes t ms).byte 7 = Bcd.encode (ms % 10 * 10 + t.date.weekday) := rfl
  rw [hbyte, Bcd.low_encode _ (by omega)]
  omega

/-- The fifth byte of a date and time in binary fields is the weekday. -/
theorem weekday_of_stores_dateTimeLong {t : DateTime} {w : Bytes}
    (h : dateTimeLong.Stores (.dateTime t) w) : (w.byte 4).toNat = t.date.weekday := by
  rcases DateTimeLong.image_eq_ok_iff.1 ((stores_iff_of_patch fun _ => rfl).1 h)
    with ⟨_, hvalue, _, _, rfl⟩
  cases hvalue
  have hweekday := t.date.weekday_valid
  have hbyte : (DateTimeLong.bytes t).byte 4 = UInt8.ofNat t.date.weekday := rfl
  rw [hbyte]
  exact UInt8.toNat_ofNat_of_lt' (show _ < 256 by omega)

/-- The codes of days follow the calendar.  A date is stored exactly if it lies from 1990-01-01
to 2168-12-31, which are whole years, and is out of range otherwise; the first of them is stored
as zero, and each next one as the next number.  Beside a date and time, either format stores the
code of the weekday of its date, which goes around the week from one to seven and is two for
the Monday 1990-01-01. -/
theorem codes_follow_calendar :
    (∀ d w w', date.Stores (.date d) w → date.Stores (.date d.next) w' →
      BigEndian.decode w' = BigEndian.decode w + 1)
    ∧ (∀ w, date.Stores (.date epoch) w ↔ w = [0, 0])
    ∧ (∀ d bs offset bit, (∃ after, date.encode bs offset bit (.date d) = .ok after)
      ↔ offset + 2 ≤ bs.length ∧ 1990 ≤ d.year ∧ d.year ≤ 2168)
    ∧ (∀ d, ¬ (1990 ≤ d.year ∧ d.year ≤ 2168) → ∀ bs offset bit,
      date.encode bs offset bit (.date d) = .error (.outOfRange (.date d)))
    ∧ (∀ t w, dateAndTime.Stores (.dateTime t) w → Bcd.low (w.byte 7) = t.date.weekday)
    ∧ (∀ t w, dateTimeLong.Stores (.dateTime t) w → (w.byte 4).toNat = t.date.weekday)
    ∧ Date.IsWeekdayCode Date.weekday := by
  refine ⟨?_, ?_, ?_, fun d => encode_date_of_uncounted, fun t w => weekday_of_stores_dateAndTime,
    fun t w => weekday_of_stores_dateTimeLong, Date.isWeekdayCode_weekday⟩
  · intro d w w' h h'
    have hcount := decode_of_stores_date h
    have hcount' := decode_of_stores_date h'
    rw [Date.next_eq_addDays, dayCount_addDays] at hcount'
    omega
  · intro w
    have hyears : 1990 ≤ epoch.year ∧ epoch.year ≤ 2168 := by decide
    have hzero : BigEndian.encode 2 (dayCount epoch).toNat = [0, 0] := by decide
    rw [stores_date_iff, hzero]
    exact and_iff_right hyears
  · intro d bs offset bit
    rw [exists_encode_iff, represents_date_iff]
    exact Iff.rfl

/-- The leap day of the year 2000 and the day after it are stored as two numbers in a row, and
as a Tuesday and a Wednesday in either format.  The day before the epoch is out of range. -/
theorem codes_follow_calendar_on_leap_day :
    ∃ leap before : Date, leap.text = "2000-02-29" ∧ leap.next.text = "2000-03-01"
      ∧ before.text = "1989-12-31"
      ∧ date.Stores (.date leap) [0x0e, 0x7f] ∧ date.Stores (.date leap.next) [0x0e, 0x80]
      ∧ BigEndian.decode [0x0e, 0x80] = BigEndian.decode [0x0e, 0x7f] + 1
      ∧ dateAndTime.Stores (.dateTime ⟨leap, .midnight⟩) [0, 2, 0x29, 0, 0, 0, 0, 3]
      ∧ dateTimeLong.Stores (.dateTime ⟨leap.next, .midnight⟩)
        [0x07, 0xd0, 3, 1, 4, 0, 0, 0, 0, 0, 0, 0]
      ∧ leap.weekday = 3 ∧ leap.next.weekday = 4
      ∧ date.encode [7, 7] 0 none (.date before) = .error (.outOfRange (.date before)) := by
  rcases codes_follow_calendar with ⟨hcount, _, _, hrefused, hdecimal, _, hweek⟩
  let leap : Date := ⟨2000, 2, 29, by decide, by decide⟩
  let before : Date := ⟨1989, 12, 31, by decide, by decide⟩
  have hstores : date.Stores (.date leap) [0x0e, 0x7f] :=
    stores_date_iff.2 ⟨by decide, by decide⟩
  have hstores' : date.Stores (.date leap.next) [0x0e, 0x80] :=
    stores_date_iff.2 ⟨by decide, by decide⟩
  have himage : DateAndTime.image (.dateTime ⟨leap, .midnight⟩)
      = .ok [0, 2, 0x29, 0, 0, 0, 0, 3] := by decide
  have himage' : DateTimeLong.image (.dateTime ⟨leap.next, .midnight⟩)
      = .ok [0x07, 0xd0, 3, 1, 4, 0, 0, 0, 0, 0, 0, 0] := by decide
  have htime : dateAndTime.Stores (.dateTime ⟨leap, .midnight⟩) [0, 2, 0x29, 0, 0, 0, 0, 3] :=
    (stores_iff_of_patch fun _ => rfl).2 himage
  have hleap : leap.weekday = 3 := (hdecimal _ _ htime).symm
  have hafter : leap.next.weekday = 4 := by
    rw [hweek.next, hleap]
    rfl
  exact ⟨leap, before, by decide, by decide, by decide, hstores, hstores',
    hcount leap _ _ hstores hstores', htime, (stores_iff_of_patch fun _ => rfl).2 himage', hleap,
    hafter, hrefused before (by decide) [7, 7] 0 none⟩

end FieldType
end DataBlock
