import DataBlock.Codec.Clock
import DataBlock.Fault.Outcome
import DataBlock.Proofs.Calendar

/-!
# Stored times are read back

The six formats of spans, dates and times, written and read again.

Main results:

- `S5Time.decode_bytes`: a count with its time base is read back.
- `decodeTime_encode`: milliseconds with a sign are read back.
- `decodeDate_encode`: a date within the range of day counts is read back.
- `decodeTimeOfDay_encode`: milliseconds since midnight are read back.
- `DateAndTime.decode_bytes`, `DateTimeLong.decode_bytes`: a date and time within the
  range of years is read back.
-/

namespace DataBlock

/-! ## Parts of dates and times -/

/-- A number below one hundred is read back from its digits. -/
theorem digitPair_encode (offset : Nat) {n : Nat} (h : n < 100) :
    digitPair offset (Bcd.encode n) = .ok n := by
  rw [digitPair, Bcd.decode?_encode h]

theorem dateOf_eq_ok {year month day : Nat} {d : Date} (hyear : (year : Int) = d.year)
    (hmonth : month = d.month) (hday : day = d.day) : dateOf year month day = .ok d := by
  rw [dateOf, hyear, hmonth, hday, Date.ofParts?_parts]

/-- The parts of a time outside of leap seconds make that time again. -/
theorem timeOf_parts {t : TimeOfDay} (h : t.nanos < nanosPerSecond) :
    timeOf t.hour t.minute t.second t.nanos = .ok t := by
  rw [timeOf, if_neg (Nat.not_le.2 h), TimeOfDay.ofParts?_parts (Nat.not_le.2 h)]

/-! ## Spans as a count with a time base -/

namespace S5Time

/-- A span is stored if it is a number of milliseconds that has a form. -/
theorem image_eq_ok_iff {v : Value} {w : Bytes} :
    image v = .ok w ↔ ∃ ms code count : Nat, v = .span (Span.ofMillis ms)
      ∧ form? ms = some (code, count) ∧ bytes code count = w := by
  cases v with
  | span d =>
      simp only [image, Value.span.injEq]
      constructor
      · intro h
        split at h
        · next ms hms =>
            split at h
            · next code count hform =>
                exact ⟨ms, code, count, Span.wholeMillis?_eq_some_iff.1 hms, hform,
                  Except.ok.inj h⟩
            · exact absurd h (by simp)
        · exact absurd h (by simp)
      · intro h
        rcases h with ⟨ms, code, count, rfl, hform, rfl⟩
        have hms : (Span.ofMillis (ms : Int)).wholeMillis? = some (Int.ofNat ms) :=
          Span.wholeMillis?_eq_some_iff.2 rfl
        simp only [hms, hform]
  | _ => simp [image, mismatch]

/-- A count of three digits with its time base is read back. -/
theorem decode_bytes (offset : Nat) {code count : Nat} (hcode : code < 4)
    (hcount : count ≤ 999) :
    decode offset (bytes code count) = .ok (Span.ofMillis (count * base code : Nat)) := by
  have hbyte : (UInt8.ofNat (code * 16 + count / 100)).toNat = code * 16 + count / 100 :=
    UInt8.toNat_ofNat_of_lt' (show _ < 256 by omega)
  have hhigh : Bcd.high (UInt8.ofNat (code * 16 + count / 100)) % 4 = code := by
    rw [Bcd.high, hbyte]
    omega
  have hlow : Bcd.low (UInt8.ofNat (code * 16 + count / 100)) = count / 100 := by
    rw [Bcd.low, hbyte]
    omega
  have hfirst : (bytes code count).byte 0 = UInt8.ofNat (code * 16 + count / 100) := rfl
  have hsecond : (bytes code count).byte 1 = Bcd.encode (count % 100) := rfl
  have hdigits : count / 100 * 100 + count % 100 = count := by omega
  rw [decode, hfirst, hsecond, hlow, hhigh, if_neg (by omega),
    digitPair_encode _ (by omega), Outcome.map_ok, hdigits]

end S5Time

/-! ## Spans in milliseconds -/

/-- A span is stored if it is a number of milliseconds of 32 bits. -/
theorem timeImage_eq_ok_iff {v : Value} {w : Bytes} :
    timeImage v = .ok w ↔ ∃ ms : Int, v = .span (Span.ofMillis ms) ∧ IntKind.i32.Holds ms
      ∧ BigEndian.encode 4 (IntKind.i32.toWord ms) = w := by
  cases v with
  | span d =>
      simp only [timeImage, Value.span.injEq]
      constructor
      · intro h
        split at h
        · next ms hms =>
            split at h
            · next hholds =>
                exact ⟨ms, Span.wholeMillis?_eq_some_iff.1 hms, hholds, Except.ok.inj h⟩
            · exact absurd h (by simp)
        · exact absurd h (by simp)
      · intro h
        rcases h with ⟨ms, rfl, hholds, rfl⟩
        have hms : (Span.ofMillis ms).wholeMillis? = some ms :=
          Span.wholeMillis?_eq_some_iff.2 rfl
        simp only [hms, if_pos hholds]
  | _ => simp [timeImage, mismatch]

/-- Milliseconds with a sign are read back. -/
theorem decodeTime_encode {ms : Int} (h : IntKind.i32.Holds ms) :
    decodeTime (BigEndian.encode 4 (IntKind.i32.toWord ms)) = Span.ofMillis ms := by
  have hlt : IntKind.i32.toWord ms < 256 ^ 4 := by
    simp only [IntKind.toWord, IntKind.words, IntKind.size]
    omega
  rw [decodeTime, BigEndian.decode_encode hlt, IntValue.wrapped_toWord h]

/-! ## Dates as a count of days -/

/-- A date is stored if it lies from the epoch to the last day that is counted. -/
theorem dateImage_eq_ok_iff {v : Value} {w : Bytes} :
    dateImage v = .ok w ↔ ∃ d, v = .date d ∧ (0 ≤ dayCount d ∧ dayCount d ≤ lastDayCount)
      ∧ BigEndian.encode 2 (dayCount d).toNat = w := by
  cases v with
  | date d =>
      by_cases h : 0 ≤ dayCount d ∧ dayCount d ≤ lastDayCount <;> simp [dateImage, h]
  | _ => simp [dateImage, mismatch]

/-- A date within the range of day counts is read back. -/
theorem decodeDate_encode {d : Date} (h : 0 ≤ dayCount d ∧ dayCount d ≤ lastDayCount) :
    decodeDate (BigEndian.encode 2 (dayCount d).toNat) = .ok d := by
  have hle : (dayCount d).toNat ≤ lastDayCount := by omega
  have hlt : (dayCount d).toNat < 256 ^ 2 := Nat.lt_of_le_of_lt hle (by decide)
  have hordinal : d.ordinal = epoch.ordinal + (dayCount d).toNat := by
    rw [Int.toNat_of_nonneg h.1, dayCount]
    omega
  rw [decodeDate, BigEndian.decode_encode hlt]
  simp only [if_neg (Nat.not_lt.2 hle), Date.addDays_eq_of_ordinal hordinal]

/-! ## Times of day in milliseconds -/

/-- A time of day is stored if it is a number of milliseconds. -/
theorem timeOfDayImage_eq_ok_iff {v : Value} {w : Bytes} :
    timeOfDayImage v = .ok w ↔ ∃ t ms, v = .time t ∧ t.dayMillis? = some ms
      ∧ BigEndian.encode 4 ms = w := by
  cases v with
  | time t => cases h : t.dayMillis? <;> simp [timeOfDayImage, h]
  | _ => simp [timeOfDayImage, mismatch]

/-- Milliseconds since midnight are read back. -/
theorem decodeTimeOfDay_encode {t : TimeOfDay} {ms : Nat} (h : t.dayMillis? = some ms) :
    decodeTimeOfDay (BigEndian.encode 4 ms) = .ok t := by
  rcases TimeOfDay.ofMillis_of_dayMillis? h with ⟨hday, rfl⟩
  have hlt : ms < 256 ^ 4 := Nat.lt_trans hday (by decide)
  simp only [decodeTimeOfDay, BigEndian.decode_encode hlt, dif_pos hday]

/-! ## Dates and times in decimal digits -/

namespace DateAndTime

/-- A date and time is stored in decimal digits if it is a number of milliseconds in
the years from 1990 to 2089. -/
theorem image_eq_ok_iff {v : Value} {w : Bytes} :
    image v = .ok w ↔ ∃ t ms, v = .dateTime t ∧ (1990 ≤ t.date.year ∧ t.date.year ≤ 2089)
      ∧ t.time.millis? = some ms ∧ bytes t ms = w := by
  cases v with
  | dateTime t =>
      by_cases hyear : 1990 ≤ t.date.year ∧ t.date.year ≤ 2089
      · cases hms : t.time.millis? <;> simp [image, hyear, hms]
      · simp [image, hyear]
  | _ => simp [image, mismatch]

/-- A date and time is read back from its decimal digits.  The two digits of the year
are those of 1990 to 2089. -/
theorem decode_bytes (offset : Nat) {t : DateTime} {ms : Nat}
    (hyear : 1990 ≤ t.date.year ∧ t.date.year ≤ 2089) (hms : t.time.millis? = some ms) :
    decode offset (bytes t ms) = .ok t := by
  rcases TimeOfDay.millis?_eq_some_iff.1 hms with ⟨hlt, hnanos⟩
  have hleap : t.time.nanos < nanosPerSecond := by
    rw [hnanos]
    unfold nanosPerMilli nanosPerSecond
    omega
  have hmonth := t.date.month_valid
  have hday := t.date.day_le
  have hhour := t.time.hour_lt
  have hminute := t.time.minute_lt
  have hsecond := t.time.second_lt
  have hweekday := t.date.weekday_valid
  have hpivot : ((if 90 ≤ (t.date.year % 100).toNat then 1900 + (t.date.year % 100).toNat
      else 2000 + (t.date.year % 100).toNat : Nat) : Int) = t.date.year := by
    split <;> omega
  have hdigits : ms / 10 * 10 + (ms % 10 * 10 + t.date.weekday) / 10 = ms := by omega
  have hdate := dateOf_eq_ok hpivot rfl rfl
  have htime := timeOf_parts hleap
  rw [hnanos] at htime
  have h0 : digitPair (offset + 0) ((bytes t ms).byte 0) = .ok (t.date.year % 100).toNat :=
    digitPair_encode _ (by omega)
  have h1 : digitPair (offset + 1) ((bytes t ms).byte 1) = .ok t.date.month :=
    digitPair_encode _ (by omega)
  have h2 : digitPair (offset + 2) ((bytes t ms).byte 2) = .ok t.date.day :=
    digitPair_encode _ (by omega)
  have h3 : digitPair (offset + 3) ((bytes t ms).byte 3) = .ok t.time.hour :=
    digitPair_encode _ (by omega)
  have h4 : digitPair (offset + 4) ((bytes t ms).byte 4) = .ok t.time.minute :=
    digitPair_encode _ (by omega)
  have h5 : digitPair (offset + 5) ((bytes t ms).byte 5) = .ok t.time.second :=
    digitPair_encode _ (by omega)
  have h6 : digitPair (offset + 6) ((bytes t ms).byte 6) = .ok (ms / 10) :=
    digitPair_encode _ (by omega)
  have h7 : digitPair (offset + 7) ((bytes t ms).byte 7)
      = .ok (ms % 10 * 10 + t.date.weekday) :=
    digitPair_encode _ (by omega)
  simp only [decode, h0, h1, h2, h3, h4, h5, h6, h7, hdigits, hdate, htime, Outcome.ok_bind]
  rfl

end DateAndTime

/-! ## Dates and times in binary fields -/

namespace DateTimeLong

/-- A date and time is stored in binary fields if its year is one of those stored and
it lies outside of leap seconds. -/
theorem image_eq_ok_iff {v : Value} {w : Bytes} :
    image v = .ok w ↔ ∃ t, v = .dateTime t ∧ HasYear t.date.year ∧ ¬ t.time.IsLeap
      ∧ bytes t = w := by
  cases v with
  | dateTime t =>
      by_cases hyear : HasYear t.date.year
      · by_cases hleap : t.time.IsLeap <;> simp [image, hyear, hleap]
      · simp [image, hyear]
  | _ => simp [image, mismatch]

/-- A date and time is read back from its binary fields. -/
theorem decode_bytes {t : DateTime} (hyear : HasYear t.date.year) (hleap : ¬ t.time.IsLeap) :
    decode (bytes t) = .ok t := by
  have hnanos : t.time.nanos < nanosPerSecond := Nat.lt_of_not_le hleap
  have hmonth := t.date.month_valid
  have hday := t.date.day_le
  have hhour := t.time.hour_lt
  have hminute := t.time.minute_lt
  have hsecond := t.time.second_lt
  have hfits : t.date.year.toNat < 256 ^ 2 := by
    unfold HasYear at hyear
    omega
  have hback : ((t.date.year.toNat : Nat) : Int) = t.date.year := by
    unfold HasYear at hyear
    omega
  have hyearBytes : BigEndian.decode ((bytes t).take 2) = t.date.year.toNat := by
    rw [bytes, List.append_assoc, List.take_left' (BigEndian.length_encode _ _),
      BigEndian.decode_encode hfits]
  have hnanoBytes : BigEndian.decode ((bytes t).slice 8 4) = t.time.nanos := by
    have hlt : t.time.nanos < 256 ^ 4 := Nat.lt_trans hnanos (by decide)
    have htake := List.take_of_length_le
      (Nat.le_of_eq (BigEndian.length_encode 4 t.time.nanos))
    rw [bytes, Bytes.slice, List.drop_left' (by simp), htake, BigEndian.decode_encode hlt]
  have hbyte {n : Nat} (h : n < 256) : (UInt8.ofNat n).toNat = n :=
    UInt8.toNat_ofNat_of_lt' h
  have hdate : dateOf t.date.year.toNat ((bytes t).byte 2).toNat ((bytes t).byte 3).toNat
      = .ok t.date :=
    dateOf_eq_ok hback (hbyte (by omega)) (hbyte (by omega))
  have htime : timeOf ((bytes t).byte 5).toNat ((bytes t).byte 6).toNat
      ((bytes t).byte 7).toNat t.time.nanos = .ok t.time := by
    have h5 : ((bytes t).byte 5).toNat = t.time.hour := hbyte (by omega)
    have h6 : ((bytes t).byte 6).toNat = t.time.minute := hbyte (by omega)
    have h7 : ((bytes t).byte 7).toNat = t.time.second := hbyte (by omega)
    rw [h5, h6, h7, timeOf_parts hnanos]
  rw [← hback] at hyear
  simp only [decode, hyearBytes, hnanoBytes, if_pos hyear, hdate, htime, Outcome.ok_bind]
  rfl

end DateTimeLong
end DataBlock
