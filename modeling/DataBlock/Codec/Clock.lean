import DataBlock.Codec.Number
import DataBlock.Number.Bcd

/-!
# Stored times

The six formats of spans, dates and times in the bytes of a field:

- `S5TIME`: a count of three decimal digits with a time base;
- `TIME`: signed milliseconds;
- `DATE`: days since 1990-01-01;
- `TIME_OF_DAY`: milliseconds since midnight;
- `DATE_AND_TIME`: decimal digits down to the millisecond, with the weekday;
- `DTL`: binary fields down to the nanosecond, with the weekday.

Main results:

- `nanos_of_timeOf`: a time that is made of its parts lies outside of leap seconds.
- `S5Time.form?_sound`: a stored form has three digits and stands for its span.
- `dayCount_addDays`: the next date is stored as the next number.
-/

namespace DataBlock

/-! ## Parts of dates and times -/

/-- The date with the given parts, or the fault that there is none. -/
def dateOf (year month day : Nat) : Except Fault Date :=
  match Date.ofParts? year month day with
  | some d => .ok d
  | none => .error (.invalid (.date year month day))

/-- The time with the given parts outside of leap seconds, or the fault that there
is none. -/
def timeOf (hour minute second nanos : Nat) : Except Fault TimeOfDay :=
  if nanosPerSecond ≤ nanos then .error (.invalid (.nanoseconds nanos))
  else
    match TimeOfDay.ofParts? hour minute second nanos with
    | some t => .ok t
    | none => .error (.invalid (.timeOfDay hour minute second))

/-- A time that is made of its parts has their nanoseconds, less than a second. -/
theorem nanos_of_timeOf {hour minute second nanos : Nat} {t : TimeOfDay}
    (h : timeOf hour minute second nanos = .ok t) : t.nanos = nanos ∧ nanos < nanosPerSecond := by
  unfold timeOf at h
  split at h
  · cases h
  · next hlt =>
      split at h
      · next hparts =>
          cases h
          unfold TimeOfDay.ofParts? at hparts
          split at hparts
          · cases hparts
            exact ⟨rfl, Nat.lt_of_not_le hlt⟩
          · cases hparts
      · cases h

/-- The two decimal digits of the byte at an offset. -/
def digitPair (offset : Nat) (b : UInt8) : Except Fault Nat :=
  match Bcd.decode? b with
  | some n => .ok n
  | none => .error (.malformedBcd offset b)

/-! ## Spans as a count with a time base -/

namespace S5Time

/-- The milliseconds of the time base with a code, from 10 for zero to 10000 for
three. -/
def base (code : Nat) : Nat :=
  10 ^ (code + 1)

/-- The finest base that divides the milliseconds into at most 999 counts, with the
count. -/
def form? (ms : Nat) : Option (Nat × Nat) :=
  (List.range 4).findSome? fun code =>
    if ms % base code = 0 ∧ ms / base code ≤ 999 then some (code, ms / base code) else none

/-- A form has at most three digits and stands for the span. -/
theorem form?_sound {ms code count : Nat} (h : form? ms = some (code, count)) :
    code < 4 ∧ count ≤ 999 ∧ count * base code = ms := by
  obtain ⟨c, hc, hform⟩ := List.exists_of_findSome?_eq_some h
  simp only [Option.ite_none_right_eq_some, Option.some.injEq, Prod.mk.injEq] at hform
  obtain ⟨⟨hdvd, hle⟩, rfl, rfl⟩ := hform
  exact ⟨List.mem_range.1 hc, hle, Nat.div_mul_cancel (Nat.dvd_of_mod_eq_zero hdvd)⟩

/-- The bytes of a base and a count. -/
def bytes (code count : Nat) : Bytes :=
  [UInt8.ofNat (code * 16 + count / 100), Bcd.encode (count % 100)]

/-- The bytes that are stored for a value. -/
def image (v : Value) : Except Fault Bytes :=
  match v with
  | .span d =>
      match d.wholeMillis? with
      | some (.ofNat ms) =>
          match form? ms with
          | some (code, count) => .ok (bytes code count)
          | none => .error (.outOfRange (.span d .s5time))
      | _ => .error (.outOfRange (.span d .s5time))
  | v => mismatch .s5time v

/-- The span in the two bytes at an offset.  The two bits above the base are not
looked at. -/
def decode (offset : Nat) (w : Bytes) : Except Fault Span :=
  let hundreds := Bcd.low (w.byte 0)
  if 9 < hundreds then .error (.malformedBcd offset (w.byte 0))
  else (digitPair (offset + 1) (w.byte 1)).map fun rest =>
    Span.ofMillis ((hundreds * 100 + rest) * base (Bcd.high (w.byte 0) % 4) : Nat)

end S5Time

/-! ## Spans in milliseconds -/

/-- The bytes that a `TIME` field stores for a value. -/
def timeImage (v : Value) : Except Fault Bytes :=
  match v with
  | .span d =>
      match d.wholeMillis? with
      | some ms =>
          if IntKind.i32.Holds ms then .ok (BigEndian.encode 4 (IntKind.i32.toWord ms))
          else .error (.outOfRange (.span d .time))
      | none => .error (.outOfRange (.span d .time))
  | v => mismatch .time v

/-- The span in the bytes of a `TIME` field. -/
def decodeTime (w : Bytes) : Span :=
  Span.ofMillis (IntValue.wrapped .i32 (BigEndian.decode w))

/-! ## Dates as a count of days -/

/-- The date that is stored as zero. -/
def epoch : Date :=
  ⟨1990, 1, 1, by decide, by decide⟩

/-- The largest count of days that is stored; it belongs to 2168-12-31. -/
def lastDayCount : Nat :=
  65378

/-- The days from the epoch to a date. -/
def dayCount (d : Date) : Int :=
  d.ordinal - epoch.ordinal

/-- A later date is stored as a number that is larger by the days between. -/
theorem dayCount_addDays (d : Date) (n : Nat) : dayCount (d.addDays n) = dayCount d + n := by
  simp only [dayCount, Date.ordinal_addDays]
  omega

/-- The bytes that a `DATE` field stores for a value. -/
def dateImage (v : Value) : Except Fault Bytes :=
  match v with
  | .date d =>
      if 0 ≤ dayCount d ∧ dayCount d ≤ lastDayCount then
        .ok (BigEndian.encode 2 (dayCount d).toNat)
      else .error (.outOfRange (.date d))
  | v => mismatch .date v

/-- The date in the bytes of a `DATE` field. -/
def decodeDate (w : Bytes) : Except Fault Date :=
  let days := BigEndian.decode w
  if lastDayCount < days then .error (.invalid (.dayCount days))
  else .ok (epoch.addDays days)

/-! ## Times of day in milliseconds -/

/-- The bytes that a `TIME_OF_DAY` field stores for a value. -/
def timeOfDayImage (v : Value) : Except Fault Bytes :=
  match v with
  | .time t =>
      match t.dayMillis? with
      | some ms => .ok (BigEndian.encode 4 ms)
      | none => .error (.outOfRange (.finerThanMillis v))
  | v => mismatch .timeOfDay v

/-- The time in the bytes of a `TIME_OF_DAY` field. -/
def decodeTimeOfDay (w : Bytes) : Except Fault TimeOfDay :=
  let ms := BigEndian.decode w
  if h : ms < TimeOfDay.millisPerDay then .ok (TimeOfDay.ofMillis ms h)
  else .error (.invalid (.dayMillis ms))

/-! ## Dates and times in decimal digits -/

namespace DateAndTime

/-- The bytes of a date and time with so many milliseconds. -/
def bytes (t : DateTime) (ms : Nat) : Bytes :=
  [Bcd.encode (t.date.year % 100).toNat, Bcd.encode t.date.month, Bcd.encode t.date.day,
    Bcd.encode t.time.hour, Bcd.encode t.time.minute, Bcd.encode t.time.second,
    Bcd.encode (ms / 10), Bcd.encode (ms % 10 * 10 + t.date.weekday)]

/-- The bytes that are stored for a value. -/
def image (v : Value) : Except Fault Bytes :=
  match v with
  | .dateTime t =>
      if 1990 ≤ t.date.year ∧ t.date.year ≤ 2089 then
        match t.time.millis? with
        | some ms => .ok (bytes t ms)
        | none => .error (.outOfRange (.finerThanMillis v))
      else .error (.outOfRange (.dateAndTimeYear t))
  | v => mismatch .dateAndTime v

/-- The date and time in the eight bytes at an offset.  Two digits of the year stand
for 1990 to 2089, and the weekday is not looked at. -/
def decode (offset : Nat) (w : Bytes) : Except Fault DateTime := do
  let pair (i : Nat) := digitPair (offset + i) (w.byte i)
  let year ← pair 0
  let month ← pair 1
  let day ← pair 2
  let hour ← pair 3
  let minute ← pair 4
  let second ← pair 5
  let hundredths ← pair 6
  let last ← pair 7
  let date ← dateOf (if 90 ≤ year then 1900 + year else 2000 + year) month day
  let ms := hundredths * 10 + last / 10
  let time ← timeOf hour minute second (ms * nanosPerMilli)
  return ⟨date, time⟩

end DateAndTime

/-! ## Dates and times in binary fields -/

namespace DateTimeLong

/-- The years that are stored. -/
def HasYear (year : Int) : Prop :=
  1970 ≤ year ∧ year ≤ 2262

instance (year : Int) : Decidable (HasYear year) :=
  inferInstanceAs (Decidable (_ ∧ _))

/-- The bytes of a date and time. -/
def bytes (t : DateTime) : Bytes :=
  BigEndian.encode 2 t.date.year.toNat
    ++ [UInt8.ofNat t.date.month, UInt8.ofNat t.date.day, UInt8.ofNat t.date.weekday,
      UInt8.ofNat t.time.hour, UInt8.ofNat t.time.minute, UInt8.ofNat t.time.second]
    ++ BigEndian.encode 4 t.time.nanos

/-- The bytes that are stored for a value. -/
def image (v : Value) : Except Fault Bytes :=
  match v with
  | .dateTime t =>
      if HasYear t.date.year then
        if t.time.IsLeap then .error (.outOfRange (.leapSecond t)) else .ok (bytes t)
      else .error (.outOfRange (.dateTimeLongYear t))
  | v => mismatch .dateTimeLong v

/-- The date and time in twelve bytes.  The weekday is not looked at. -/
def decode (w : Bytes) : Except Fault DateTime := do
  let year := BigEndian.decode (w.take 2)
  if HasYear year then
    let date ← dateOf year (w.byte 2).toNat (w.byte 3).toNat
    let time ← timeOf (w.byte 5).toNat (w.byte 6).toNat (w.byte 7).toNat
      (BigEndian.decode (w.slice 8 4))
    return ⟨date, time⟩
  else .error (.invalid (.longYear year))

end DateTimeLong

end DataBlock
