import DataBlock.Calendar.Date
import DataBlock.Number.Decimal

/-!
# Times of day

Times of day in nanoseconds, on their own or on a date.  A leap second is written as
the second after the one that it extends.

Main results:

- `TimeOfDay.ofParts?_parts`: the parts of a time make that time again, if it is no leap second.
- `TimeOfDay.millis?_eq_some_iff`: which times are a whole number of milliseconds.
- `TimeOfDay.dayMillis?_ofMillis`: milliseconds since midnight are read back.
-/

namespace DataBlock

/-- Nanoseconds in a second. -/
def nanosPerSecond : Nat :=
  1000000000

/-- Nanoseconds in a millisecond. -/
def nanosPerMilli : Nat :=
  1000000

/-- A time of day.  In a leap second there are a second or more of nanoseconds. -/
structure TimeOfDay where
  hour : Nat
  minute : Nat
  second : Nat
  nanos : Nat
  hour_lt : hour < 24
  minute_lt : minute < 60
  second_lt : second < 60
  nanos_lt : nanos < 2 * nanosPerSecond
  deriving DecidableEq

namespace TimeOfDay

/-- The time with the given parts, if a day has it.  Only the last second of a minute is made a leap
second. -/
def ofParts? (hour minute second nanos : Nat) : Option TimeOfDay :=
  if h : hour < 24 ∧ minute < 60 ∧ second < 60 ∧ nanos < 2 * nanosPerSecond
      ∧ (nanosPerSecond ≤ nanos → second = 59) then
    some ⟨hour, minute, second, nanos, h.1, h.2.1, h.2.2.1, h.2.2.2.1⟩
  else none

/-- Whether the time lies in a leap second. -/
def IsLeap (t : TimeOfDay) : Prop :=
  nanosPerSecond ≤ t.nanos

instance (t : TimeOfDay) : Decidable t.IsLeap :=
  inferInstanceAs (Decidable (_ ≤ _))

/-- The parts of a time outside of leap seconds make that time again. -/
theorem ofParts?_parts {t : TimeOfDay} (h : ¬ t.IsLeap) :
    ofParts? t.hour t.minute t.second t.nanos = some t :=
  dif_pos ⟨t.hour_lt, t.minute_lt, t.second_lt, t.nanos_lt, fun hleap => absurd hleap h⟩

/-- Whole seconds since midnight. -/
def seconds (t : TimeOfDay) : Nat :=
  (t.hour * 60 + t.minute) * 60 + t.second

/-- The milliseconds within the second, if there is nothing finer and no leap
second. -/
def millis? (t : TimeOfDay) : Option Nat :=
  if t.nanos < nanosPerSecond ∧ t.nanos % nanosPerMilli = 0 then
    some (t.nanos / nanosPerMilli)
  else none

theorem millis?_eq_some_iff {t : TimeOfDay} {ms : Nat} :
    t.millis? = some ms ↔ ms < 1000 ∧ t.nanos = ms * nanosPerMilli := by
  unfold millis? nanosPerSecond nanosPerMilli
  split
  · simp only [Option.some.injEq]
    omega
  · simp only [reduceCtorEq, false_iff]
    omega

/-- Milliseconds in a day. -/
def millisPerDay : Nat :=
  86400000

/-- The time so many milliseconds after midnight. -/
def ofMillis (ms : Nat) (h : ms < millisPerDay) : TimeOfDay where
  hour := ms / 3600000
  minute := ms / 60000 % 60
  second := ms / 1000 % 60
  nanos := ms % 1000 * nanosPerMilli
  hour_lt := by
    unfold millisPerDay at h
    omega
  minute_lt := by omega
  second_lt := by omega
  nanos_lt := by
    unfold nanosPerMilli nanosPerSecond
    omega

/-- No leap second is a time so many milliseconds after midnight. -/
theorem not_isLeap_ofMillis (ms : Nat) (h : ms < millisPerDay) : ¬ (ofMillis ms h).IsLeap := by
  simp only [IsLeap, ofMillis, nanosPerMilli, nanosPerSecond]
  omega

/-- Milliseconds since midnight, if there is nothing finer and no leap second. -/
def dayMillis? (t : TimeOfDay) : Option Nat :=
  t.millis?.map fun ms => t.seconds * 1000 + ms

/-- A time of whole milliseconds is the time so many milliseconds after midnight. -/
theorem dayMillis?_ofMillis (ms : Nat) (h : ms < millisPerDay) :
    (ofMillis ms h).dayMillis? = some ms := by
  have hmillis : (ofMillis ms h).millis? = some (ms % 1000) :=
    millis?_eq_some_iff.2 ⟨by omega, rfl⟩
  rw [dayMillis?, hmillis]
  simp only [Option.map_some, seconds, ofMillis, Option.some.injEq]
  omega

/-! ## Text -/

/-- The fraction of a second in the fewest of zero, three, six and nine digits. -/
def fractionText (nanos : Nat) : String :=
  if nanos = 0 then ""
  else if nanos % 1000000 = 0 then "." ++ Decimal.padded 3 (nanos / 1000000)
  else if nanos % 1000 = 0 then "." ++ Decimal.padded 6 (nanos / 1000)
  else "." ++ Decimal.padded 9 nanos

/-- Hour, minute and second, joined by colons, and the fraction of the second. -/
def text (t : TimeOfDay) : String :=
  let second := if t.IsLeap then t.second + 1 else t.second
  Decimal.padded 2 t.hour ++ ":" ++ Decimal.padded 2 t.minute ++ ":"
    ++ Decimal.padded 2 second ++ fractionText (t.nanos % nanosPerSecond)

end TimeOfDay

/-! ## Dates with a time -/

/-- A time of day on a date. -/
structure DateTime where
  date : Date
  time : TimeOfDay
  deriving DecidableEq

/-- The date, a space and the time. -/
def DateTime.text (t : DateTime) : String :=
  t.date.text ++ " " ++ t.time.text

end DataBlock
