import DataBlock.Proofs.Normalisation
import Mathlib.Order.Nat

/-!
# Times in decimal digits

A date and time in decimal digits is read from sixteen half bytes, and a span with a time base
from four.  What they are read as depends on the digits alone: the first half that is no digit,
the parts that the calendar does not have, or the parts of what is read.

Main results:

- `Bytes.half`: the halves of all bytes in one row.
- `Outcome.mapM_range_eq_error`: a traversal ends at its first fault.
- `DateAndTime.decode_of_isLeast`: the first half that is no digit is blamed.
- `DateAndTime.Reading`, `S5Time.Reading`: what the bytes of a time come to.
- `FieldType.decode_decimal_times`: every field of these two types is read so.
-/

namespace DataBlock

/-! ## Traversals -/

namespace Outcome

variable {ε α β : Type}

/-- A traversal of members that have results has all of them. -/
theorem mapM_eq_ok_map {f : α → Except ε β} {g : α → β} {xs : List α}
    (h : ∀ x ∈ xs, f x = .ok (g x)) : xs.mapM f = .ok (xs.map g) := by
  induction xs with
  | nil => rfl
  | cons x xs ih =>
      have hrest := ih fun y hy => h y (List.mem_cons_of_mem x hy)
      rw [List.mapM_cons, h x List.mem_cons_self, ok_bind, hrest, ok_bind]
      rfl

/-- A traversal of the first numbers ends at the first one that fails. -/
theorem mapM_range_eq_error {f : Nat → Except ε β} {g : Nat → β} {n k : Nat} {e : ε}
    (hk : k < n) (hbefore : ∀ i < k, f i = .ok (g i)) (h : f k = .error e) :
    (List.range n).mapM f = .error e := by
  induction n with
  | zero => exact absurd hk (Nat.not_lt_zero k)
  | succ n ih =>
      rw [List.range_succ, List.mapM_append]
      rcases Nat.lt_succ_iff_lt_or_eq.1 hk with hlt | rfl
      · rw [ih hlt, error_bind]
      · have hfirst := mapM_eq_ok_map fun i hi => hbefore i (List.mem_range.1 hi)
        rw [hfirst, ok_bind, List.mapM_cons, h, error_bind, error_bind]

end Outcome

/-! ## Half bytes -/

namespace Bytes

/-- The half at an index, where each byte has its upper half before its lower one. -/
def half (w : Bytes) (k : Nat) : Nat :=
  if k % 2 = 0 then Bcd.high (w.byte (k / 2)) else Bcd.low (w.byte (k / 2))

/-- The number that the two halves of a byte make as decimal digits. -/
def pair (w : Bytes) (i : Nat) : Nat :=
  w.half (2 * i) * 10 + w.half (2 * i + 1)

theorem half_two_mul (w : Bytes) (i : Nat) : w.half (2 * i) = Bcd.high (w.byte i) := by
  rw [half, if_pos (by omega), Nat.mul_div_cancel_left i (by decide)]

theorem half_two_mul_add_one (w : Bytes) (i : Nat) :
    w.half (2 * i + 1) = Bcd.low (w.byte i) := by
  have hbyte : (2 * i + 1) / 2 = i := by omega
  rw [half, if_neg (by omega), hbyte]

end Bytes

/-- A byte of two digits is read as the number that they make. -/
theorem digitPair_eq_pair (offset : Nat) {w : Bytes} {i : Nat} (hupper : w.half (2 * i) ≤ 9)
    (hlower : w.half (2 * i + 1) ≤ 9) : digitPair offset (w.byte i) = .ok (w.pair i) := by
  rw [Bytes.half_two_mul] at hupper
  rw [Bytes.half_two_mul_add_one] at hlower
  rw [digitPair, Bcd.decode?, if_pos ⟨hupper, hlower⟩, Bytes.pair, Bytes.half_two_mul,
    Bytes.half_two_mul_add_one]

/-- A byte with a half that is no digit is blamed at its place. -/
theorem digitPair_eq_error (offset : Nat) {w : Bytes} {i : Nat}
    (h : 9 < w.half (2 * i) ∨ 9 < w.half (2 * i + 1)) :
    digitPair offset (w.byte i) = .error (.malformedBcd offset (w.byte i)) := by
  rw [Bytes.half_two_mul, Bytes.half_two_mul_add_one] at h
  rw [digitPair, Bcd.decode?, if_neg (by omega)]

/-! ## Parts of dates and times -/

/-- The calendar has a date with these parts. -/
def HasDate (year : Int) (month day : Nat) : Prop :=
  (1 ≤ month ∧ month ≤ 12) ∧ 1 ≤ day ∧ day ≤ monthLength year month

instance (year : Int) (month day : Nat) : Decidable (HasDate year month day) :=
  inferInstanceAs (Decidable (_ ∧ _))

/-- The parts of a date that the calendar has make that date. -/
theorem dateOf_of_hasDate {year month day : Nat} (h : HasDate year month day) :
    ∃ d, dateOf year month day = .ok d ∧ d.year = year ∧ d.month = month ∧ d.day = day := by
  have hparts : (1 ≤ month ∧ month ≤ 12) ∧ 1 ≤ day ∧ day ≤ monthLength year month := h
  rw [dateOf, Date.ofParts?, dif_pos hparts]
  exact ⟨_, rfl, rfl, rfl, rfl⟩

theorem dateOf_of_not_hasDate {year month day : Nat} (h : ¬ HasDate year month day) :
    dateOf year month day = .error (.invalid (.date year month day)) := by
  have hparts : ¬ ((1 ≤ month ∧ month ≤ 12) ∧ 1 ≤ day ∧ day ≤ monthLength year month) := h
  rw [dateOf, Date.ofParts?, dif_neg hparts]

/-- A day has a time with these parts. -/
def HasTime (hour minute second : Nat) : Prop :=
  hour < 24 ∧ minute < 60 ∧ second < 60

instance (hour minute second : Nat) : Decidable (HasTime hour minute second) :=
  inferInstanceAs (Decidable (_ ∧ _))

/-- The parts of a time that a day has, and less than a second, make that time. -/
theorem timeOf_of_hasTime {hour minute second nanos : Nat} (hnanos : nanos < nanosPerSecond)
    (h : HasTime hour minute second) :
    ∃ t, timeOf hour minute second nanos = .ok t ∧ t.hour = hour ∧ t.minute = minute
      ∧ t.second = second ∧ t.nanos = nanos := by
  have hparts : hour < 24 ∧ minute < 60 ∧ second < 60 ∧ nanos < 2 * nanosPerSecond
      ∧ (nanosPerSecond ≤ nanos → second = 59) :=
    ⟨h.1, h.2.1, h.2.2, by omega, fun hleap => absurd hnanos (Nat.not_lt.2 hleap)⟩
  rw [timeOf, if_neg (Nat.not_le.2 hnanos), TimeOfDay.ofParts?, dif_pos hparts]
  exact ⟨_, rfl, rfl, rfl, rfl, rfl⟩

theorem timeOf_of_not_hasTime {hour minute second nanos : Nat} (hnanos : nanos < nanosPerSecond)
    (h : ¬ HasTime hour minute second) :
    timeOf hour minute second nanos = .error (.invalid (.timeOfDay hour minute second)) := by
  rw [timeOf, if_neg (Nat.not_le.2 hnanos), TimeOfDay.ofParts?,
    dif_neg fun hparts => h ⟨hparts.1, hparts.2.1, hparts.2.2.1⟩]

/-! ## Dates and times in decimal digits -/

namespace DateAndTime

/-- The year of two digits from 1990 to 2089. -/
def year (w : Bytes) : Nat :=
  if 90 ≤ w.pair 0 then 1900 + w.pair 0 else 2000 + w.pair 0

/-- The milliseconds of three digits.  The last half is that of the weekday. -/
def millis (w : Bytes) : Nat :=
  w.half 12 * 100 + w.half 13 * 10 + w.half 14

/-- There is a date and time with the parts that the digits make. -/
def IsPossible (w : Bytes) : Prop :=
  HasDate (year w) (w.pair 1) (w.pair 2) ∧ HasTime (w.pair 3) (w.pair 4) (w.pair 5)

/-- The parts of a date and time are those that the digits make. -/
structure HasParts (t : DateTime) (w : Bytes) : Prop where
  year : t.date.year = year w
  month : t.date.month = w.pair 1
  day : t.date.day = w.pair 2
  hour : t.time.hour = w.pair 3
  minute : t.time.minute = w.pair 4
  second : t.time.second = w.pair 5
  nanos : t.time.nanos = millis w * nanosPerMilli

/-- The date and time with the parts that eight numbers stand for. -/
def assemble (n : Nat → Nat) : Except Fault DateTime := do
  let date ← dateOf (if 90 ≤ n 0 then 1900 + n 0 else 2000 + n 0) (n 1) (n 2)
  let time ← timeOf (n 3) (n 4) (n 5) ((n 6 * 10 + n 7 / 10) * nanosPerMilli)
  return ⟨date, time⟩

/-- All bytes are read as digits before anything is made of them. -/
theorem decode_eq_assemble (offset : Nat) (w : Bytes) :
    decode offset w = (List.range 8).mapM (fun i => digitPair (offset + i) (w.byte i))
      >>= fun ns => assemble fun i => ns.getD i 0 := by
  have hrange : List.range 8 = [0, 1, 2, 3, 4, 5, 6, 7] := rfl
  rw [hrange]
  simp only [List.mapM_cons, List.mapM_nil, bind_assoc, pure_bind]
  rfl

/-- The first half that is no digit is blamed with its byte. -/
theorem decode_of_isLeast (offset : Nat) {w : Bytes} {k : Nat}
    (h : IsLeast {k | k < 16 ∧ 9 < w.half k} k) :
    decode offset w = .error (.malformedBcd (offset + k / 2) (w.byte (k / 2))) := by
  rcases h with ⟨⟨hk, hhalf⟩, hleast⟩
  have hdigit {j : Nat} (hj : j < k) : w.half j ≤ 9 := by
    by_contra hover
    have hle : k ≤ j := hleast ⟨by omega, by omega⟩
    omega
  have hbefore : ∀ i < k / 2, digitPair (offset + i) (w.byte i) = .ok (w.pair i) := by
    intro i hi
    exact digitPair_eq_pair _ (hdigit (by omega)) (hdigit (by omega))
  have hfirst : digitPair (offset + k / 2) (w.byte (k / 2))
      = .error (.malformedBcd (offset + k / 2) (w.byte (k / 2))) := by
    apply digitPair_eq_error
    rcases Nat.mod_two_eq_zero_or_one k with heven | hodd
    · left
      rwa [Nat.mul_div_cancel' (Nat.dvd_of_mod_eq_zero heven)]
    · right
      rwa [← hodd, Nat.div_add_mod]
  rw [decode_eq_assemble, Outcome.mapM_range_eq_error (by omega) hbefore hfirst,
    Outcome.error_bind]

/-- Sixteen digits are read as the parts that they make. -/
theorem decode_of_digits (offset : Nat) {w : Bytes} (h : ∀ k < 16, w.half k ≤ 9) :
    decode offset w = do
      let date ← dateOf (year w) (w.pair 1) (w.pair 2)
      let time ← timeOf (w.pair 3) (w.pair 4) (w.pair 5) (millis w * nanosPerMilli)
      return ⟨date, time⟩ := by
  have hall : ∀ i ∈ List.range 8, digitPair (offset + i) (w.byte i) = .ok (w.pair i) := by
    intro i hi
    have hlt := List.mem_range.1 hi
    exact digitPair_eq_pair _ (h _ (by omega)) (h _ (by omega))
  have hmillis : w.pair 6 * 10 + w.pair 7 / 10 = millis w := by
    have hlast := h 15 (by decide)
    simp only [Bytes.pair, millis, Nat.reduceMul, Nat.reduceAdd]
    omega
  rw [decode_eq_assemble, Outcome.mapM_eq_ok_map hall, Outcome.ok_bind, ← hmillis]
  rfl

/-- What eight bytes at an offset are read as. -/
structure Reading (offset : Nat) (w : Bytes) (r : Except Fault Value) : Prop where
  malformed_iff : (∃ place byte, r = .error (.malformedBcd place byte)) ↔ ∃ k < 16, 9 < w.half k
  /-- The first half that is no digit is blamed, by the place of its byte. -/
  malformed : ∀ k, IsLeast {k | k < 16 ∧ 9 < w.half k} k →
    r = .error (.malformedBcd (offset + k / 2) (w.byte (k / 2)))
  invalid_iff : (∀ k < 16, w.half k ≤ 9) →
    ((∃ cause, r = .error (.invalid cause)) ↔ ¬ IsPossible w)
  read : (∀ k < 16, w.half k ≤ 9) → IsPossible w → ∃ t, r = .ok (.dateTime t) ∧ HasParts t w

/-- Three digits of milliseconds are less than a second. -/
theorem millis_lt {w : Bytes} (h : ∀ k < 16, w.half k ≤ 9) :
    millis w * nanosPerMilli < nanosPerSecond := by
  have h12 := h 12 (by decide)
  have h13 := h 13 (by decide)
  have h14 := h 14 (by decide)
  unfold millis nanosPerMilli nanosPerSecond
  omega

/-- Digits that the calendar and the day have are read as a date and time. -/
theorem decode_of_isPossible (offset : Nat) {w : Bytes} (h : ∀ k < 16, w.half k ≤ 9)
    (hpossible : IsPossible w) : ∃ t, decode offset w = .ok t ∧ HasParts t w := by
  rcases dateOf_of_hasDate hpossible.1 with ⟨d, hdate, hyear, hmonth, hday⟩
  rcases timeOf_of_hasTime (millis_lt h) hpossible.2
    with ⟨t, htime, hhour, hminute, hsecond, hnanos⟩
  refine ⟨⟨d, t⟩, ?_, ⟨hyear, hmonth, hday, hhour, hminute, hsecond, hnanos⟩⟩
  rw [decode_of_digits offset h, hdate, Outcome.ok_bind, htime]
  rfl

/-- Any other digits are invalid. -/
theorem decode_of_not_isPossible (offset : Nat) {w : Bytes} (h : ∀ k < 16, w.half k ≤ 9)
    (himpossible : ¬ IsPossible w) : ∃ cause, decode offset w = .error (.invalid cause) := by
  rw [decode_of_digits offset h]
  by_cases hdate : HasDate (year w) (w.pair 1) (w.pair 2)
  · have htime : ¬ HasTime (w.pair 3) (w.pair 4) (w.pair 5) := fun ht => himpossible ⟨hdate, ht⟩
    rcases dateOf_of_hasDate hdate with ⟨d, hd, _⟩
    rw [hd, Outcome.ok_bind, timeOf_of_not_hasTime (millis_lt h) htime]
    exact ⟨_, rfl⟩
  · rw [dateOf_of_not_hasDate hdate]
    exact ⟨_, rfl⟩

/-- Eight bytes come to one of three ends: a half is no digit, or the digits make no date and
time, or they make one. -/
theorem reading_decode (offset : Nat) (w : Bytes) :
    Reading offset w ((decode offset w).map .dateTime) := by
  by_cases hdigits : ∀ k < 16, w.half k ≤ 9
  · have hnone : ¬ ∃ k < 16, 9 < w.half k := by
      rintro ⟨k, hk, hover⟩
      have hle := hdigits k hk
      omega
    by_cases hpossible : IsPossible w
    · rcases decode_of_isPossible offset hdigits hpossible with ⟨t, ht, hparts⟩
      rw [ht]
      constructor
      case malformed_iff => simp [hnone, Outcome.map_ok]
      case malformed => exact fun k hk => absurd ⟨k, hk.1⟩ hnone
      case invalid_iff => simp [hpossible, Outcome.map_ok]
      case read => exact fun _ _ => ⟨t, rfl, hparts⟩
    · rcases decode_of_not_isPossible offset hdigits hpossible with ⟨cause, hcause⟩
      rw [hcause]
      constructor
      case malformed_iff => simp [hnone, Except.map]
      case malformed => exact fun k hk => absurd ⟨k, hk.1⟩ hnone
      case invalid_iff => exact fun _ => ⟨fun _ => hpossible, fun _ => ⟨cause, rfl⟩⟩
      case read => exact fun _ h => absurd h hpossible
  · have hover : ∃ k, k < 16 ∧ 9 < w.half k := by
      simpa only [not_forall, Nat.not_le, exists_prop] using hdigits
    have hmalformed (k : Nat) (hk : IsLeast {k | k < 16 ∧ 9 < w.half k} k) :
        (decode offset w).map Value.dateTime
          = .error (.malformedBcd (offset + k / 2) (w.byte (k / 2))) := by
      rw [decode_of_isLeast offset hk]
      rfl
    constructor
    case malformed_iff =>
      exact ⟨fun _ => hover, fun _ => ⟨_, _, hmalformed _ (Nat.isLeast_find hover)⟩⟩
    case malformed => exact hmalformed
    case invalid_iff => exact fun h => absurd h hdigits
    case read => exact fun h => absurd h hdigits

end DateAndTime

/-! ## Spans with a time base -/

namespace S5Time

/-- The three digits of a count with a time base. -/
def count (w : Bytes) : Nat :=
  w.half 1 * 100 + w.half 2 * 10 + w.half 3

/-- The code of the time base in two bits below the two highest ones of a word. -/
def code (word : Nat) : Nat :=
  word / 2 ^ 12 % 2 ^ 2

/-- What two bytes at an offset are read as. -/
structure Reading (offset : Nat) (w : Bytes) (r : Except Fault Value) : Prop where
  hundreds : 9 < w.half 1 → r = .error (.malformedBcd offset (w.byte 0))
  rest : w.half 1 ≤ 9 → 9 < w.half 2 ∨ 9 < w.half 3 →
    r = .error (.malformedBcd (offset + 1) (w.byte 1))
  read : w.half 1 ≤ 9 → w.half 2 ≤ 9 → w.half 3 ≤ 9 →
    r = .ok (.span (.ofMillis (count w * 10 ^ (1 + code (BigEndian.decode w)) : Nat)))

/-- The half of the first byte above the hundreds holds the code of the base. -/
theorem code_decode {w : Bytes} (h : w.length = 2) :
    code (BigEndian.decode w) = Bcd.high (w.byte 0) % 4 := by
  rcases List.length_eq_two.1 h with ⟨a, b, rfl⟩
  have hb := b.toNat_lt
  have hdecode : BigEndian.decode [a, b] = a.toNat * 256 + b.toNat := by
    simp [BigEndian.decode]
  have hbyte : Bytes.byte [a, b] 0 = a := rfl
  rw [code, hdecode, hbyte, Bcd.high]
  omega

/-- Two bytes have a half that is no digit, or are read as a count with its base. -/
theorem reading_decode (offset : Nat) {w : Bytes} (h : w.length = 2) :
    Reading offset w ((decode offset w).map .span) := by
  have hhundreds : w.half 1 = Bcd.low (w.byte 0) := w.half_two_mul_add_one 0
  constructor
  case hundreds =>
    intro hover
    rw [hhundreds] at hover
    rw [decode, if_pos hover]
    rfl
  case rest =>
    intro hle hover
    rw [hhundreds] at hle
    rw [decode, if_neg (Nat.not_lt.2 hle), digitPair_eq_error (i := 1) _ hover]
    rfl
  case read =>
    intro hle htens hones
    have hpair := digitPair_eq_pair (offset + 1) (i := 1) htens hones
    rw [hhundreds] at hle
    rw [decode, if_neg (Nat.not_lt.2 hle), hpair, Outcome.map_ok, Outcome.map_ok, code_decode h,
      count, hhundreds, Bytes.pair, Nat.add_assoc, base, Nat.add_comm 1]

end S5Time

/-! ## Fields -/

namespace FieldType

variable {bs : Bytes} {offset : Nat}

theorem decode_dateAndTime (h : offset + 8 ≤ bs.length) (bit : Option Nat) :
    dateAndTime.decode bs offset bit
      = (DateAndTime.decode offset (bs.slice offset 8)).map .dateTime := by
  have hwindow : window bs offset dateAndTime.width = .ok (bs.slice offset 8) :=
    window_eq_ok_iff.2 ⟨h, rfl⟩
  rw [decode, hwindow, Outcome.bind_eq, Outcome.ok_bind]

theorem decode_s5time (h : offset + 2 ≤ bs.length) (bit : Option Nat) :
    s5time.decode bs offset bit = (S5Time.decode offset (bs.slice offset 2)).map .span := by
  have hwindow : window bs offset s5time.width = .ok (bs.slice offset 2) :=
    window_eq_ok_iff.2 ⟨h, rfl⟩
  rw [decode, hwindow, Outcome.bind_eq, Outcome.ok_bind]

/-- A field of a date and time in decimal digits, and one of a span with a time base, is read
digit by digit wherever it lies within the buffer. -/
theorem decode_decimal_times (bs : Bytes) (offset : Nat) (bit : Option Nat) :
    (offset + 8 ≤ bs.length → DateAndTime.Reading offset (bs.slice offset 8)
      (dateAndTime.decode bs offset bit))
    ∧ (offset + 2 ≤ bs.length → S5Time.Reading offset (bs.slice offset 2)
      (s5time.decode bs offset bit)) := by
  constructor
  · intro h
    rw [decode_dateAndTime h]
    exact DateAndTime.reading_decode offset _
  · intro h
    rw [decode_s5time h]
    exact S5Time.reading_decode offset (Bytes.length_slice h)

/-- The last millisecond of a leap day is read behind a byte that is not asked.  The same day of
the next year is invalid, and of two halves that are no digit the first one is blamed.  A span
is read although both of the highest bits of its word are set. -/
theorem decode_decimal_times_on_leap_day :
    (∃ t, dateAndTime.decode [0xff, 0x00, 0x02, 0x29, 0x23, 0x59, 0x59, 0x99, 0x93] 1 none
        = .ok (.dateTime t)
      ∧ t.date.year = 2000 ∧ t.date.day = 29 ∧ t.time.nanos = 999000000)
    ∧ (∃ cause, dateAndTime.decode [0xff, 0x01, 0x02, 0x29, 0x23, 0x59, 0x59, 0x99, 0x93] 1 none
      = .error (.invalid cause))
    ∧ dateAndTime.decode [0xff, 0x00, 0x02, 0x29, 0x23, 0x5a, 0x59, 0xf9, 0x93] 1 none
      = .error (.malformedBcd 5 0x5a)
    ∧ s5time.decode [0xff, 0xd2, 0x05] 1 none = .ok (.span (.ofMillis 20500)) := by
  have hread := (decode_decimal_times [0xff, 0x00, 0x02, 0x29, 0x23, 0x59, 0x59, 0x99, 0x93] 1
    none).1 (by decide)
  have hinvalid := (decode_decimal_times [0xff, 0x01, 0x02, 0x29, 0x23, 0x59, 0x59, 0x99, 0x93] 1
    none).1 (by decide)
  have hmalformed := (decode_decimal_times [0xff, 0x00, 0x02, 0x29, 0x23, 0x5a, 0x59, 0xf9, 0x93] 1
    none).1 (by decide)
  have hspan := (decode_decimal_times [0xff, 0xd2, 0x05] 1 none).2 (by decide)
  refine ⟨?_, (hinvalid.invalid_iff (by decide)).2 ?_, hmalformed.malformed 9 ⟨by decide, ?_⟩,
    hspan.read (by decide) (by decide) (by decide)⟩
  · rcases hread.read (by decide) ⟨by decide, by decide⟩ with ⟨t, ht, hparts⟩
    exact ⟨t, ht, hparts.year, hparts.day, hparts.nanos⟩
  · rintro ⟨hdate, _⟩
    exact absurd hdate.2.2 (by decide)
  · rintro j ⟨_, hover⟩
    have hdigits : ∀ i < 9, Bytes.half [0x00, 0x02, 0x29, 0x23, 0x5a, 0x59, 0xf9, 0x93] i ≤ 9 := by
      decide
    by_contra hlt
    exact absurd (hdigits j (Nat.not_le.1 hlt)) (Nat.not_le.2 hover)

end FieldType
end DataBlock
