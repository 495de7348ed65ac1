import DataBlock.Codec
import DataBlock.Fault.Outcome
import DataBlock.Proofs.Printing.Clock
import DataBlock.Proofs.Printing.Quoted
import DataBlock.Proofs.Printing.Real

/-!
# Printed values are read back

A field type gives values of one form only, and the text of a value tells which one of them
it is, unless it is no number.  As a key, a value that is no number is not even the same as
itself, and the zeros of either sign are the same.

Main results:

- `FieldType.Yields`: the values as which the fields of a type are read.
- `FieldType.Yields.text_eq_iff`: values of a type with the same text are the same, or both
  no numbers.
- `FieldType.Yields.sameKey_iff`: values of a type that are the same key.
- `FieldType.eq_of_decoded_text_eq`: the text of what a field is read as tells the value, for
  every type but the floating-point ones.
-/

namespace DataBlock

/-! ## The values of a type -/

/-- The values as which the fields of a type are read. -/
inductive FieldType.Yields : FieldType → Value → Prop where
  | bool (b : Bool) : Yields .bool (.bool b)
  | integer {t : IntegerType} {n : IntValue} (hkind : n.kind = t.kind) :
      Yields (.integer t) (.integer n)
  | real (bits : UInt32) : Yields .real (.single bits)
  | longReal (bits : UInt64) : Yields .longReal (.double bits)
  | char (w : CharWidth) (c : Char) : Yields (.char w) (.char c)
  | counted (w : CharWidth) (capacity : Nat) (s : String) : Yields (.counted w capacity) (.string s)
  | padded (length : Nat) (s : String) : Yields (.padded length) (.string s)
  | raw (length : Nat) (bs : Bytes) : Yields (.raw length) (.bytes bs)
  | s5time (ms : Int) : Yields .s5time (.span (.ofMillis ms))
  | time (ms : Int) : Yields .time (.span (.ofMillis ms))
  | date (d : Date) : Yields .date (.date d)
  | timeOfDay {t : TimeOfDay} (h : ¬ t.IsLeap) : Yields .timeOfDay (.time t)
  | dateAndTime {t : DateTime} (h : ¬ t.time.IsLeap) : Yields .dateAndTime (.dateTime t)
  | dateTimeLong {t : DateTime} (h : ¬ t.time.IsLeap) : Yields .dateTimeLong (.dateTime t)

/-- A span with a time base is a whole number of milliseconds. -/
theorem S5Time.exists_ofMillis_of_decode {offset : Nat} {w : Bytes} {d : Span}
    (h : S5Time.decode offset w = .ok d) : ∃ ms, d = Span.ofMillis ms := by
  simp only [decode] at h
  split at h
  · cases h
  · rcases Outcome.map_eq_ok_iff.1 h with ⟨rest, _, rfl⟩
    exact ⟨_, rfl⟩

/-- A time in a count of milliseconds lies outside of leap seconds. -/
theorem not_isLeap_of_decodeTimeOfDay {w : Bytes} {t : TimeOfDay}
    (h : decodeTimeOfDay w = .ok t) : ¬ t.IsLeap := by
  simp only [decodeTimeOfDay] at h
  split at h
  · next hlt =>
      cases h
      exact TimeOfDay.not_isLeap_ofMillis _ hlt
  · cases h

/-- A time that is made of its parts lies outside of leap seconds. -/
theorem not_isLeap_of_timeOf {hour minute second nanos : Nat} {t : TimeOfDay}
    (h : timeOf hour minute second nanos = .ok t) : ¬ t.IsLeap := by
  rcases nanos_of_timeOf h with ⟨rfl, hlt⟩
  exact Nat.not_le.2 hlt

theorem DateAndTime.not_isLeap_of_decode {offset : Nat} {w : Bytes} {t : DateTime}
    (h : decode offset w = .ok t) : ¬ t.time.IsLeap := by
  simp only [decode, Outcome.bind_eq_ok_iff] at h
  rcases h with ⟨_, _, _, _, _, _, _, _, _, _, _, _, _, _, _, _, _, _, _, htime, hpure⟩
  cases hpure
  exact not_isLeap_of_timeOf htime

theorem DateTimeLong.not_isLeap_of_decode {w : Bytes} {t : DateTime} (h : decode w = .ok t) :
    ¬ t.time.IsLeap := by
  simp only [decode] at h
  split at h
  · rcases Outcome.bind_eq_ok_iff.1 h with ⟨_, _, h⟩
    rcases Outcome.bind_eq_ok_iff.1 h with ⟨_, htime, hpure⟩
    cases hpure
    exact not_isLeap_of_timeOf htime
  · cases h

/-- A field is read as a value of its type. -/
theorem FieldType.yields_of_decode {t : FieldType} {bs : Bytes} {offset : Nat}
    {bit : Option Nat} {v : Value} (h : t.decode bs offset bit = .ok v) : t.Yields v := by
  cases t with
  | bool =>
      rcases Outcome.bind_eq_ok_iff.1 h with ⟨n, _, h⟩
      rcases Outcome.bind_eq_ok_iff.1 h with ⟨i, _, h⟩
      rcases Outcome.bind_eq_ok_iff.1 h with ⟨stored, _, h⟩
      cases h
      exact .bool _
  | s5time =>
      rcases Outcome.map_eq_ok_iff.1 h with ⟨d, hd, rfl⟩
      rcases Outcome.bind_eq_ok_iff.1 hd with ⟨stored, _, hdecode⟩
      rcases S5Time.exists_ofMillis_of_decode hdecode with ⟨ms, rfl⟩
      exact .s5time ms
  | integer t =>
      rcases Outcome.map_eq_ok_iff.1 h with ⟨stored, _, rfl⟩
      exact .integer rfl
  | time =>
      rcases Outcome.map_eq_ok_iff.1 h with ⟨stored, _, rfl⟩
      exact .time _
  | timeOfDay =>
      rcases Outcome.map_eq_ok_iff.1 h with ⟨time, htime, rfl⟩
      rcases Outcome.bind_eq_ok_iff.1 htime with ⟨stored, _, hdecode⟩
      exact .timeOfDay (not_isLeap_of_decodeTimeOfDay hdecode)
  | dateAndTime =>
      rcases Outcome.map_eq_ok_iff.1 h with ⟨time, htime, rfl⟩
      rcases Outcome.bind_eq_ok_iff.1 htime with ⟨stored, _, hdecode⟩
      exact .dateAndTime (DateAndTime.not_isLeap_of_decode hdecode)
  | dateTimeLong =>
      rcases Outcome.map_eq_ok_iff.1 h with ⟨time, htime, rfl⟩
      rcases Outcome.bind_eq_ok_iff.1 htime with ⟨stored, _, hdecode⟩
      exact .dateTimeLong (DateTimeLong.not_isLeap_of_decode hdecode)
  | _ =>
      rcases Outcome.map_eq_ok_iff.1 h with ⟨stored, _, rfl⟩
      constructor

/-! ## Floating-point numbers -/

/-- Zero is a number. -/
theorem Binary.not_isNaN_of_isZero {f : Binary} {bits : Nat} (h : f.IsZero bits) :
    ¬ f.IsNaN bits :=
  fun hnan => hnan.2 h.2

/-- Numbers are equal if their patterns are, or if both are zero. -/
theorem Binary.equal_iff {f : Binary} {a b : Nat} :
    f.Equal a b ↔ ¬ f.IsNaN a ∧ (a = b ∨ f.IsZero a ∧ f.IsZero b) := by
  constructor
  · rintro ⟨ha, _, h⟩
    exact ⟨ha, h⟩
  · rintro ⟨ha, rfl | ⟨hzero, hzero'⟩⟩
    · exact ⟨ha, ha, .inl rfl⟩
    · exact ⟨ha, not_isNaN_of_isZero hzero', .inr ⟨hzero, hzero'⟩⟩

namespace Value

/-- The value is a floating-point pattern that is no number. -/
def IsNaN : Value → Prop
  | single bits => Binary.single.IsNaN bits.toNat
  | double bits => Binary.double.IsNaN bits.toNat
  | _ => False

/-- The value is a floating-point zero, of either sign. -/
def IsZero : Value → Prop
  | single bits => Binary.single.IsZero bits.toNat
  | double bits => Binary.double.IsZero bits.toNat
  | _ => False

/-- Zero is a number. -/
theorem not_isNaN_of_isZero {v : Value} (h : v.IsZero) : ¬ v.IsNaN := by
  cases v with
  | single bits => exact Binary.not_isNaN_of_isZero h
  | double bits => exact Binary.not_isNaN_of_isZero h
  | _ => exact h.elim

instance (v : Value) : Decidable v.IsNaN :=
  match v with
  | single bits => inferInstanceAs (Decidable (Binary.single.IsNaN bits.toNat))
  | double bits => inferInstanceAs (Decidable (Binary.double.IsNaN bits.toNat))
  | bool _ | integer _ | char _ | string _ | bytes _ | span _ | date _ | time _ | dateTime _ =>
      isFalse id

instance (v : Value) : Decidable v.IsZero :=
  match v with
  | single bits => inferInstanceAs (Decidable (Binary.single.IsZero bits.toNat))
  | double bits => inferInstanceAs (Decidable (Binary.double.IsZero bits.toNat))
  | bool _ | integer _ | char _ | string _ | bytes _ | span _ | date _ | time _ | dateTime _ =>
      isFalse id

end Value

/-! ## Texts and keys -/

/-- Integers of the same kind are the same if their numbers are. -/
theorem IntValue.eq_of_number_eq {m n : IntValue} (hkind : m.kind = n.kind)
    (hnumber : m.number = n.number) : m = n := by
  cases m
  cases n
  cases hkind
  cases hnumber
  rfl

theorem Value.text_integer_inj {m n : IntValue} (h : (integer m).text = (integer n).text) :
    m.number = n.number := by
  rw [text, text, Int.toString_eq_repr, Int.toString_eq_repr, Int.repr_inj] at h
  exact h

/-- Bytes between brackets are told apart. -/
theorem Value.text_bytes_inj {bs bs' : Bytes} (h : (bytes bs).text = (bytes bs').text) :
    bs = bs' := by
  rw [text, text, String.append_left_inj, String.append_right_inj] at h
  exact Hex.spaced_inj h

namespace FieldType.Yields

variable {t : FieldType} {v w : Value}

/-- Values that are numbers, or no floating-point numbers at all, are told apart by a text
that tells which of them it is. -/
theorem text_eq_iff_of_injective (hnan : ¬ v.IsNaN) (hinj : v.text = w.text → v = w) :
    v.text = w.text ↔ v.IsNaN ∧ w.IsNaN ∨ v = w := by
  constructor
  · intro h
    exact .inr (hinj h)
  · rintro (⟨hv, _⟩ | rfl)
    · exact absurd hv hnan
    · rfl

/-- Values of a type with the same text are the same, or both no numbers. -/
theorem text_eq_iff (hv : t.Yields v) (hw : t.Yields w) :
    v.text = w.text ↔ v.IsNaN ∧ w.IsNaN ∨ v = w := by
  cases hv with
  | bool b =>
      cases hw with
      | bool b' =>
          revert b b'
          decide
  | @integer _ m hkind =>
      cases hw with
      | @integer _ n hkind' =>
          refine text_eq_iff_of_injective id fun h => ?_
          rw [IntValue.eq_of_number_eq (hkind.trans hkind'.symm) (Value.text_integer_inj h)]
  | real a =>
      cases hw with
      | real b =>
          have hiff := Binary.text_eq_iff (f := .single) a.toNat_lt b.toNat_lt
          rw [UInt32.toNat_inj] at hiff
          rw [Value.single.injEq]
          exact hiff
  | longReal a =>
      cases hw with
      | longReal b =>
          have hiff := Binary.text_eq_iff (f := .double) a.toNat_lt b.toNat_lt
          rw [UInt64.toNat_inj] at hiff
          rw [Value.double.injEq]
          exact hiff
  | char _ c =>
      cases hw with
      | char _ d => exact text_eq_iff_of_injective id fun h => congrArg _ (Quoted.char_inj h)
  | counted _ _ s =>
      cases hw with
      | counted _ _ s' => exact text_eq_iff_of_injective id fun h => congrArg _ (Quoted.text_inj h)
  | padded _ s =>
      cases hw with
      | padded _ s' => exact text_eq_iff_of_injective id fun h => congrArg _ (Quoted.text_inj h)
  | raw _ bs =>
      cases hw with
      | raw _ bs' =>
          exact text_eq_iff_of_injective id fun h => congrArg _ (Value.text_bytes_inj h)
  | s5time ms =>
      cases hw with
      | s5time ms' =>
          refine text_eq_iff_of_injective id fun h => ?_
          rw [Span.text_ofMillis_inj h]
  | time ms =>
      cases hw with
      | time ms' =>
          refine text_eq_iff_of_injective id fun h => ?_
          rw [Span.text_ofMillis_inj h]
  | date d =>
      cases hw with
      | date d' => exact text_eq_iff_of_injective id fun h => congrArg _ (Date.text_inj h)
  | timeOfDay hleap =>
      cases hw with
      | timeOfDay hleap' =>
          exact text_eq_iff_of_injective id fun h =>
            congrArg _ (TimeOfDay.text_inj hleap hleap' h)
  | dateAndTime hleap =>
      cases hw with
      | dateAndTime hleap' =>
          exact text_eq_iff_of_injective id fun h => congrArg _ (DateTime.text_inj hleap hleap' h)
  | dateTimeLong hleap =>
      cases hw with
      | dateTimeLong hleap' =>
          exact text_eq_iff_of_injective id fun h => congrArg _ (DateTime.text_inj hleap hleap' h)

/-- Values of a type are the same key if they are numbers and equal, or both zero. -/
theorem sameKey_iff (hv : t.Yields v) (hw : t.Yields w) :
    v.SameKey w ↔ ¬ v.IsNaN ∧ (v = w ∨ v.IsZero ∧ w.IsZero) := by
  cases hv with
  | @integer _ m hkind =>
      cases hw with
      | @integer _ n hkind' =>
          rw [Value.sameKey_integer]
          constructor
          · intro h
            exact ⟨id, .inl (by rw [IntValue.eq_of_number_eq (hkind.trans hkind'.symm) h])⟩
          · rintro ⟨_, h | ⟨hzero, _⟩⟩
            · cases h
              rfl
            · exact hzero.elim
  | real a =>
      cases hw with
      | real b =>
          rw [Value.single.injEq, ← UInt32.toNat_inj]
          exact Binary.equal_iff
  | longReal a =>
      cases hw with
      | longReal b =>
          rw [Value.double.injEq, ← UInt64.toNat_inj]
          exact Binary.equal_iff
  | _ =>
      cases hw
      simp [Value.SameKey, Value.IsNaN, Value.IsZero]

/-- Only floating-point types have values that are no numbers. -/
theorem not_isNaN (hv : t.Yields v) (hreal : t ≠ .real) (hlong : t ≠ .longReal) : ¬ v.IsNaN := by
  cases hv with
  | real => exact absurd rfl hreal
  | longReal => exact absurd rfl hlong
  | _ => exact id

end FieldType.Yields

/-! ## Texts of fields -/

/-- Two fields of one type that show the same text hold the same value, in whatever buffers
and at whatever places they stand, if the type is not a floating-point one. -/
theorem FieldType.eq_of_decoded_text_eq {t : FieldType} (hreal : t ≠ .real)
    (hlong : t ≠ .longReal) {bs bs' : Bytes} {offset offset' : Nat} {bit bit' : Option Nat}
    {v w : Value} (hv : t.decode bs offset bit = .ok v) (hw : t.decode bs' offset' bit' = .ok w)
    (htext : v.text = w.text) : v = w := by
  have hyields := yields_of_decode hv
  rcases (hyields.text_eq_iff (yields_of_decode hw)).1 htext with ⟨hnan, _⟩ | heq
  · exact absurd hnan (hyields.not_isNaN hreal hlong)
  · exact heq

/-- Ten hundredths of a second and one tenth of a second are different words with one text,
which both are read as the same span. -/
theorem FieldType.eq_of_decoded_text_eq_of_bases :
    ∃ v w, s5time.decode [0x00, 0x10] 0 none = .ok v
      ∧ s5time.decode [0xff, 0x10, 0x01] 1 none = .ok w ∧ v.text = w.text ∧ v = w := by
  have hv : s5time.decode [0x00, 0x10] 0 none = .ok (.span (.ofMillis 100)) := by decide +kernel
  have hw : s5time.decode [0xff, 0x10, 0x01] 1 none = .ok (.span (.ofMillis 100)) := by
    decide +kernel
  exact ⟨_, _, hv, hw, rfl, eq_of_decoded_text_eq (by decide) (by decide) hv hw rfl⟩

end DataBlock
