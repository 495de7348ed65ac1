import DataBlock.Codec.Clock
import DataBlock.Codec.Patch
import DataBlock.Codec.Text

/-!
# Reading and writing fields

A value of a field type at an offset of a buffer.  A value is checked against its
type before the buffer is looked at, so a write either puts the whole field or
changes nothing.

Main results:

- `FieldType.length_encode`: a write never changes how many bytes there are.
- `FieldType.encode_eq_ok_iff`: a write succeeds exactly if the value has a patch
  whose window lies within the buffer.
-/

namespace DataBlock
namespace FieldType

/-- The index of a single bit, which has to be given. -/
def requireBit (bit : Option Nat) : Except Fault Nat :=
  match bit with
  | some i => .ok i
  | none => .error (.invalid .missingBit)

/-! ## Writing -/

/-- What a write of a value puts into the window of a field. -/
def patch (t : FieldType) (bit : Option Nat) (v : Value) : Except Fault Patch :=
  match t with
  | bool => do
      let i ← requireBit bit
      let b ← truth v
      return .bit (← Bit.index i) b
  | integer t => (t.image v).map .ofBytes
  | real => (realImage v).map .ofBytes
  | longReal => (longRealImage v).map .ofBytes
  | char w => (w.charImage v).map .ofBytes
  | counted w capacity => (countedImage w capacity v).map .image
  | padded length => (paddedImage length v).map .image
  | raw length => (rawImage length v).map .image
  | s5time => (S5Time.image v).map .ofBytes
  | time => (timeImage v).map .ofBytes
  | date => (dateImage v).map .ofBytes
  | timeOfDay => (timeOfDayImage v).map .ofBytes
  | dateAndTime => (DateAndTime.image v).map .ofBytes
  | dateTimeLong => (DateTimeLong.image v).map .ofBytes

/-- Writes a value as a field at an offset. -/
def write (t : FieldType) (offset : Nat) (bit : Option Nat) (v : Value) :
    Change Bytes Unit := do
  (← Change.check (t.patch bit v)).write offset

/-- The buffer after a value is written as a field at an offset. -/
def encode (t : FieldType) (bs : Bytes) (offset : Nat) (bit : Option Nat) (v : Value) :
    Except Fault Bytes :=
  (t.write offset bit v).result bs

/-- A value is turned into its patch before the buffer is looked at. -/
theorem run_write (t : FieldType) (bs : Bytes) (offset : Nat) (bit : Option Nat)
    (v : Value) :
    (t.write offset bit v).run bs =
      match t.patch bit v with
      | .ok p => (p.write offset).run bs
      | .error fault => .error fault bs := by
  simp only [write, EStateM.run_bind, Change.run_check]
  cases t.patch bit v <;> rfl

/-- A write succeeds exactly if the value has a patch whose window lies within the
buffer. -/
theorem encode_eq_ok_iff {t : FieldType} {bs bs' : Bytes} {offset : Nat}
    {bit : Option Nat} {v : Value} :
    t.encode bs offset bit v = .ok bs' ↔
      ∃ p, t.patch bit v = .ok p ∧ p.apply bs offset = .ok bs' := by
  rw [encode, Change.result_eq_ok_iff, run_write]
  cases t.patch bit v <;> simp [Patch.apply, Change.result_eq_ok_iff]

/-- A write never changes how many bytes there are. -/
theorem length_encode {t : FieldType} {bs bs' : Bytes} {offset : Nat}
    {bit : Option Nat} {v : Value} (h : t.encode bs offset bit v = .ok bs') :
    bs'.length = bs.length := by
  obtain ⟨p, _, hp⟩ := encode_eq_ok_iff.1 h
  exact p.length_apply hp

/-! ## Reading -/

/-- The value of a field at an offset of a buffer.  A counted text reaches as far as
its own header says; every other type is read from its window. -/
def decode (t : FieldType) (bs : Bytes) (offset : Nat) (bit : Option Nat) :
    Except Fault Value :=
  let stored := window bs offset t.width
  match t with
  | bool => do
      let i ← Bit.index (← requireBit bit)
      return .bool (Bit.get ((← stored).byte 0) i)
  | integer t => stored.map fun w => .integer (t.decode w)
  | real => stored.map decodeReal
  | longReal => stored.map decodeLongReal
  | char _ => (stored.bind CharWidth.decodeChar).map .char
  | counted w _ => (readCounted w bs offset).map .string
  | padded _ => stored.map fun w => .string (decodePadded w)
  | raw _ => stored.map .bytes
  | s5time => (stored.bind (S5Time.decode offset)).map .span
  | time => stored.map fun w => .span (decodeTime w)
  | date => (stored.bind decodeDate).map .date
  | timeOfDay => (stored.bind decodeTimeOfDay).map .time
  | dateAndTime => (stored.bind (DateAndTime.decode offset)).map .dateTime
  | dateTimeLong => (stored.bind DateTimeLong.decode).map .dateTime

end FieldType
end DataBlock
