import DataBlock.Fault
import DataBlock.Number.BigEndian

/-!
# Stored numbers

Truth values, integers and floating-point numbers in the bytes of a field.
Integers are taken from integer values of any width that the field can hold.

Main results:

- `IntegerType.decode_image`: an integer that was stored is read back as that
  number.
- `truth_integer_eq_ok_iff`: zero and one are the only integers that are truth
  values.
-/

namespace DataBlock

/-- The fault of a value whose kind a type does not store. -/
def mismatch {α : Type} (type : FieldType) (v : Value) : Except Fault α :=
  .error (.typeMismatch type v)

/-! ## Truth values -/

/-- The truth value that a value stands for. -/
def truth (v : Value) : Except Fault Bool :=
  match v with
  | .bool b => .ok b
  | .integer n =>
      if n.number = 0 then .ok false
      else if n.number = 1 then .ok true
      else .error (.outOfRange (.notABit n))
  | v => mismatch .bool v

/-- Zero and one are the only integers that are truth values. -/
theorem truth_integer_eq_ok_iff {n : IntValue} {b : Bool} :
    truth (.integer n) = .ok b ↔ n.number = b.toInt := by
  by_cases hzero : n.number = 0
  · cases b <;> simp [truth, hzero]
  · by_cases hone : n.number = 1 <;> cases b <;> simp [truth, hzero, hone]

/-! ## Integers -/

namespace IntegerType

/-- The bytes that an integer type stores for a value. -/
def image (t : IntegerType) (v : Value) : Except Fault Bytes :=
  match v with
  | .integer n =>
      if t.kind.Holds n.number then
        .ok (BigEndian.encode t.kind.size (t.kind.toWord n.number))
      else .error (.outOfRange (.integer n (.integer t)))
  | v => mismatch (.integer t) v

/-- The integer that stored bytes stand for. -/
def decode (t : IntegerType) (w : Bytes) : IntValue :=
  IntValue.ofWord t.kind (BigEndian.decode w)

/-- An integer that was stored is read back as that number. -/
theorem decode_image {t : IntegerType} {n : IntValue} {w : Bytes}
    (h : t.image (.integer n) = .ok w) : (t.decode w).number = n.number := by
  unfold image at h
  split at h
  · next m hm =>
      cases hm
      split at h
      · next hholds =>
          cases h
          have hlt : t.kind.toWord n.number < 256 ^ t.kind.size := by
            cases t <;>
              simp only [IntKind.toWord, IntegerType.kind, IntKind.words, IntKind.size] <;>
              omega
          rw [decode, IntValue.ofWord, BigEndian.decode_encode hlt]
          exact IntValue.wrapped_toWord hholds
      · exact absurd h (by simp)
  · next hne => exact absurd rfl (hne n)

end IntegerType

/-! ## Floating-point numbers -/

/-- The bytes of a single floating-point number; nothing else is taken. -/
def realImage (v : Value) : Except Fault Bytes :=
  match v.single? with
  | some bits => .ok (BigEndian.encode 4 bits.toNat)
  | none => mismatch .real v

/-- The bytes of a double floating-point number; a single one is widened. -/
def longRealImage (v : Value) : Except Fault Bytes :=
  match v.double? with
  | some bits => .ok (BigEndian.encode 8 bits.toNat)
  | none => mismatch .longReal v

/-- The single floating-point number in stored bytes. -/
def decodeReal (w : Bytes) : Value :=
  .single (UInt32.ofNat (BigEndian.decode w))

/-- The double floating-point number in stored bytes. -/
def decodeLongReal (w : Bytes) : Value :=
  .double (UInt64.ofNat (BigEndian.decode w))

/-- A single floating-point number is read back bit by bit. -/
theorem decodeReal_image {bits : UInt32} {w : Bytes}
    (h : realImage (.single bits) = .ok w) : decodeReal w = .single bits := by
  cases h
  have hlt : bits.toNat < 256 ^ 4 := bits.toNat_lt
  rw [decodeReal, BigEndian.decode_encode hlt, UInt32.ofNat_toNat]

/-- A double floating-point number is read back bit by bit. -/
theorem decodeLongReal_image {bits : UInt64} {w : Bytes}
    (h : longRealImage (.double bits) = .ok w) : decodeLongReal w = .double bits := by
  cases h
  have hlt : bits.toNat < 256 ^ 8 := bits.toNat_lt
  rw [decodeLongReal, BigEndian.decode_encode hlt, UInt64.ofNat_toNat]

end DataBlock
