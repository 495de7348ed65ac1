import DataBlock.Codec
import DataBlock.Fault.Outcome

/-!
# Reads behind other bytes

A field is read behind other bytes as it is read without them: with the same value, or with
the same fault, in which offsets and lengths count the bytes in front.

Main results:

- `Fault.moved`: a fault as it is told of when there are more bytes in front.
- `Fault.kind_moved`: bytes in front do not change what kind of fault there is.
- `window_append_left`: a window behind other bytes.
- `FieldType.decode_append_left`: a field behind other bytes.
-/

namespace DataBlock

/-! ## Faults -/

/-- The fault as it is told of when there are `n` more bytes in front. -/
def Fault.moved (n : Nat) : Fault → Fault
  | malformedBcd offset byte => malformedBcd (n + offset) byte
  | bufferTooSmall offset needed available => bufferTooSmall (n + offset) needed (n + available)
  | invalid (.overlong w offset length most) => invalid (.overlong w (n + offset) length most)
  | fault => fault

/-- The kinds of faults. -/
inductive FaultKind where
  | layoutText
  | unknownField
  | invalid
  | outOfRange
  | malformedBcd
  | typeMismatch
  | tooLarge
  | bufferTooSmall
  | notFound
  | unreadable
  | device
  deriving DecidableEq, Repr

/-- What kind of fault there is, whatever it tells of. -/
def Fault.kind : Fault → FaultKind
  | layoutText _ _ => .layoutText
  | unknownField _ => .unknownField
  | invalid _ => .invalid
  | outOfRange _ => .outOfRange
  | malformedBcd _ _ => .malformedBcd
  | typeMismatch _ _ => .typeMismatch
  | tooLarge _ => .tooLarge
  | bufferTooSmall _ _ _ => .bufferTooSmall
  | notFound _ => .notFound
  | unreadable _ => .unreadable
  | device _ => .device

/-- Bytes in front do not change what kind of fault there is. -/
theorem Fault.kind_moved (n : Nat) (fault : Fault) : (fault.moved n).kind = fault.kind := by
  cases fault with
  | invalid cause => cases cause <;> rfl
  | _ => rfl

/-! ## Windows -/

/-- A window behind other bytes is the window without them. -/
theorem window_append_left (front bs : Bytes) (offset len : Nat) :
    window (front ++ bs) (front.length + offset) len
      = (window bs offset len).mapError (Fault.moved front.length) := by
  have hslice : Bytes.slice (front ++ bs) (front.length + offset) len = bs.slice offset len := by
    rw [Bytes.slice, List.drop_length_add_append, Bytes.slice]
  rw [window, window, hslice, List.length_append]
  by_cases h : offset + len ≤ bs.length
  · rw [if_pos h, if_pos (by omega), Outcome.mapError_ok]
  · rw [if_neg h, if_neg (by omega), Outcome.mapError_error, Fault.moved]

/-! ## Parts of fields

Each decoder of the bytes of a window either tells of no offset, and then its faults stay,
or it is given the offset of the window, and then its faults move with the window. -/

theorem moved_requireBit (n : Nat) (bit : Option Nat) :
    (FieldType.requireBit bit).mapError (Fault.moved n) = FieldType.requireBit bit := by
  cases bit <;> rfl

theorem moved_index (n i : Nat) : (Bit.index i).mapError (Fault.moved n) = Bit.index i := by
  unfold Bit.index
  split <;> rfl

theorem moved_decodeChar (n : Nat) (w : Bytes) :
    (CharWidth.decodeChar w).mapError (Fault.moved n) = CharWidth.decodeChar w := by
  unfold CharWidth.decodeChar CharWidth.charOf
  split <;> rfl

theorem moved_mapM_decodeChar (n : Nat) (units : List Bytes) :
    (units.mapM CharWidth.decodeChar).mapError (Fault.moved n)
      = units.mapM CharWidth.decodeChar := by
  induction units with
  | nil => rfl
  | cons unit units ih =>
      simp only [List.mapM_cons, Outcome.mapError_bind, moved_decodeChar, ih]
      rfl

theorem moved_dateOf (n year month day : Nat) :
    (dateOf year month day).mapError (Fault.moved n) = dateOf year month day := by
  unfold dateOf
  split <;> rfl

theorem moved_timeOf (n hour minute second nanos : Nat) :
    (timeOf hour minute second nanos).mapError (Fault.moved n)
      = timeOf hour minute second nanos := by
  unfold timeOf
  split
  · rfl
  · split <;> rfl

theorem moved_decodeDate (n : Nat) (w : Bytes) :
    (decodeDate w).mapError (Fault.moved n) = decodeDate w := by
  unfold decodeDate
  simp only
  split <;> rfl

theorem moved_decodeTimeOfDay (n : Nat) (w : Bytes) :
    (decodeTimeOfDay w).mapError (Fault.moved n) = decodeTimeOfDay w := by
  unfold decodeTimeOfDay
  simp only
  split <;> rfl

theorem moved_dateTimeLong (n : Nat) (w : Bytes) :
    (DateTimeLong.decode w).mapError (Fault.moved n) = DateTimeLong.decode w := by
  unfold DateTimeLong.decode
  simp only
  split
  · simp only [Outcome.mapError_bind, moved_dateOf, moved_timeOf]
    rfl
  · rfl

theorem moved_digitPair (n offset : Nat) (b : UInt8) :
    (digitPair offset b).mapError (Fault.moved n) = digitPair (n + offset) b := by
  unfold digitPair
  split <;> rfl

theorem moved_s5time (n offset : Nat) (w : Bytes) :
    (S5Time.decode offset w).mapError (Fault.moved n) = S5Time.decode (n + offset) w := by
  unfold S5Time.decode
  simp only
  split
  · rfl
  · rw [Outcome.mapError_map, moved_digitPair, Nat.add_assoc]

theorem moved_dateAndTime (n offset : Nat) (w : Bytes) :
    (DateAndTime.decode offset w).mapError (Fault.moved n)
      = DateAndTime.decode (n + offset) w := by
  unfold DateAndTime.decode
  simp only [Outcome.mapError_bind, moved_digitPair, moved_dateOf, moved_timeOf, Nat.add_assoc]
  rfl

/-! ## Fields -/

/-- A counted text behind other bytes. -/
theorem readCounted_append_left (w : CharWidth) (front bs : Bytes) (offset : Nat) :
    readCounted w (front ++ bs) (front.length + offset)
      = (readCounted w bs offset).mapError (Fault.moved front.length) := by
  simp only [readCounted, Outcome.mapError_bind, window_append_left, Nat.add_assoc]
  congr 1
  funext header
  split
  · rfl
  · simp only [Outcome.mapError_bind, moved_mapM_decodeChar]
    rfl

/-- A field behind other bytes is read as without them. -/
theorem FieldType.decode_append_left (t : FieldType) (front bs : Bytes) (offset : Nat)
    (bit : Option Nat) :
    t.decode (front ++ bs) (front.length + offset) bit
      = (t.decode bs offset bit).mapError (Fault.moved front.length) := by
  have hwindow := window_append_left front bs offset t.width
  cases t with
  | bool =>
      simp only [decode, hwindow, Outcome.mapError_bind, moved_requireBit, moved_index]
      rfl
  | counted w capacity => rw [decode, decode, readCounted_append_left, Outcome.mapError_map]
  | _ =>
      simp only [decode, hwindow, Outcome.bind_eq, Outcome.mapError_map, Outcome.mapError_bind,
        moved_decodeChar, moved_s5time, moved_decodeDate, moved_decodeTimeOfDay,
        moved_dateAndTime, moved_dateTimeLong]

end DataBlock
