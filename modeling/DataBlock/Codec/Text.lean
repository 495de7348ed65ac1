import DataBlock.Codec.Image
import DataBlock.Codec.Number
import DataBlock.Codec.Window

/-!
# Stored text

Characters, counted texts and padded texts in the bytes of a field.  A narrow
character is written only if it is ASCII and read as Latin-1; a wide one is a code
unit of the basic plane.

Main results:

- `CharWidth.length_unit`: a stored character takes the bytes of its width.
- `CharWidth.length_flatMap_unit`: a text takes so many times the bytes of one
  character.
-/

namespace DataBlock

/-! ## Characters -/

/-- A character of the ASCII range. -/
def isAscii (c : Char) : Bool :=
  c.toNat < 128

/-- A character of the basic plane. -/
def isBasic (c : Char) : Bool :=
  c.toNat < 65536

namespace CharWidth

/-- The bytes of a character. -/
def unit (w : CharWidth) (c : Char) : Bytes :=
  BigEndian.encode w.size c.toNat

@[simp] theorem length_unit (w : CharWidth) (c : Char) : (w.unit c).length = w.size :=
  BigEndian.length_encode _ _

/-- What stands in the unused places of a counted text. -/
def filler : CharWidth → UInt8
  | narrow => 32
  | wide => 0

/-- So many characters take so many times the bytes of one. -/
theorem length_flatMap_unit (w : CharWidth) (cs : List Char) :
    (cs.flatMap w.unit).length = cs.length * w.size := by
  induction cs with
  | nil => simp
  | cons c cs ih =>
      simp only [List.flatMap_cons, List.length_append, length_unit, ih,
        List.length_cons, Nat.add_mul]
      omega

/-- The character that a code unit stands for; half of a surrogate pair stands for
none. -/
def charOf (code : Nat) : Except Fault Char :=
  if 0xd800 ≤ code ∧ code ≤ 0xdfff then .error (.invalid (.notACharacter code))
  else .ok (Char.ofNat code)

/-- The bytes of a single character. -/
def charImage (w : CharWidth) (v : Value) : Except Fault Bytes :=
  match v, w with
  | .char c, narrow =>
      if isAscii c then .ok (narrow.unit c) else .error (.invalid (.charNotAscii c))
  | .char c, wide =>
      if isBasic c then .ok (wide.unit c) else .error (.invalid (.beyondPlane c))
  | v, w => mismatch (.char w) v

/-- The character in stored bytes. -/
def decodeChar (w : Bytes) : Except Fault Char :=
  charOf (BigEndian.decode w)

end CharWidth

/-! ## Checks on texts -/

/-- A narrow text is ASCII throughout. -/
def checkAscii (type : FieldType) (s : String) : Except Fault Unit :=
  if s.toList.all isAscii then .ok ()
  else .error (.invalid (.textNotAscii type s))

/-- A wide text is in the basic plane throughout; the first character that is not
is named. -/
def checkBasic (s : String) : Except Fault Unit :=
  match s.toList.find? fun c => !isBasic c with
  | some c => .error (.invalid (.beyondPlane c))
  | none => .ok ()

/-- The capacity of a counted text is at least one and within its width's limit. -/
def checkCapacity (w : CharWidth) (capacity : Nat) : Except Fault Unit :=
  if 1 ≤ capacity ∧ capacity ≤ w.maxCapacity then .ok ()
  else .error (.invalid (.capacity w capacity))

/-- The checks before a counted text is written.  A narrow text is looked at before
the capacity, a wide one after it. -/
def checkCounted (w : CharWidth) (capacity : Nat) (s : String) : Except Fault Unit := do
  match w with
  | .narrow =>
      checkAscii (.counted .narrow capacity) s
      checkCapacity .narrow capacity
  | .wide =>
      checkCapacity .wide capacity
      checkBasic s

/-! ## Counted texts -/

/-- The part of a text that a capacity leaves. -/
def kept (capacity : Nat) (s : String) : List Char :=
  s.toList.take capacity

theorem length_kept_le (capacity : Nat) (s : String) : (kept capacity s).length ≤ capacity := by
  simp only [kept, List.length_take]
  omega

/-- The header is a part of the window of a counted text. -/
theorem header_le_width (w : CharWidth) (capacity : Nat) :
    2 * w.size ≤ (FieldType.counted w capacity).width := by
  rw [FieldType.width, Nat.mul_comm w.size]
  exact Nat.mul_le_mul_right _ (Nat.le_add_left 2 capacity)

/-- So many characters after the header are a part of the window of a counted text. -/
theorem chars_le_width (w : CharWidth) {capacity length : Nat} (h : length ≤ capacity) :
    2 * w.size + length * w.size ≤ (FieldType.counted w capacity).width := by
  rw [FieldType.width, Nat.mul_comm w.size, ← Nat.add_mul]
  exact Nat.mul_le_mul_right _ (by omega)

/-- The image of a counted text: its capacity, its length, as many characters as
fit, and filler. -/
def countedText (w : CharWidth) (capacity : Nat) (s : String) : Image where
  head := BigEndian.encode w.size capacity ++ BigEndian.encode w.size (kept capacity s).length
    ++ (kept capacity s).flatMap w.unit
  filler := w.filler
  width := (FieldType.counted w capacity).width
  head_le_width := by
    have := length_kept_le capacity s
    simp only [List.length_append, BigEndian.length_encode, CharWidth.length_flatMap_unit,
      FieldType.width]
    cases w <;> simp only [CharWidth.size] <;> omega

/-- The image that a counted text stores for a value. -/
def countedImage (w : CharWidth) (capacity : Nat) (v : Value) : Except Fault Image :=
  match v with
  | .string s => (checkCounted w capacity s).map fun _ => countedText w capacity s
  | v => mismatch (.counted w capacity) v

/-- Reads a counted text.  What counts is the header that is stored: the declared
capacity plays no part. -/
def readCounted (w : CharWidth) (bs : Bytes) (offset : Nat) : Except Fault String := do
  let header ← window bs offset (2 * w.size)
  let most := BigEndian.decode (header.take w.size)
  let length := BigEndian.decode (header.drop w.size)
  if most < length then .error (.invalid (.overlong w offset length most))
  else
    let units ← window bs (offset + 2 * w.size) (length * w.size)
    let chars ← (Bytes.pieces w.size length units).mapM CharWidth.decodeChar
    return String.ofList chars

/-! ## Padded texts and raw bytes -/

/-- The image of a padded text: as many characters as fit, then spaces. -/
def paddedText (length : Nat) (s : String) : Image where
  head := (kept length s).flatMap CharWidth.narrow.unit
  filler := CharWidth.narrow.filler
  width := length
  head_le_width := by
    have := length_kept_le length s
    simp only [CharWidth.length_flatMap_unit, CharWidth.size]
    omega

/-- The image that a padded text stores for a value. -/
def paddedImage (length : Nat) (v : Value) : Except Fault Image :=
  match v with
  | .string s => (checkAscii (.padded length) s).map fun _ => paddedText length s
  | v => mismatch (.padded length) v

/-- The text in the bytes of a padded text: all but the spaces at the end. -/
def decodePadded (w : Bytes) : String :=
  let kept := (w.reverse.dropWhile (· == 32)).reverse
  String.ofList (kept.map fun b => Char.ofNat b.toNat)

/-- The image that a field of raw bytes stores for a value, filled up with zeros. -/
def rawImage (length : Nat) (v : Value) : Except Fault Image :=
  match v with
  | .bytes bs =>
      if h : bs.length ≤ length then .ok ⟨bs, 0, length, h⟩
      else .error (.outOfRange (.tooManyBytes bs.length length))
  | v => mismatch (.raw length) v

end DataBlock
