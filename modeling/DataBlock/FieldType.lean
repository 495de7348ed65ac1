import DataBlock.Number.Integer

/-!
# Field types

The types that a field of a data block can have, with the bytes each of them
occupies and its written form.

Main results:

- `IntegerType.name_injective`: the names tell the integer types apart.
- `FieldType.length?_eq_some_iff`: the types with a length are the three texts and
  the raw bytes.
-/

namespace DataBlock

/-! ## Parts of types -/

/-- The integer types of a data block.  `byte` and `usint` store the same
numbers. -/
inductive IntegerType where
  | byte
  | usint
  | sint
  | uint
  | int
  | udint
  | dint
  deriving DecidableEq, Repr

namespace IntegerType

/-- The integers that a type stores. -/
def kind : IntegerType → IntKind
  | byte | usint => .u8
  | sint => .i8
  | uint => .u16
  | int => .i16
  | udint => .u32
  | dint => .i32

/-- The name of a type. -/
def name : IntegerType → String
  | byte => "BYTE"
  | usint => "USINT"
  | sint => "SINT"
  | uint => "UINT"
  | int => "INT"
  | udint => "UDINT"
  | dint => "DINT"

theorem name_injective {s t : IntegerType} (h : s.name = t.name) : s = t := by
  cases s <;> cases t <;> simp_all [name]

end IntegerType

/-- How a character is stored: in one byte or in two. -/
inductive CharWidth where
  | narrow
  | wide
  deriving DecidableEq, Repr

namespace CharWidth

/-- Bytes of a stored character. -/
def size : CharWidth → Nat
  | narrow => 1
  | wide => 2

/-- The largest capacity of a counted text. -/
def maxCapacity : CharWidth → Nat
  | narrow => 254
  | wide => 16382

end CharWidth

/-! ## Field types -/

/-- The types of fields. -/
inductive FieldType where
  | bool
  | integer (t : IntegerType)
  | real
  | longReal
  | char (w : CharWidth)
  /-- A text with its capacity and its length in front. -/
  | counted (w : CharWidth) (capacity : Nat)
  /-- A text of fixed length, filled up with spaces. -/
  | padded (length : Nat)
  | raw (length : Nat)
  | s5time
  | time
  | date
  | timeOfDay
  | dateAndTime
  | dateTimeLong
  deriving DecidableEq, Repr

namespace FieldType

/-- Bytes that a field occupies; a bit occupies a part of one. -/
def width : FieldType → Nat
  | bool => 1
  | integer t => t.kind.size
  | real => 4
  | longReal => 8
  | char w => w.size
  | counted w capacity => w.size * (capacity + 2)
  | padded length | raw length => length
  | s5time | date => 2
  | time | timeOfDay => 4
  | dateAndTime => 8
  | dateTimeLong => 12

/-- The declared length, for the types that have one. -/
def length? : FieldType → Option Nat
  | counted _ n | padded n | raw n => some n
  | _ => none

/-- The name of a type without its length. -/
def name : FieldType → String
  | bool => "BOOL"
  | integer t => t.name
  | real => "REAL"
  | longReal => "LREAL"
  | char .narrow => "CHAR"
  | char .wide => "WCHAR"
  | counted .narrow _ => "STRING"
  | counted .wide _ => "WSTRING"
  | padded _ => "FSTRING"
  | raw _ => "BYTES"
  | s5time => "S5TIME"
  | time => "TIME"
  | date => "DATE"
  | timeOfDay => "TIME_OF_DAY"
  | dateAndTime => "DATE_AND_TIME"
  | dateTimeLong => "DTL"

/-- The written form of a type: its name, and its length in brackets. -/
def text (t : FieldType) : String :=
  match t.length? with
  | some n => t.name ++ "[" ++ toString n ++ "]"
  | none => t.name

theorem length?_eq_some_iff {t : FieldType} {n : Nat} :
    t.length? = some n ↔ (∃ w, t = counted w n) ∨ t = padded n ∨ t = raw n := by
  cases t <;> simp [length?, eq_comm]

end FieldType
end DataBlock
