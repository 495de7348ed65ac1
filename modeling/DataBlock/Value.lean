import DataBlock.Bytes
import DataBlock.Calendar.TimeOfDay
import DataBlock.Calendar.Span
import DataBlock.Number.Integer
import DataBlock.Number.Shortest
import DataBlock.Text.Quoted

/-!
# Values

The values that fields are written with and read as, the equality under which a
value is a key, and the text of a value.

Main results:

- `Value.sameKey_integer`: integers are the same key when they are the same number,
  whatever their widths.
- `Value.equalKeys_iff`: the comparison of keys finds out whether they are the same.
- `Value.SameKey.symm`, `Value.SameKey.trans`: being the same key is symmetric and
  transitive.
-/

namespace DataBlock

/-- A value of a field.  Floating-point numbers are kept by their bits. -/
inductive Value where
  | bool (b : Bool)
  | integer (n : IntValue)
  | single (bits : UInt32)
  | double (bits : UInt64)
  | char (c : Char)
  | string (s : String)
  | bytes (bs : Bytes)
  | span (d : Span)
  | date (d : Date)
  | time (t : TimeOfDay)
  | dateTime (t : DateTime)
  deriving DecidableEq

namespace Value

/-- The name of the kind of a value. -/
def kindName : Value → String
  | bool _ => "bool"
  | integer n => n.kind.name
  | single _ => "f32"
  | double _ => "f64"
  | char _ => "char"
  | string _ => "string"
  | bytes _ => "bytes"
  | span _ => "duration"
  | date _ => "date"
  | time _ => "time of day"
  | dateTime _ => "date and time"

/-! ## Views -/

/-- The number of an integer value of any width. -/
def number? : Value → Option Int
  | integer n => some n.number
  | _ => none

/-- Whether the value is an integer. -/
def isInteger (v : Value) : Bool :=
  v.number?.isSome

/-- The number of an integer value, if the given kind holds it. -/
def numberIn? (k : IntKind) (v : Value) : Option Int :=
  v.number?.filter fun n => decide (k.Holds n)

/-- The truth value. -/
def bool? : Value → Option Bool
  | bool b => some b
  | _ => none

/-- The text of a string. -/
def string? : Value → Option String
  | string s => some s
  | _ => none

/-- The bits of a single floating-point number. -/
def single? : Value → Option UInt32
  | single bits => some bits
  | _ => none

/-- The bits of a floating-point number as a double one. -/
def double? : Value → Option UInt64
  | double bits => some bits
  | single bits => some (UInt64.ofNat (Binary.widen bits.toNat))
  | _ => none

/-! ## Keys -/

/-- Equality of keys: integers are compared as numbers, floating-point numbers as
numbers of their format, and all else as it is. -/
def SameKey : Value → Value → Prop
  | integer m, integer n => m.number = n.number
  | single a, single b => Binary.single.Equal a.toNat b.toNat
  | double a, double b => Binary.double.Equal a.toNat b.toNat
  | v, w => v = w

/-- Integers are the same key when they are the same number. -/
theorem sameKey_integer {m n : IntValue} :
    (integer m).SameKey (integer n) ↔ m.number = n.number :=
  Iff.rfl

theorem SameKey.symm {v w : Value} (h : v.SameKey w) : w.SameKey v := by
  cases v <;> cases w <;> grind [SameKey, Binary.equal_comm]

theorem SameKey.trans {u v w : Value} (h : u.SameKey v) (h' : v.SameKey w) : u.SameKey w := by
  cases u with
  | integer m =>
      cases v with
      | integer n =>
          cases w with
          | integer k => exact Eq.trans h h'
          | _ => cases h'
      | _ => cases h
  | single a =>
      cases v with
      | single b =>
          cases w with
          | single c => exact Binary.equal_trans h h'
          | _ => cases h'
      | _ => cases h
  | double a =>
      cases v with
      | double b =>
          cases w with
          | double c => exact Binary.equal_trans h h'
          | _ => cases h'
      | _ => cases h
  | _ =>
      cases h
      exact h'

/-- Whether two values are equal: floating-point numbers as numbers of their format, and all
else as it is. -/
def equal : Value → Value → Bool
  | single a, single b => decide (Binary.single.Equal a.toNat b.toNat)
  | double a, double b => decide (Binary.double.Equal a.toNat b.toNat)
  | v, w => decide (v = w)

/-- Whether two values are equal as keys.  Two integers are compared in the widest signed
kind if it holds both, and else in the widest unsigned kind, which has to hold both. -/
def equalKeys (v w : Value) : Bool :=
  if v.isInteger && w.isInteger then
    match v.numberIn? .i64, w.numberIn? .i64 with
    | some m, some n => m == n
    | _, _ => (v.numberIn? .u64).isSome && v.numberIn? .u64 == w.numberIn? .u64
  else v.equal w

/-- An integer is seen in a kind exactly if the kind holds its number. -/
theorem numberIn?_integer (k : IntKind) (n : IntValue) :
    (integer n).numberIn? k = if k.Holds n.number then some n.number else none := by
  simp [numberIn?, number?, Option.filter]

/-- Integers are equal as keys when they are the same number.  Where the widest signed kind
does not hold both, the widest unsigned kind holds the one that is missing. -/
theorem equalKeys_integer {m n : IntValue} :
    (integer m).equalKeys (integer n) = true ↔ m.number = n.number := by
  have hkind : ((integer m).isInteger && (integer n).isInteger) = true := rfl
  rw [equalKeys, if_pos hkind]
  simp only [numberIn?_integer]
  rcases m.holds_widest with hm | ⟨hm, hm'⟩
  · rcases n.holds_widest with hn | ⟨hn, hn'⟩
    · simp [hm, hn]
    · have hne : m.number ≠ n.number := fun h => by
        have hle := hm.2
        omega
      have hout : ¬ IntKind.i64.Holds n.number := fun h => by
        have hle := h.2
        omega
      rw [if_pos hm, if_neg hout, if_pos hn']
      by_cases hm' : IntKind.u64.Holds m.number <;> simp [hm', hne]
  · have hout : ¬ IntKind.i64.Holds m.number := fun h => by
      have hle := h.2
      omega
    rw [if_neg hout, if_pos hm']
    by_cases hn : IntKind.u64.Holds n.number
    · simp [hn]
    · have hne : m.number ≠ n.number := fun h => hn (h ▸ hm')
      simp [hn, hne]

theorem isInteger_iff {v : Value} : v.isInteger = true ↔ ∃ n, v = integer n := by
  cases v <;> simp [isInteger, number?]

/-- Where one of two values is no integer, they are the same key if they are equal. -/
theorem equal_iff_sameKey {v w : Value} (h : ¬ (v.isInteger && w.isInteger) = true) :
    v.equal w = true ↔ v.SameKey w := by
  cases v with
  | integer m =>
      cases w with
      | integer n => exact absurd rfl h
      | _ => simp only [equal, SameKey, decide_eq_true_iff]
  | single a => cases w <;> simp only [equal, SameKey, decide_eq_true_iff]
  | double a => cases w <;> simp only [equal, SameKey, decide_eq_true_iff]
  | _ => simp only [equal, SameKey, decide_eq_true_iff]

/-- The comparison finds out whether two values are the same key. -/
theorem equalKeys_iff {v w : Value} : v.equalKeys w = true ↔ v.SameKey w := by
  by_cases hkind : (v.isInteger && w.isInteger) = true
  · rw [Bool.and_eq_true, isInteger_iff, isInteger_iff] at hkind
    obtain ⟨⟨m, rfl⟩, n, rfl⟩ := hkind
    exact equalKeys_integer
  · rw [equalKeys, if_neg hkind]
    exact equal_iff_sameKey hkind

instance (v w : Value) : Decidable (v.SameKey w) :=
  decidable_of_iff _ equalKeys_iff

/-! ## Text -/

/-- The text of a value. -/
def text : Value → String
  | bool b => if b then "true" else "false"
  | integer n => toString n.number
  | single bits => Binary.single.text bits.toNat
  | double bits => Binary.double.text bits.toNat
  | char c => Quoted.char c
  | string s => Quoted.text s
  | bytes bs => "[" ++ Hex.spaced bs ++ "]"
  | span d => d.text
  | date d => d.text
  | time t => t.text
  | dateTime t => t.text

end Value
end DataBlock
