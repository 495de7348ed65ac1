import DataBlock.Number.Count

/-!
# Fixed-width integers

The eight integer kinds, an integer together with the kind that holds it, and
two's complement.

Main results:

- `IntValue.holds_wrapped`: every word stands for a number that the kind holds.
- `IntValue.wrapped_toWord`: two's complement loses nothing of a number that the
  kind holds.
- `IntValue.holds_widest`: of the two widest kinds, one holds every integer.
-/

namespace DataBlock

/-- The integer kinds, by sign and width in bits. -/
inductive IntKind where
  | u8
  | u16
  | u32
  | u64
  | i8
  | i16
  | i32
  | i64
  deriving DecidableEq, Repr

namespace IntKind

/-- Bytes that a number of the kind occupies. -/
def size : IntKind → Nat
  | u8 | i8 => 1
  | u16 | i16 => 2
  | u32 | i32 => 4
  | u64 | i64 => 8

/-- Whether the kind has negative numbers. -/
def signed : IntKind → Bool
  | u8 | u16 | u32 | u64 => false
  | i8 | i16 | i32 | i64 => true

/-- How many words of the kind's width there are. -/
def words (k : IntKind) : Nat :=
  256 ^ k.size

/-- The smallest number of the kind. -/
def lowest (k : IntKind) : Int :=
  if k.signed then -(k.words / 2 : Nat) else 0

/-- The largest number of the kind. -/
def highest (k : IntKind) : Int :=
  if k.signed then (k.words / 2 : Nat) - 1 else (k.words : Nat) - 1

/-- A number the kind can hold. -/
def Holds (k : IntKind) (n : Int) : Prop :=
  k.lowest ≤ n ∧ n ≤ k.highest

instance (k : IntKind) (n : Int) : Decidable (k.Holds n) :=
  inferInstanceAs (Decidable (_ ∧ _))

/-- The short name of the kind. -/
def name : IntKind → String
  | u8 => "u8"
  | u16 => "u16"
  | u32 => "u32"
  | u64 => "u64"
  | i8 => "i8"
  | i16 => "i16"
  | i32 => "i32"
  | i64 => "i64"

end IntKind

/-- An integer of one of the kinds. -/
structure IntValue where
  kind : IntKind
  number : Int
  fits : kind.Holds number
  deriving DecidableEq

namespace IntValue

/-- The integer of the given kind, if the kind holds it. -/
def ofInt? (k : IntKind) (n : Int) : Option IntValue :=
  if h : k.Holds n then some ⟨k, n, h⟩ else none

/-- The number of kind `k` that two's complement gives to the word `w`. -/
def wrapped (k : IntKind) (w : Nat) : Int :=
  if k.signed then Int.bmod w k.words else (w % k.words : Nat)

theorem holds_wrapped (k : IntKind) (w : Nat) : k.Holds (wrapped k w) := by
  cases k <;>
    simp only [IntKind.Holds, IntKind.lowest, IntKind.highest, IntKind.words,
      IntKind.size, IntKind.signed, wrapped, Int.bmod, if_true, Bool.false_eq_true,
      if_false] <;>
    omega

/-- Every integer is held by the widest signed kind, or lies above it and is held by the
widest unsigned kind. -/
theorem holds_widest (n : IntValue) :
    IntKind.i64.Holds n.number
      ∨ IntKind.i64.highest < n.number ∧ IntKind.u64.Holds n.number := by
  obtain ⟨kind, number, fits⟩ := n
  cases kind <;>
    simp only [IntKind.Holds, IntKind.lowest, IntKind.highest, IntKind.words,
      IntKind.size, IntKind.signed, if_true, Bool.false_eq_true, if_false] at fits ⊢ <;>
    omega

/-- The integer of kind `k` that the word `w` stands for. -/
def ofWord (k : IntKind) (w : Nat) : IntValue :=
  ⟨k, wrapped k w, holds_wrapped k w⟩

end IntValue

/-- The word of the kind's width that two's complement gives to `n`. -/
def IntKind.toWord (k : IntKind) (n : Int) : Nat :=
  (n % k.words).toNat

/-- Two's complement loses nothing of a number that the kind holds. -/
theorem IntValue.wrapped_toWord {k : IntKind} {n : Int} (h : k.Holds n) :
    IntValue.wrapped k (k.toWord n) = n := by
  cases k <;>
    simp only [IntKind.Holds, IntKind.lowest, IntKind.highest, IntKind.words,
      IntKind.size, IntKind.signed, wrapped, IntKind.toWord, Int.bmod, if_true,
      Bool.false_eq_true, if_false] at h ⊢ <;>
    omega

end DataBlock
