/-!
# Counts

Addresses, lengths and numbers of rows are counts, which stay below a bound.  A sum that reaches
the bound is no count, and a program that comes upon it stops there.

Powers of naturals are those of the core library wherever they are written, also where a
general power of monoids is at hand.

Main results:

- `Count.add?_eq_some_iff`, `Count.add?_eq_none_iff`: when a sum is a count.
-/

namespace DataBlock

/-- The power of naturals that `^` stands for. -/
instance (priority := high) natPow : Pow Nat Nat :=
  instPowNat

/-- Addresses and counts stay below this bound. -/
def countLimit : Nat :=
  2 ^ (64 : Nat)

namespace Count

variable {m n sum : Nat}

/-- The sum of two counts, if it is a count.  The program stops at a sum that is none; nothing is
said here of one that is built to go on with the remainder. -/
def add? (m n : Nat) : Option Nat :=
  if m + n < countLimit then some (m + n) else none

theorem add?_eq_some_iff : add? m n = some sum ↔ m + n < countLimit ∧ m + n = sum := by
  by_cases h : m + n < countLimit <;> simp [add?, h]

theorem add?_eq_none_iff : add? m n = none ↔ countLimit ≤ m + n := by
  simp [add?]

end Count
end DataBlock
