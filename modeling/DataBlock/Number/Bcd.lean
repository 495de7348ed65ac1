/-!
# Binary-coded decimals

A byte that holds two decimal digits, one in each half.

Main results:

- `Bcd.decode?_encode`: a number below one hundred is read back.
- `Bcd.encode_of_decode?`: a byte of two digits is what its number is written as.
-/

namespace DataBlock
namespace Bcd

/-- The upper half of a byte. -/
def high (b : UInt8) : Nat :=
  b.toNat / 16

/-- The lower half of a byte. -/
def low (b : UInt8) : Nat :=
  b.toNat % 16

/-- The number that the two digits of a byte make, if both are digits. -/
def decode? (b : UInt8) : Option Nat :=
  if high b ≤ 9 ∧ low b ≤ 9 then some (high b * 10 + low b) else none

/-- The byte with the last two digits of `n`. -/
def encode (n : Nat) : UInt8 :=
  UInt8.ofNat (n / 10 * 16 + n % 10)

/-- A number below one hundred is read back. -/
theorem decode?_encode {n : Nat} (h : n < 100) : decode? (encode n) = some n := by
  have htoNat : (encode n).toNat = n / 10 * 16 + n % 10 := by
    simp only [encode, UInt8.toNat_ofNat']
    omega
  have hhigh : high (encode n) = n / 10 := by
    simp only [high, htoNat]
    omega
  have hlow : low (encode n) = n % 10 := by
    simp only [low, htoNat]
    omega
  rw [decode?, hhigh, hlow, if_pos (by omega)]
  congr 1
  omega

/-- A byte of two digits is what its number is written as. -/
theorem encode_of_decode? {b : UInt8} {n : Nat} (h : decode? b = some n) :
    encode n = b := by
  have hb := b.toNat_lt
  simp only [decode?, Option.ite_none_right_eq_some, Option.some.injEq] at h
  obtain ⟨⟨hhigh, hlow⟩, rfl⟩ := h
  apply UInt8.toNat_inj.1
  simp only [high, low] at hhigh hlow
  simp only [encode, UInt8.toNat_ofNat', high, low]
  omega

end Bcd
end DataBlock
