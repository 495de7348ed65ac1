/-!
# Hexadecimal digits

Numbers and bytes in lower-case hexadecimal digits.

Main result:

- `Hex.length_byte`: a byte takes exactly two digits.
-/

namespace DataBlock
namespace Hex

/-- The hexadecimal digits of a number, without leading zeros. -/
def digits (n : Nat) : List Char :=
  Nat.toDigits 16 n

/-- The digits of a number, filled with zeros on the left up to a width. -/
def padded (width n : Nat) : String :=
  String.ofList ((digits n).leftpad width '0')

/-- The two digits of a byte. -/
def byte (b : UInt8) : String :=
  padded 2 b.toNat

/-- The digits of bytes, with a space between two bytes. -/
def spaced (bs : List UInt8) : String :=
  " ".intercalate (bs.map byte)

theorem length_byte (b : UInt8) : (byte b).length = 2 := by
  have hle : (digits b.toNat).length ≤ 2 :=
    (Nat.length_toDigits_le_iff (by decide) (by decide)).2 (by have := b.toNat_lt; omega)
  simp only [byte, padded, String.length_ofList, List.length_leftpad]
  omega

end Hex
end DataBlock
