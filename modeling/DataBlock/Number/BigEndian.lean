import DataBlock.Bytes
import DataBlock.Number.Count

/-!
# Big-endian numbers

A natural number as a fixed count of bytes, the most significant byte first.

Main results:

- `BigEndian.length_encode`: the image has exactly the count asked for.
- `BigEndian.decode_encode`: a number that fits the count is read back.
- `BigEndian.encode_decode`: bytes are what their number is written as.
-/

namespace DataBlock
namespace BigEndian

/-- The number with the given bytes, the most significant first. -/
def decode (bs : Bytes) : Nat :=
  bs.foldl (fun n b => n * 256 + b.toNat) 0

/-- The last `count` bytes of `n`, the most significant first. -/
def encode : Nat → Nat → Bytes
  | 0, _ => []
  | count + 1, n => encode count (n / 256) ++ [UInt8.ofNat n]

@[simp] theorem decode_nil : decode [] = 0 :=
  rfl

@[simp] theorem decode_concat (bs : Bytes) (b : UInt8) :
    decode (bs ++ [b]) = decode bs * 256 + b.toNat := by
  simp [decode]

@[simp] theorem length_encode (count n : Nat) : (encode count n).length = count := by
  induction count generalizing n with
  | zero => rfl
  | succ count ih => simp [encode, ih]

/-- Reading the image back yields the number modulo the range of the count. -/
theorem decode_encode_mod (count n : Nat) :
    decode (encode count n) = n % 256 ^ count := by
  induction count generalizing n with
  | zero => simp [encode, Nat.mod_one]
  | succ count ih =>
      rw [encode, decode_concat, ih, Nat.pow_succ', Nat.mod_mul]
      simp only [UInt8.toNat_ofNat']
      omega

/-- A number that fits the count is read back. -/
theorem decode_encode {count n : Nat} (h : n < 256 ^ count) :
    decode (encode count n) = n := by
  rw [decode_encode_mod, Nat.mod_eq_of_lt h]

theorem encode_decode_reverse (bs : Bytes) :
    encode bs.length (decode bs.reverse) = bs.reverse := by
  induction bs with
  | nil => rfl
  | cons b bs ih =>
      have hb := b.toNat_lt
      have hhigh : (decode bs.reverse * 256 + b.toNat) / 256 = decode bs.reverse := by omega
      have hlow : UInt8.ofNat (decode bs.reverse * 256 + b.toNat) = b := by
        apply UInt8.toNat_inj.1
        simp only [UInt8.toNat_ofNat']
        omega
      rw [List.length_cons, List.reverse_cons, decode_concat, encode, hhigh, hlow, ih]

/-- Bytes are what their number is written as. -/
theorem encode_decode (bs : Bytes) : encode bs.length (decode bs) = bs := by
  have h := encode_decode_reverse bs.reverse
  rwa [List.reverse_reverse, List.length_reverse] at h

end BigEndian
end DataBlock
