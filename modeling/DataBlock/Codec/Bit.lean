import DataBlock.Fault

/-!
# Bits of a byte

Reading and writing one of the eight bits of a byte.

Main result:

- `Bit.get_set`: only the bit that is written changes.
-/

namespace DataBlock
namespace Bit

/-- The index of a bit, from zero for the least significant to seven. -/
def index (i : Nat) : Except Fault (Fin 8) :=
  if h : i < 8 then .ok ⟨i, h⟩ else .error (.invalid (.bitIndex i))

/-- The bit of a byte. -/
def get (b : UInt8) (i : Fin 8) : Bool :=
  b.toBitVec.getLsbD i

/-- The byte with one bit set or cleared and the others kept. -/
def set (b : UInt8) (i : Fin 8) (v : Bool) : UInt8 :=
  let mask := (1 : UInt8) <<< UInt8.ofNat i
  if v then b ||| mask else b &&& ~~~mask

theorem getLsbD_mask (i j : Fin 8) :
    ((1 : UInt8) <<< UInt8.ofNat i).toBitVec.getLsbD j = decide (j = i) := by
  revert i j
  decide

/-- Only the bit that is written changes. -/
theorem get_set (b : UInt8) (i j : Fin 8) (v : Bool) :
    get (set b i v) j = if j = i then v else get b j := by
  cases v with
  | true =>
      simp only [set, get, if_true, UInt8.toBitVec_or, BitVec.getLsbD_or, getLsbD_mask]
      by_cases h : j = i <;> simp [h]
  | false =>
      simp only [set, get, Bool.false_eq_true, if_false, UInt8.toBitVec_and,
        UInt8.toBitVec_not, BitVec.getLsbD_and, BitVec.getLsbD_not, getLsbD_mask]
      by_cases h : j = i <;> simp [h]

end Bit

end DataBlock
