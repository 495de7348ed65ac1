import DataBlock.Codec.Bit
import DataBlock.Codec.Image
import DataBlock.Codec.Window
import DataBlock.Fault.Change

/-!
# Patches

What a write puts into the window of a field: a single bit, or all its bytes.

Main results:

- `Patch.run_write`: a patch looks at its window before it puts anything.
- `Patch.apply_eq_ok_iff`: a patch is applied exactly if its window lies within the
  buffer.
- `Patch.length_apply`: a write never changes how many bytes there are.
-/

namespace DataBlock

/-- What a write puts into the window of a field: one bit, or all its bytes. -/
inductive Patch where
  | bit (i : Fin 8) (v : Bool)
  | image (i : Image)
  deriving DecidableEq

namespace Patch

/-- The patch that consists of the given bytes alone. -/
def ofBytes (bs : Bytes) : Patch :=
  .image (Image.ofBytes bs)

/-- The bytes that a patch reaches. -/
def width : Patch → Nat
  | bit _ _ => 1
  | image i => i.width

@[simp] theorem width_ofBytes (bs : Bytes) : (ofBytes bs).width = bs.length :=
  rfl

/-- The bytes of the window after the patch. -/
def put (p : Patch) (old : Bytes) : Bytes :=
  match p with
  | bit i v => old.map fun b => Bit.set b i v
  | image i => i.bytes

@[simp] theorem put_ofBytes (bs old : Bytes) : (ofBytes bs).put old = bs :=
  Image.bytes_ofBytes bs

/-- A patch keeps the length of its window. -/
theorem length_put (p : Patch) {old : Bytes} (h : old.length = p.width) :
    (p.put old).length = p.width := by
  cases p <;> simp_all [put, width]

/-- Puts the patch into its window at an offset. -/
def write (p : Patch) (offset : Nat) : Change Bytes Unit := do
  let old ← Change.check (window (← get) offset p.width)
  modify fun bs => bs.overwrite offset (p.put old)

/-- The buffer with the patch at an offset. -/
def apply (p : Patch) (bs : Bytes) (offset : Nat) : Except Fault Bytes :=
  (p.write offset).result bs

/-- A patch looks at its window and then puts it whole. -/
theorem run_write (p : Patch) (bs : Bytes) (offset : Nat) :
    (p.write offset).run bs =
      match window bs offset p.width with
      | .ok old => .ok () (bs.overwrite offset (p.put old))
      | .error fault => .error fault bs := by
  simp only [write, EStateM.run_bind, EStateM.run_get, Change.run_check]
  cases window bs offset p.width <;> rfl

/-- A patch is applied exactly if its window lies within the buffer. -/
theorem apply_eq_ok_iff {p : Patch} {bs bs' : Bytes} {offset : Nat} :
    p.apply bs offset = .ok bs' ↔ offset + p.width ≤ bs.length
      ∧ bs' = bs.overwrite offset (p.put (bs.slice offset p.width)) := by
  rw [apply, Change.result_eq_ok_iff, run_write]
  by_cases h : offset + p.width ≤ bs.length <;> simp [window, h, eq_comm]

/-- A write never changes how many bytes there are. -/
theorem length_apply {p : Patch} {bs bs' : Bytes} {offset : Nat}
    (h : p.apply bs offset = .ok bs') : bs'.length = bs.length := by
  rw [(apply_eq_ok_iff.1 h).2, Bytes.length_overwrite]

end Patch
end DataBlock
