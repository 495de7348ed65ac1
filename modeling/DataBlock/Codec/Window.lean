import DataBlock.Fault

/-!
# Windows

The bytes of a field within a buffer.

Main results:

- `window_eq_ok_iff`: a window is given exactly if it lies within the buffer.
- `length_of_window`: a window has the length asked for.
- `window_of_window`: a part of a window is a window of its own.
-/

namespace DataBlock

/-- The `len` bytes of a buffer from `offset` on. -/
def window (bs : Bytes) (offset len : Nat) : Except Fault Bytes :=
  if offset + len ≤ bs.length then .ok (bs.slice offset len)
  else .error (.bufferTooSmall offset len bs.length)

/-- A window is given exactly if it lies within the buffer. -/
theorem window_eq_ok_iff {bs w : Bytes} {offset len : Nat} :
    window bs offset len = .ok w ↔ offset + len ≤ bs.length ∧ bs.slice offset len = w := by
  by_cases h : offset + len ≤ bs.length <;> simp [window, h]

/-- A window has the length asked for. -/
theorem length_of_window {bs w : Bytes} {offset len : Nat}
    (h : window bs offset len = .ok w) : w.length = len := by
  obtain ⟨hfits, rfl⟩ := window_eq_ok_iff.1 h
  exact Bytes.length_slice hfits

/-- A part of a window is a window of its own. -/
theorem window_of_window {bs w : Bytes} {offset len start len' : Nat}
    (h : window bs offset len = .ok w) (hpart : start + len' ≤ len) :
    window bs (offset + start) len' = .ok (w.slice start len') := by
  obtain ⟨hfits, rfl⟩ := window_eq_ok_iff.1 h
  exact window_eq_ok_iff.2 ⟨by omega, (Bytes.slice_slice hpart).symm⟩

end DataBlock
