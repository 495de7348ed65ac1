import DataBlock.Codec
import DataBlock.Fault.Outcome

/-!
# What a read depends on

A read of a field depends on the bytes in the window of the field, and on the length of
the buffer.  Only a counted text whose header declares more characters than the field has
room for could reach beyond.

Main results:

- `FieldType.HeaderWithin`: the header of a counted text declares no more characters than
  there is room for.
- `FieldType.decode_congr`: a read gives the same in buffers that agree in the window.
- `FieldType.decode_bool_congr`: a read of a bit depends on that bit of its byte.
-/

namespace DataBlock

/-! ## Windows -/

/-- Buffers that agree in a window agree in each part of it. -/
theorem Bytes.slice_congr {bs bs' : Bytes} {offset len start len' : Nat}
    (h : bs'.slice offset len = bs.slice offset len) (hpart : start + len' ≤ len) :
    bs'.slice (offset + start) len' = bs.slice (offset + start) len' := by
  rw [← Bytes.slice_slice hpart, h, Bytes.slice_slice hpart]

/-- Buffers that agree at each place of a window agree in the window. -/
theorem Bytes.slice_congr_of_getElem? {bs bs' : Bytes} {offset len : Nat}
    (h : ∀ i < len, bs'[offset + i]? = bs[offset + i]?) :
    bs'.slice offset len = bs.slice offset len := by
  apply List.ext_getElem?
  intro i
  rw [Bytes.getElem?_slice, Bytes.getElem?_slice]
  by_cases hi : i < len
  · rw [if_pos hi, if_pos hi, h i hi]
  · rw [if_neg hi, if_neg hi]

/-- Whether there is a window depends on the length of the buffer alone. -/
theorem window_congr {bs bs' : Bytes} {offset len : Nat} (hlength : bs'.length = bs.length)
    (hslice : bs'.slice offset len = bs.slice offset len) :
    window bs' offset len = window bs offset len := by
  rw [window, window, hlength, hslice]

/-! ## Counted texts -/

/-- The header of a counted text, where it lies within the buffer, declares no more
characters than the field has room for. -/
def FieldType.HeaderWithin (t : FieldType) (bs : Bytes) (offset : Nat) : Prop :=
  ∀ w capacity header, t = .counted w capacity → window bs offset (2 * w.size) = .ok header →
    BigEndian.decode (header.take w.size) ≤ capacity

/-- Buffers that agree in the window of a counted text have the same header there. -/
theorem window_header_congr {w : CharWidth} {capacity offset : Nat} {bs bs' : Bytes}
    (hlength : bs'.length = bs.length)
    (hslice : bs'.slice offset (FieldType.counted w capacity).width
      = bs.slice offset (FieldType.counted w capacity).width) :
    window bs' offset (2 * w.size) = window bs offset (2 * w.size) := by
  have hpart : 0 + 2 * w.size ≤ (FieldType.counted w capacity).width := by
    rw [Nat.zero_add]
    exact header_le_width w capacity
  exact window_congr hlength (Bytes.slice_congr hslice hpart)

/-- A counted text whose header is within the room of its field is read from the window
of the field. -/
theorem readCounted_congr {w : CharWidth} {capacity offset : Nat} {bs bs' : Bytes}
    (hlength : bs'.length = bs.length)
    (hslice : bs'.slice offset (FieldType.counted w capacity).width
      = bs.slice offset (FieldType.counted w capacity).width)
    (hwithin : (FieldType.counted w capacity).HeaderWithin bs offset) :
    readCounted w bs' offset = readCounted w bs offset := by
  unfold readCounted
  rw [window_header_congr hlength hslice]
  cases hwindow : window bs offset (2 * w.size) with
  | error fault => rfl
  | ok header =>
      have hmost := hwithin w capacity header rfl hwindow
      simp only [Outcome.ok_bind]
      by_cases hover : BigEndian.decode (header.take w.size)
          < BigEndian.decode (header.drop w.size)
      · rw [if_pos hover, if_pos hover]
      · rw [if_neg hover, if_neg hover]
        have hroom := chars_le_width w (Nat.le_trans (Nat.not_lt.1 hover) hmost)
        rw [window_congr hlength (Bytes.slice_congr hslice hroom)]

/-! ## Fields -/

namespace FieldType

/-- A read of a field gives the same in buffers that agree in the window of the field. -/
theorem decode_congr {t : FieldType} {bs bs' : Bytes} {offset : Nat} (bit : Option Nat)
    (hlength : bs'.length = bs.length)
    (hslice : bs'.slice offset t.width = bs.slice offset t.width)
    (hwithin : t.HeaderWithin bs offset) :
    t.decode bs' offset bit = t.decode bs offset bit := by
  have hwindow := window_congr hlength hslice
  cases t with
  | counted w capacity => rw [decode, decode, readCounted_congr hlength hslice hwithin]
  | _ => rw [decode, decode, hwindow]

/-- The window of a bit is its byte. -/
theorem window_byte {bs : Bytes} {offset : Nat} {b : UInt8} (h : bs[offset]? = some b) :
    window bs offset bool.width = .ok [b] := by
  rcases List.getElem?_eq_some_iff.1 h with ⟨hlt, rfl⟩
  refine window_eq_ok_iff.2 ⟨hlt, ?_⟩
  rw [Bytes.slice, List.drop_eq_getElem_cons hlt]
  rfl

/-- A read of a bit depends on that bit of its byte. -/
theorem decode_bool_congr {bs bs' : Bytes} {offset : Nat} {bit : Option Nat}
    {old new : UInt8} (hold : bs[offset]? = some old) (hnew : bs'[offset]? = some new)
    (h : ∀ i : Fin 8, bit = some i.val → Bit.get new i = Bit.get old i) :
    bool.decode bs' offset bit = bool.decode bs offset bit := by
  have hwindow := window_byte hold
  have hwindow' := window_byte hnew
  cases bit with
  | none => rfl
  | some n =>
      by_cases hn : n < 8
      · have hindex : Bit.index n = .ok ⟨n, hn⟩ := dif_pos hn
        simp only [decode, requireBit, hindex, hwindow, hwindow', Outcome.ok_bind]
        rw [show Bytes.byte [new] 0 = new from rfl, show Bytes.byte [old] 0 = old from rfl,
          h ⟨n, hn⟩ rfl]
      · have hindex : Bit.index n = .error (.invalid (.bitIndex n)) := dif_neg hn
        simp only [decode, requireBit, hindex, Outcome.ok_bind, Outcome.error_bind]

end FieldType
end DataBlock
