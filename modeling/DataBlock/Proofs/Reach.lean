import DataBlock.Proofs.RowStore

/-!
# How far a read reaches

What a field is read as is decided by the bytes of the field, whatever lies around them.
The one exception is a counted text: it is read as far as the header says that is stored
with it, and such a header may tell of more characters than the field has room for.

Main results:

- `FieldType.Overreaches`: the header of a text makes a read go beyond the field.
- `FieldType.decode_eq_of_window`: fields with the same bytes are read as the same.
- `FieldType.exists_decode_ne_of_overreaches`: bytes that make a read go beyond the field
  do not decide what is read.
- `read_decided_by_own_bytes`: for fields in buffers and in rows, when the own bytes of a
  field decide what it is read as.
-/

namespace DataBlock

/-! ## Headers of stored texts -/

namespace CharWidth

/-- The most characters that the header of a stored text allows. -/
def storedMost (w : CharWidth) (stored : Bytes) : Nat :=
  BigEndian.decode (stored.take w.size)

/-- The number of characters that the header of a stored text tells of. -/
def storedLength (w : CharWidth) (stored : Bytes) : Nat :=
  BigEndian.decode (stored.slice w.size w.size)

end CharWidth

/-- The bytes of a counted text make a read go beyond the field: the header tells of more
characters than the field has room for, and allows so many. -/
inductive FieldType.Overreaches : FieldType → Bytes → Prop where
  | counted {w : CharWidth} {capacity : Nat} {stored : Bytes}
      (hroom : capacity < w.storedLength stored)
      (hmost : w.storedLength stored ≤ w.storedMost stored) :
      Overreaches (.counted w capacity) stored

/-- The text of so many characters at an offset. -/
def textAt (w : CharWidth) (bs : Bytes) (offset length : Nat) : Except Fault String := do
  let units ← window bs offset (length * w.size)
  let chars ← (Bytes.pieces w.size length units).mapM CharWidth.decodeChar
  return String.ofList chars

/-- A counted text is read from behind its header, unless the header refutes itself. -/
theorem readCounted_of_window {w : CharWidth} {capacity offset : Nat} {bs stored : Bytes}
    (h : window bs offset (FieldType.counted w capacity).width = .ok stored) :
    readCounted w bs offset =
      if w.storedMost stored < w.storedLength stored then
        .error (.invalid (.overlong w offset (w.storedLength stored) (w.storedMost stored)))
      else textAt w bs (offset + 2 * w.size) (w.storedLength stored) := by
  have hpart : 0 + 2 * w.size ≤ (FieldType.counted w capacity).width := by
    rw [Nat.zero_add]
    exact header_le_width w capacity
  have hheader : window bs offset (2 * w.size) = .ok (stored.take (2 * w.size)) :=
    window_of_window h hpart
  have hmost : BigEndian.decode ((stored.take (2 * w.size)).take w.size)
      = w.storedMost stored := by
    rw [List.take_take, Nat.min_eq_left (by omega), CharWidth.storedMost]
  have hlength : BigEndian.decode ((stored.take (2 * w.size)).drop w.size)
      = w.storedLength stored := by
    have hrest : 2 * w.size - w.size = w.size := by omega
    rw [List.drop_take, hrest, CharWidth.storedLength, Bytes.slice]
  simp only [readCounted, hheader, Outcome.ok_bind, hmost, hlength]
  rfl

/-- A text within a window is decided by the bytes of the window. -/
theorem textAt_eq_of_window {w : CharWidth} {bs bs' stored : Bytes}
    {offset start width length : Nat} (h : window bs offset width = .ok stored)
    (h' : window bs' offset width = .ok stored) (hpart : start + length * w.size ≤ width) :
    textAt w bs' (offset + start) length = textAt w bs (offset + start) length := by
  rw [textAt, textAt, window_of_window h hpart, window_of_window h' hpart]

/-- A text that goes beyond the end of the buffer is refused for that. -/
theorem textAt_eq_bufferTooSmall {w : CharWidth} {bs : Bytes} {offset length : Nat}
    (h : bs.length < offset + length * w.size) :
    textAt w bs offset length
      = .error (.bufferTooSmall offset (length * w.size) bs.length) := by
  rw [textAt, window, if_neg (Nat.not_le.2 h), Outcome.error_bind]

/-- A text that does not go beyond the end of the buffer is not refused for that. -/
theorem textAt_ne_bufferTooSmall {w : CharWidth} {bs : Bytes} {offset length : Nat}
    (h : offset + length * w.size ≤ bs.length) (start needed available : Nat) :
    textAt w bs offset length ≠ .error (.bufferTooSmall start needed available) := by
  intro herror
  have hwindow : window bs offset (length * w.size)
      = .ok (bs.slice offset (length * w.size)) := window_eq_ok_iff.2 ⟨h, rfl⟩
  rw [textAt, hwindow, Outcome.ok_bind] at herror
  cases hchars : (Bytes.pieces w.size length (bs.slice offset (length * w.size))).mapM
      CharWidth.decodeChar with
  | ok chars =>
      rw [hchars, Outcome.ok_bind] at herror
      cases herror
  | error fault =>
      rw [hchars, Outcome.error_bind] at herror
      cases herror
      rcases Outcome.exists_of_mapM_eq_error hchars with ⟨unit, _, hunit⟩
      unfold CharWidth.decodeChar CharWidth.charOf at hunit
      split at hunit
      · cases hunit
      · cases hunit

/-- More characters than there is room for go beyond the field. -/
theorem width_lt_of_capacity_lt (w : CharWidth) {capacity length : Nat} (h : capacity < length) :
    (FieldType.counted w capacity).width < 2 * w.size + length * w.size := by
  have hsize : 0 < w.size := by cases w <;> decide
  have hchars : capacity * w.size < length * w.size := Nat.mul_lt_mul_of_pos_right h hsize
  rw [FieldType.width, Nat.mul_comm w.size, Nat.add_mul]
  omega

/-! ## Fields in buffers -/

namespace FieldType

/-- Fields with the same bytes, at the same offset of any two buffers, are read as the same
if the bytes keep the read within the field. -/
theorem decode_eq_of_window {t : FieldType} {bs bs' stored : Bytes} {offset : Nat}
    (bit : Option Nat) (h : window bs offset t.width = .ok stored)
    (h' : window bs' offset t.width = .ok stored) (hreach : ¬ t.Overreaches stored) :
    t.decode bs' offset bit = t.decode bs offset bit := by
  cases t with
  | counted w capacity =>
      rw [decode, decode, readCounted_of_window h, readCounted_of_window h']
      by_cases hover : w.storedMost stored < w.storedLength stored
      · rw [if_pos hover, if_pos hover]
      · have hroom : w.storedLength stored ≤ capacity := by
          by_contra hlong
          exact hreach (.counted (Nat.not_le.1 hlong) (Nat.not_lt.1 hover))
        rw [if_neg hover, if_neg hover, textAt_eq_of_window h h' (chars_le_width w hroom)]
  | _ => rw [decode, decode, h, h']

/-- The bytes of a field are its window behind so many zeros, whatever follows. -/
theorem window_behind_zeros {t : FieldType} {stored : Bytes} (hlength : stored.length = t.width)
    (offset : Nat) (rest : Bytes) :
    window (List.replicate offset 0 ++ (stored ++ rest)) offset t.width = .ok stored := by
  refine window_eq_ok_iff.2 ⟨?_, ?_⟩
  · simp only [List.length_append, List.length_replicate]
    omega
  · rw [Bytes.slice, List.drop_left' (List.length_replicate), ← hlength, List.take_left]

/-- Bytes that make a read go beyond the field do not decide what is read: it fails where
the buffer ends with the field, and not for that reason where the buffer goes on. -/
theorem exists_decode_ne_of_overreaches {t : FieldType} {stored : Bytes}
    (hlength : stored.length = t.width) (hreach : t.Overreaches stored) (offset : Nat)
    (bit : Option Nat) :
    ∃ bs bs', window bs offset t.width = .ok stored ∧ window bs' offset t.width = .ok stored
      ∧ t.decode bs' offset bit ≠ t.decode bs offset bit := by
  cases hreach with
  | @counted w capacity _ hroom hmost =>
      have hbeyond := width_lt_of_capacity_lt w hroom
      generalize hcount : w.storedLength stored = length at hmost hbeyond
      have hshort := window_behind_zeros hlength offset []
      have hlong := window_behind_zeros hlength offset (List.replicate (length * w.size) 0)
      refine ⟨_, _, hshort, hlong, ?_⟩
      have hend : (List.replicate offset 0 ++ (stored ++ [])).length
          < offset + 2 * w.size + length * w.size := by
        simp only [List.length_append, List.length_replicate, List.length_nil]
        omega
      have hfits : offset + 2 * w.size + length * w.size
          ≤ (List.replicate offset 0
            ++ (stored ++ List.replicate (length * w.size) 0)).length := by
        have hheader := header_le_width w capacity
        simp only [List.length_append, List.length_replicate]
        omega
      rw [decode, decode, readCounted_of_window hshort, readCounted_of_window hlong, hcount,
        if_neg (Nat.not_lt.2 hmost), if_neg (Nat.not_lt.2 hmost), textAt_eq_bufferTooSmall hend]
      intro heq
      cases htext : textAt w _ _ _ with
      | ok text =>
          rw [htext] at heq
          cases heq
      | error fault =>
          rw [htext] at heq
          cases heq
          exact textAt_ne_bufferTooSmall hfits _ _ _ htext

end FieldType

/-! ## Fields in rows -/

/-- A row as long as its layout has room for a field at its place. -/
theorem Row.place_add_width_le {r : Row} {f : Field} (hf : f ∈ r.layout.fields)
    {size offset : Nat} (hextent : r.layout.extent r.layoutOffset ≤ size)
    (hplace : r.place f = .ok offset) : offset + f.type.width ≤ size := by
  rw [place_eq_ok_iff] at hplace
  have hwithin := Layout.place_add_width_le_extent hf (by omega : r.layoutOffset ≤ f.offset)
  omega

/-- A change of the bytes around a field leaves what is read from it, if the bytes of the
field keep the read within it. -/
theorem Row.get_eq_of_covers {r : Row} {f : Field} (hf : f ∈ r.layout.fields) {bytes : Bytes}
    (hextent : r.layout.extent r.layoutOffset ≤ r.bytes.length)
    (hextent' : r.layout.extent r.layoutOffset ≤ bytes.length)
    (hagree : ∀ i, f.Covers (r.layoutOffset + i) → bytes[i]? = r.bytes[i]?)
    (hreach : ¬ f.type.Overreaches
      (r.bytes.slice (f.offset - r.layoutOffset) f.type.width)) :
    Row.get { r with bytes := bytes } f.name = r.get f.name := by
  have hf' : f ∈ (Row.layout { r with bytes := bytes }).fields := hf
  have hmoved : Row.place { r with bytes := bytes } f = r.place f := rfl
  rw [get_name hf, get_name hf', read, read, hmoved]
  cases hplace : r.place f with
  | error fault => rfl
  | ok offset =>
      have hfits := place_add_width_le hf hextent hplace
      have hfits' := place_add_width_le hf hextent' hplace
      rw [place_eq_ok_iff] at hplace
      have hoffset : f.offset - r.layoutOffset = offset := by omega
      have hslice : bytes.slice offset f.type.width = r.bytes.slice offset f.type.width := by
        apply Bytes.slice_congr_of_getElem?
        intro i hi
        apply hagree
        unfold Field.Covers
        omega
      rw [hoffset] at hreach
      exact FieldType.decode_eq_of_window f.bit (window_eq_ok_iff.2 ⟨hfits, rfl⟩)
        (window_eq_ok_iff.2 ⟨hfits', hslice⟩) hreach

/-! ## What decides a read -/

/-- The bytes of a field decide what it is read as, in any two buffers that hold them at
the same offset, exactly if they do not make the read go beyond the field.  So a change of
other bytes of a row, which stays as long as its layout, never changes what is read from
such a field. -/
theorem read_decided_by_own_bytes :
    (∀ (t : FieldType) (offset : Nat) (bit : Option Nat) (stored : Bytes),
      stored.length = t.width →
        ((∀ bs bs', window bs offset t.width = .ok stored →
          window bs' offset t.width = .ok stored →
            t.decode bs' offset bit = t.decode bs offset bit) ↔ ¬ t.Overreaches stored))
    ∧ ∀ (r : Row) (f : Field) (bytes : Bytes), f ∈ r.layout.fields →
      r.layout.extent r.layoutOffset ≤ r.bytes.length →
      r.layout.extent r.layoutOffset ≤ bytes.length →
      (∀ i, f.Covers (r.layoutOffset + i) → bytes[i]? = r.bytes[i]?) →
      ¬ f.type.Overreaches (r.bytes.slice (f.offset - r.layoutOffset) f.type.width) →
        Row.get { r with bytes := bytes } f.name = r.get f.name := by
  constructor
  · intro t offset bit stored hlength
    constructor
    · intro hsame hreach
      rcases FieldType.exists_decode_ne_of_overreaches hlength hreach offset bit
        with ⟨bs, bs', h, h', hne⟩
      exact hne (hsame bs bs' h h')
    · intro hreach bs bs' h h'
      exact FieldType.decode_eq_of_window bit h h' hreach
  · intro r f bytes hf hextent hextent' hagree hreach
    exact Row.get_eq_of_covers hf hextent hextent' hagree hreach

/-- A row with a text for two characters and a byte behind it. -/
def labelRow (bytes : Bytes) : Row where
  layout := ⟨[⟨"label", 4, none, .counted .narrow 2⟩, ⟨"count", 8, none, .integer .byte⟩],
    by decide⟩
  layoutOffset := 4
  address := .origin
  bytes := bytes

/-- A header that allows nine characters, though there is room for two, and tells of two
keeps the read within the field; the byte behind it may change, and more bytes follow. -/
theorem read_decided_by_own_bytes_of_label :
    ¬ (FieldType.counted .narrow 2).Overreaches [9, 2, 97, 98]
    ∧ (∀ bs bs', window bs 3 4 = .ok [9, 2, 97, 98] → window bs' 3 4 = .ok [9, 2, 97, 98] →
      (FieldType.counted .narrow 2).decode bs' 3 none
        = (FieldType.counted .narrow 2).decode bs 3 none)
    ∧ (labelRow [9, 2, 97, 98, 1]).layout.extent 4 ≤ 5
    ∧ (labelRow [9, 2, 97, 98, 255, 7]).get "label"
      = (labelRow [9, 2, 97, 98, 1]).get "label" := by
  have hreach : ¬ (FieldType.counted .narrow 2).Overreaches [9, 2, 97, 98] := by
    intro h
    cases h with
    | counted hroom _ => exact absurd hroom (by decide)
  have hextent : (labelRow [9, 2, 97, 98, 1]).layout.extent 4 ≤ 5 := by decide
  refine ⟨hreach, ?_, hextent, ?_⟩
  · exact (read_decided_by_own_bytes.1 (.counted .narrow 2) 3 none [9, 2, 97, 98] rfl).2 hreach
  · apply read_decided_by_own_bytes.2 (labelRow [9, 2, 97, 98, 1])
      ⟨"label", 4, none, .counted .narrow 2⟩ [9, 2, 97, 98, 255, 7] List.mem_cons_self hextent
      (Nat.le_succ_of_le hextent) ?_ hreach
    intro i hi
    have hlt : i < 4 := by
      simp only [Field.Covers, labelRow, FieldType.width, CharWidth.size] at hi
      omega
    have hall : ∀ j < 4, ([9, 2, 97, 98, 255, 7] : Bytes)[j]?
        = ([9, 2, 97, 98, 1] : Bytes)[j]? := by decide
    exact hall i hlt

/-- A header that tells of three characters, where there is room for two, makes the read
take in the byte behind the field: fields with the same bytes are read as different texts,
and so is the text of a row when only the byte behind it is changed. -/
theorem read_takes_in_byte_behind :
    FieldType.ofWord "STRING" (some 2) = .ok (.counted .narrow 2)
    ∧ window [5, 3, 97, 98, 99] 0 (FieldType.counted .narrow 2).width = .ok [5, 3, 97, 98]
    ∧ window [5, 3, 97, 98, 100] 0 (FieldType.counted .narrow 2).width = .ok [5, 3, 97, 98]
    ∧ (FieldType.counted .narrow 2).decode [5, 3, 97, 98, 99] 0 none = .ok (.string "abc")
    ∧ (FieldType.counted .narrow 2).decode [5, 3, 97, 98, 100] 0 none = .ok (.string "abd")
    ∧ (labelRow [5, 3, 97, 98, 99]).layout.extent 4 ≤ 5
    ∧ (labelRow [5, 3, 97, 98, 99]).get "label" = .ok (.string "abc")
    ∧ (labelRow [5, 3, 97, 98, 100]).get "label" = .ok (.string "abd") := by
  decide +kernel

end DataBlock
