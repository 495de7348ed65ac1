import DataBlock.Proofs.Displacement
import DataBlock.Proofs.Reach
import DataBlock.Table

/-!
# Access through a table

A field of a row of a table is a field of the block, at the sum of where the row begins and
where the field lies in it.  It is set there with the same outcome as through the table, and
read there with the same value or the same kind of fault.  A read could tell the row from
the block only by going beyond the field, to which the end of the row is an end but the
block is not.

Main results:

- `Table.fieldStart`: where a field of a row lies in the block.
- `Table.bytes_setRow_overwrite`: a change within a row is a change of the block.
- `Table.run_assign`: what a set through a table does to a row.
- `Table.access_at_fieldStart`: a field is set and read through a table as in the block.
-/

namespace DataBlock

/-- A write of a field that lies within the buffer fails only for its value. -/
theorem FieldType.run_write_of_fits {t : FieldType} {bs : Bytes} {offset : Nat}
    (hfits : offset + t.width ≤ bs.length) (bit : Option Nat) (v : Value) :
    (t.write offset bit v).run bs =
      match t.patch bit v with
      | .ok p => .ok () (bs.overwrite offset (p.put (bs.slice offset t.width)))
      | .error fault => .error fault bs := by
  rw [run_write]
  cases hpatch : t.patch bit v with
  | error fault => rfl
  | ok p =>
      have hwindow : window bs offset t.width = .ok (bs.slice offset t.width) :=
        window_eq_ok_iff.2 ⟨hfits, rfl⟩
      simp only [Patch.run_write, width_patch hpatch, hwindow]

namespace Table

variable {t : Table} {i : Nat} {f : Field}

/-! ## Where a field lies -/

/-- Where a field of a row lies in the block. -/
def fieldStart (t : Table) (i : Nat) (f : Field) : Nat :=
  t.options.dbOffset + i * t.stride + (f.offset - t.options.layoutOffset)

/-- No field of the layout lies before the row. -/
theorem place_row (hf : f ∈ t.layout.fields) (i : Nat) :
    (t.row i).place f = .ok (f.offset - t.options.layoutOffset) := by
  rw [Row.place_eq_ok_iff]
  exact Nat.add_sub_of_le (t.fits.layoutOffset_le f hf)

/-- No field of the layout goes beyond the row. -/
theorem place_add_width_le_rowSize (hf : f ∈ t.layout.fields) :
    f.offset - t.options.layoutOffset + f.type.width ≤ t.rowSize :=
  Nat.le_trans (Layout.place_add_width_le_extent hf (t.fits.layoutOffset_le f hf))
    t.fits.extent_le

/-- A field of a row is within the block. -/
theorem fieldStart_add_width_le (hi : i < t.size) (hf : f ∈ t.layout.fields) :
    t.fieldStart i f + f.type.width ≤ t.bytes.length := by
  have hrow := t.rowEnd_le hi
  have hfield := place_add_width_le_rowSize hf
  simp only [fieldStart, rowStart] at hrow ⊢
  omega

/-- The bytes of a field in its row are those in the block. -/
theorem slice_row (hf : f ∈ t.layout.fields) (i : Nat) :
    (t.row i).bytes.slice (f.offset - t.options.layoutOffset) f.type.width
      = t.bytes.slice (t.fieldStart i f) f.type.width :=
  Bytes.slice_slice (place_add_width_le_rowSize hf)

/-! ## Sets -/

/-- The bytes of a row, put back with some of them replaced, replace those of the block. -/
theorem bytes_setRow_overwrite (hi : i < t.size) {offset : Nat} {new : Bytes}
    (hnew : offset + new.length ≤ t.rowSize) :
    (t.setRow i ((t.row i).bytes.overwrite offset new)).bytes
      = t.bytes.overwrite (t.rowStart i + offset) new := by
  have hlength : ((t.row i).bytes.overwrite offset new).length = t.rowSize := by
    rw [Bytes.length_overwrite, length_row hi]
  rw [bytes_setRow t i hlength]
  exact Bytes.overwrite_overwrite_slice (t.rowEnd_le hi) hnew

/-- A row that is put back as it was changes nothing. -/
theorem bytes_setRow_row (hi : i < t.size) : (t.setRow i (t.row i).bytes).bytes = t.bytes := by
  rw [bytes_setRow t i (length_row hi)]
  exact Bytes.overwrite_slice (t.rowEnd_le hi)

/-- A set through a table fails for the value alone, and otherwise puts its patch over the
bytes of the field in the row. -/
theorem run_assign (hi : i < t.size) (hf : f ∈ t.layout.fields) (v : Value) :
    (assign i f.name v).run t =
      match f.type.patch f.bit v with
      | .ok p => .ok () (t.setRow i ((t.row i).bytes.overwrite
          (f.offset - t.options.layoutOffset)
          (p.put (t.bytes.slice (t.fieldStart i f) f.type.width))))
      | .error fault => .error fault (t.setRow i (t.row i).bytes) := by
  have hrow : t.rowAt i = .ok (t.row i) := rowAt_eq_ok_iff.2 ⟨hi, rfl⟩
  have hfield : (t.row i).layout.field f.name = .ok f := Layout.field_eq_ok_iff.2 ⟨hf, rfl⟩
  have hfits : f.offset - t.options.layoutOffset + f.type.width ≤ (t.row i).bytes.length := by
    rw [length_row hi]
    exact place_add_width_le_rowSize hf
  rw [assign, run_onRow, hrow]
  simp only [Row.run_assign, hfield, place_row hf, Row.run_onBytes,
    FieldType.run_write_of_fits hfits, slice_row hf]
  cases f.type.patch f.bit v <;> rfl

/-- A set through a table comes to the same end as the write of the field in the block, and
leaves the bytes that the write leaves. -/
theorem exists_run_assign (hi : i < t.size) (hf : f ∈ t.layout.fields) (v : Value) :
    ∃ after : Table, after.bytes = (f.type.write (t.fieldStart i f) f.bit v).left t.bytes
      ∧ (assign i f.name v).run t =
        match (f.type.write (t.fieldStart i f) f.bit v).run t.bytes with
        | .ok u _ => .ok u after
        | .error fault _ => .error fault after := by
  have hwrite := FieldType.run_write_of_fits (fieldStart_add_width_le hi hf) f.bit v
  rw [run_assign hi hf, Change.left, hwrite]
  cases hpatch : f.type.patch f.bit v with
  | error fault => exact ⟨_, bytes_setRow_row hi, rfl⟩
  | ok p =>
      have hwidth := FieldType.width_patch hpatch
      have hold := Bytes.length_slice (fieldStart_add_width_le hi hf)
      refine ⟨_, bytes_setRow_overwrite hi ?_, rfl⟩
      rw [p.length_put (hold.trans hwidth.symm), hwidth]
      exact place_add_width_le_rowSize hf

/-! ## Reads -/

/-- A row that is within a table is read as the bytes of the block from there on. -/
theorem decode_fieldStart (hi : i < t.size) (hf : f ∈ t.layout.fields)
    (hreach : ¬ f.type.Overreaches (t.bytes.slice (t.fieldStart i f) f.type.width)) :
    f.type.decode t.bytes (t.fieldStart i f) f.bit
      = ((t.row i).get f.name).mapError (Fault.moved (t.rowStart i)) := by
  have hstart : t.rowStart i ≤ t.bytes.length :=
    Nat.le_trans (Nat.le_add_right _ _) (t.rowEnd_le hi)
  have hfront : (t.bytes.take (t.rowStart i)).length = t.rowStart i := by
    rw [List.length_take, Nat.min_eq_left hstart]
  have hmoved := f.type.decode_append_left (t.bytes.take (t.rowStart i))
    (t.bytes.drop (t.rowStart i)) (f.offset - t.options.layoutOffset) f.bit
  rw [List.take_append_drop, hfront] at hmoved
  -- What follows the row in the block plays no part.
  have hrow : window (t.row i).bytes (f.offset - t.options.layoutOffset) f.type.width
      = .ok (t.bytes.slice (t.fieldStart i f) f.type.width) := by
    refine window_eq_ok_iff.2 ⟨?_, slice_row hf i⟩
    rw [length_row hi]
    exact place_add_width_le_rowSize hf
  have hrest : window (t.bytes.drop (t.rowStart i)) (f.offset - t.options.layoutOffset)
      f.type.width = .ok (t.bytes.slice (t.fieldStart i f) f.type.width) := by
    have hend := fieldStart_add_width_le hi hf
    refine window_eq_ok_iff.2 ⟨?_, ?_⟩
    · rw [List.length_drop]
      simp only [fieldStart, rowStart] at hend ⊢
      omega
    · rw [Bytes.slice, List.drop_drop, Bytes.slice]
      rfl
  have hfield : f ∈ (t.row i).layout.fields := hf
  rw [Row.get_name hfield, Row.read, place_row hf, Outcome.ok_bind,
    ← FieldType.decode_eq_of_window f.bit hrow hrest hreach]
  exact hmoved

/-! ## Access -/

/-- A field of a row is set through a table as it is set in the block, where the row begins
and the field lies in it: with the same outcome, and the same bytes are left, also at a
fault.  It is read through the table with the same value or the same kind of fault as in
the block, unless it is a text whose header tells of more characters than there is room
for, and allows so many. -/
theorem access_at_fieldStart (t : Table) (i : Nat) (hi : i < t.size) (f : Field)
    (hf : f ∈ t.layout.fields) (v : Value) :
    (t.set i f.name v).map Table.bytes
        = f.type.encode t.bytes (t.fieldStart i f) f.bit v
    ∧ ((assign i f.name v).left t).bytes
        = (f.type.write (t.fieldStart i f) f.bit v).left t.bytes
    ∧ (¬ f.type.Overreaches (t.bytes.slice (t.fieldStart i f) f.type.width) →
        ((t.rowAt i).bind fun r => r.get f.name).mapError Fault.kind
          = (f.type.decode t.bytes (t.fieldStart i f) f.bit).mapError Fault.kind) := by
  rcases exists_run_assign hi hf v with ⟨after, hbytes, hrun⟩
  refine ⟨?_, ?_, ?_⟩
  · rw [set, FieldType.encode, Change.result, Change.result, hrun]
    rw [Change.left] at hbytes
    cases hwrite : (f.type.write (t.fieldStart i f) f.bit v).run t.bytes with
    | ok u bytes =>
        rw [hwrite] at hbytes
        exact congrArg Except.ok hbytes
    | error fault bytes => rfl
  · rw [← hbytes, Change.left, hrun]
    cases (f.type.write (t.fieldStart i f) f.bit v).run t.bytes <;> rfl
  · intro hreach
    have hrow : t.rowAt i = .ok (t.row i) := rowAt_eq_ok_iff.2 ⟨hi, rfl⟩
    have hkind : Fault.kind ∘ Fault.moved (t.rowStart i) = Fault.kind :=
      funext (Fault.kind_moved (t.rowStart i))
    rw [decode_fieldStart hi hf hreach, hrow, Outcome.bind_eq, Outcome.ok_bind,
      Outcome.mapError_mapError, hkind]

/-- Two rows of five bytes each, one byte apart, behind a first byte.  The layout begins at
address 10, with a text for one character and a span behind it. -/
def pauseTable : Table where
  layout := ⟨[⟨"label", 10, none, .counted .narrow 1⟩, ⟨"pause", 13, none, .s5time⟩],
    by decide⟩
  options := ⟨.dataBlock, 1, some 5, 1, 2, 10, 1, none⟩
  bytes := [0, 1, 1, 97, 0, 1, 0, 9, 1, 98, 0, 10, 0]
  rowSize := 5
  stride := 6
  fits := TableOptions.fits_of_check (by decide)

/-- A text is cut in the second row as in the block, and is read there although its header
allows nine characters. -/
theorem access_in_second_row :
    1 < pauseTable.size ∧ ⟨"label", 10, none, .counted .narrow 1⟩ ∈ pauseTable.layout.fields
    ∧ pauseTable.fieldStart 1 ⟨"label", 10, none, .counted .narrow 1⟩ = 7
    ∧ ¬ (FieldType.counted .narrow 1).Overreaches (pauseTable.bytes.slice 7 3)
    ∧ (pauseTable.set 1 "label" (.string "xy")).map Table.bytes
      = (FieldType.counted .narrow 1).encode pauseTable.bytes 7 none (.string "xy")
    ∧ ((pauseTable.rowAt 1).bind fun r => r.get "label").mapError Fault.kind
      = ((FieldType.counted .narrow 1).decode pauseTable.bytes 7 none).mapError Fault.kind := by
  have hreach : ¬ (FieldType.counted .narrow 1).Overreaches (pauseTable.bytes.slice 7 3) := by
    intro h
    cases h with
    | counted hroom _ => exact absurd hroom (by decide)
  have haccess := access_at_fieldStart pauseTable 1 (by decide)
    ⟨"label", 10, none, .counted .narrow 1⟩ List.mem_cons_self (.string "xy")
  exact ⟨by decide, List.mem_cons_self, rfl, hreach, haccess.1, haccess.2.2 hreach⟩

end Table
end DataBlock
