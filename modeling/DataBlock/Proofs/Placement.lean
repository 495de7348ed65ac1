import DataBlock.Proofs.LayoutLanguage.Declarable
import DataBlock.Proofs.Reach
import DataBlock.Proofs.StoredFaults
import DataBlock.Proofs.TableAccess
import DataBlock.Table.Edit

/-!
# Where fields may lie is checked beforehand

A layout that was read has a bit for each single bit and a capacity within its limits for
each counted text, and a table that was made of it has room for every field in every row.
So no access to a field of a row blames the place of the field, whatever was done to the
rows before, but for a text whose header tells of more characters than there is room for.

Main results:

- `Fault.BlamesPlace`: the faults that blame the place of a field.
- `Field.WellFormed`: the field has the bit or the capacity that its type needs.
- `FieldType.verdict`: what a type says to a value, wherever the value is to go.
- `FieldType.faults_decode`: why a field within a buffer may be unreadable.
- `Table.access_never_blames_place`: sets and reads in the rows of any table.
-/

namespace DataBlock

/-- The fault blames the place of a field: that there is no such field, that its bit, its
capacity or the offset of its layout is wrong, or that it does not lie within its row. -/
inductive Fault.BlamesPlace : Fault → Prop where
  | unknownField (name : String) : BlamesPlace (.unknownField name)
  | bufferTooSmall (offset needed available : Nat) :
      BlamesPlace (.bufferTooSmall offset needed available)
  | missingBit : BlamesPlace (.invalid .missingBit)
  | bitIndex (index : Nat) : BlamesPlace (.invalid (.bitIndex index))
  | capacity (w : CharWidth) (n : Nat) : BlamesPlace (.invalid (.capacity w n))
  | beforeLayout (name : String) (offset layoutOffset : Nat) :
      BlamesPlace (.invalid (.beforeLayout name offset layoutOffset))

/-! ## Fields -/

/-- A counted text has room for a character, and for no more than its width allows. -/
def FieldType.HasCapacity : FieldType → Prop
  | counted w n => 1 ≤ n ∧ n ≤ w.maxCapacity
  | _ => True

/-- The field has the bit or the capacity that its type needs. -/
structure Field.WellFormed (f : Field) : Prop where
  bit : f.type = .bool → ∃ i : Fin 8, f.bit = some i.val
  capacity : f.type.HasCapacity

/-- A type that a word names has a capacity within its limits. -/
theorem FieldType.Named.hasCapacity {word : String} {length : Option Nat} {t : FieldType}
    (h : Named word length t) : t.HasCapacity := by
  cases h with
  | plain hmem =>
      cases t with
      | counted w n => cases hmem
      | _ => exact trivial
  | string hpos hle => exact ⟨hpos, hle⟩
  | usualString => exact ⟨by decide, by decide⟩
  | wideString hpos hle => exact ⟨hpos, hle⟩
  | usualWideString => exact ⟨by decide, by decide⟩
  | paddedString _ => exact trivial
  | bytes _ => exact trivial

theorem IsType.hasCapacity {token : List Char} {t : FieldType} (h : IsType token t) :
    t.HasCapacity := by
  cases h with
  | word _ hnamed => exact hnamed.hasCapacity
  | sized _ _ hnamed => exact hnamed.hasCapacity

/-- A field that a line can declare has the bit or the capacity that its type needs. -/
theorem Field.Declarable.wellFormed {f : Field} (h : f.Declarable) : f.WellFormed := by
  refine ⟨?_, h.type.hasCapacity⟩
  intro htype
  rcases Option.ne_none_iff_exists'.1 (h.bit.2 htype) with ⟨i, hi⟩
  have hle : i ≤ 7 := h.address.within.2 i hi
  exact ⟨⟨i, by omega⟩, hi⟩

/-! ## What a type says to a value -/

namespace FieldType

/-- What a type says to a value, wherever the value is to go: nothing, or why it cannot be
stored. -/
def verdict (t : FieldType) (v : Value) : Except Fault Unit :=
  (t.patch (some 0) v).map fun _ => ()

/-- A well-formed field takes the values that its type takes. -/
theorem patch_eq_verdict {f : Field} (hf : f.WellFormed) (v : Value) :
    (f.type.patch f.bit v).map (fun _ => ()) = f.type.verdict v := by
  by_cases htype : f.type = bool
  · rcases hf.bit htype with ⟨i, hi⟩
    have hindex : Bit.index i.val = .ok i := dif_pos i.isLt
    rw [verdict, htype, hi, patch, patch, requireBit, requireBit]
    cases truth v with
    | error fault => rfl
    | ok b =>
        simp only [Outcome.ok_bind, hindex]
        rfl
  · rw [verdict, patch_eq_of_ne_bool htype f.bit (some 0)]

end FieldType

/-! ## Values -/

/-- The faults of a computation do not blame the place of a field. -/
abbrev Placed {α : Type} (x : Except Fault α) : Prop :=
  Outcome.Faults (fun fault => ¬ fault.BlamesPlace) x

section

open Outcome

theorem placed_mismatch {α : Type} (t : FieldType) (v : Value) :
    Placed (mismatch t v : Except Fault α) :=
  faults_error (by rintro ⟨⟩)

theorem placed_truth (v : Value) : Placed (truth v) := by
  unfold truth
  repeat' split
  all_goals first | exact faults_ok _ | exact faults_error (by rintro ⟨⟩)

theorem placed_charImage (w : CharWidth) (v : Value) : Placed (w.charImage v) := by
  unfold CharWidth.charImage
  repeat' split
  all_goals first | exact faults_ok _ | exact faults_error (by rintro ⟨⟩)

theorem placed_checkAscii (t : FieldType) (s : String) : Placed (checkAscii t s) := by
  unfold checkAscii
  split
  · exact faults_ok ()
  · exact faults_error (by rintro ⟨⟩)

theorem placed_checkBasic (s : String) : Placed (checkBasic s) := by
  unfold checkBasic
  split
  · exact faults_error (by rintro ⟨⟩)
  · exact faults_ok ()

/-- A counted text with a capacity within its limits is refused for its characters alone. -/
theorem placed_checkCounted {w : CharWidth} {n : Nat} (h : (FieldType.counted w n).HasCapacity)
    (s : String) : Placed (checkCounted w n s) := by
  have hcapacity : checkCapacity w n = .ok () := if_pos h
  cases w with
  | narrow =>
      rw [checkCounted, hcapacity]
      exact faults_bind (placed_checkAscii _ s) fun _ _ => faults_ok ()
  | wide =>
      rw [checkCounted, hcapacity, ok_bind]
      exact placed_checkBasic s

/-- A value is refused by a type whose capacity is within its limits for what it is, never
for where it is to go. -/
theorem FieldType.placed_verdict {t : FieldType} (h : t.HasCapacity) (v : Value) :
    Placed (t.verdict v) := by
  apply faults_map
  cases t with
  | bool =>
      have hindex : Bit.index 0 = .ok 0 := rfl
      rw [patch, requireBit, ok_bind]
      refine faults_bind (placed_truth v) fun b _ => ?_
      rw [hindex, ok_bind]
      exact faults_ok (Patch.bit 0 b)
  | counted w n =>
      apply faults_map
      unfold countedImage
      split
      · exact faults_map (placed_checkCounted h _) _
      · exact placed_mismatch _ _
  | padded n =>
      apply faults_map
      unfold paddedImage
      split
      · exact faults_map (placed_checkAscii _ _) _
      · exact placed_mismatch _ _
  | char w => exact faults_map (placed_charImage w v) _
  | _ =>
      -- The others look at the kind of the value and at its range.
      apply faults_map
      simp only [IntegerType.image, realImage, longRealImage, rawImage, S5Time.image, timeImage,
        dateImage, timeOfDayImage, DateAndTime.image, DateTimeLong.image]
      repeat' split
      all_goals first | exact faults_ok _ | exact faults_error (by rintro ⟨⟩)

/-! ## Stored values -/

/-- What is stored in a field does not speak for its place. -/
theorem Fault.BlamesStored.not_blamesPlace {fault : Fault} (h : fault.BlamesStored) :
    ¬ fault.BlamesPlace := by
  cases h <;> rintro ⟨⟩

/-- A text that does not go beyond the end of the buffer may have something that is no
character in it. -/
theorem blamedOnStored_textAt {w : CharWidth} {bs : Bytes} {offset length : Nat}
    (h : offset + length * w.size ≤ bs.length) : BlamedOnStored (textAt w bs offset length) := by
  rw [textAt, window, if_pos h, ok_bind]
  exact faults_bind (faults_mapM fun _ _ => blamedOnStored_charOf _) fun _ _ => faults_ok _

end

/-! ## Reads -/

/-- A fault may blame the place of a field only for a text whose header tells of more
characters than there is room for: such a text may go beyond the end of the buffer. -/
def Fault.BlamesReach (t : FieldType) (stored : Bytes) (fault : Fault) : Prop :=
  fault.BlamesPlace → fault.kind = .bufferTooSmall ∧ t.Overreaches stored

theorem Fault.BlamesStored.blamesReach {t : FieldType} {stored : Bytes} {fault : Fault}
    (h : fault.BlamesStored) : fault.BlamesReach t stored :=
  fun hblame => absurd hblame h.not_blamesPlace

/-- A counted text within a buffer goes beyond the end of it only if the header makes it. -/
theorem faults_readCounted {w : CharWidth} {n offset : Nat} {bs stored : Bytes}
    (h : window bs offset (FieldType.counted w n).width = .ok stored) :
    Outcome.Faults (Fault.BlamesReach (.counted w n) stored) (readCounted w bs offset) := by
  rw [readCounted_of_window h]
  by_cases hrefuted : w.storedMost stored < w.storedLength stored
  · rw [if_pos hrefuted]
    exact Outcome.faults_error (by rintro ⟨⟩)
  · rw [if_neg hrefuted]
    by_cases hends : offset + 2 * w.size + w.storedLength stored * w.size ≤ bs.length
    · exact (blamedOnStored_textAt hends).mono Fault.BlamesStored.blamesReach
    · rw [textAt_eq_bufferTooSmall (Nat.not_le.1 hends)]
      -- A text with no more characters than the capacity ends with the field.
      have hwithin := (window_eq_ok_iff.1 h).1
      have hroom : n < w.storedLength stored := by
        by_contra hle
        have hchars := chars_le_width w (Nat.not_lt.1 hle)
        omega
      exact Outcome.faults_error fun _ => ⟨rfl, .counted hroom (Nat.not_lt.1 hrefuted)⟩

/-- A field within a buffer, whose type has the bit that it needs, is unreadable for what is
stored there, or because it is a text that goes beyond the end of the buffer. -/
theorem FieldType.faults_decode {f : Field} (hf : f.WellFormed) {offset : Nat}
    {bs stored : Bytes} (h : window bs offset f.type.width = .ok stored) :
    Outcome.Faults (Fault.BlamesReach f.type stored) (f.type.decode bs offset f.bit) := by
  have hstored : ∀ {α : Type} {x : Except Fault α}, BlamedOnStored x →
      Outcome.Faults (Fault.BlamesReach f.type stored) x :=
    fun hx => hx.mono Fault.BlamesStored.blamesReach
  generalize htype : f.type = t at h hstored
  cases t with
  | bool =>
      rcases hf.bit htype with ⟨i, hi⟩
      have hindex : Bit.index i.val = .ok i := dif_pos i.isLt
      rw [decode, h, hi, requireBit]
      simp only [Outcome.ok_bind, hindex]
      exact Outcome.faults_ok _
  | counted w n => exact Outcome.faults_map (faults_readCounted h) _
  | char w =>
      rw [decode, h]
      exact hstored (Outcome.faults_map (blamedOnStored_charOf _) _)
  | s5time =>
      rw [decode, h]
      exact hstored (Outcome.faults_map (blamedOnStored_s5time _ _) _)
  | date =>
      rw [decode, h]
      exact hstored (Outcome.faults_map (blamedOnStored_decodeDate _) _)
  | timeOfDay =>
      rw [decode, h]
      exact hstored (Outcome.faults_map (blamedOnStored_decodeTimeOfDay _) _)
  | dateAndTime =>
      rw [decode, h]
      exact hstored (Outcome.faults_map (blamedOnStored_dateAndTime _ _) _)
  | dateTimeLong =>
      rw [decode, h]
      exact hstored (Outcome.faults_map (blamedOnStored_dateTimeLong _) _)
  | _ =>
      rw [decode, h]
      exact Outcome.faults_ok _

/-! ## Rows -/

namespace Table

variable {t : Table} {i : Nat} {f : Field}

/-- A field of a row is set exactly if its type takes the value, and is refused for the
reason that the type gives. -/
theorem set_row_eq_verdict (hi : i < t.size) (hf : f ∈ t.layout.fields) (hformed : f.WellFormed)
    (v : Value) : ((t.row i).set f.name v).map (fun _ => ()) = f.type.verdict v := by
  have hfield : (t.row i).layout.field f.name = .ok f := Layout.field_eq_ok_iff.2 ⟨hf, rfl⟩
  have hfits : f.offset - t.options.layoutOffset + f.type.width ≤ (t.row i).bytes.length := by
    rw [length_row hi]
    exact place_add_width_le_rowSize hf
  rw [← FieldType.patch_eq_verdict hformed, Row.set, Change.result, Row.run_assign, hfield]
  simp only [place_row hf, Row.run_onBytes, FieldType.run_write_of_fits hfits]
  cases f.type.patch f.bit v <;> rfl

/-- A field of a row is unreadable for what is stored there, or because it is a text that
goes beyond the end of the row. -/
theorem faults_get_row (hi : i < t.size) (hf : f ∈ t.layout.fields) (hformed : f.WellFormed) :
    Outcome.Faults (Fault.BlamesReach f.type
      ((t.row i).bytes.slice (f.offset - t.options.layoutOffset) f.type.width))
      ((t.row i).get f.name) := by
  have hfield : f ∈ (t.row i).layout.fields := hf
  have hwindow : window (t.row i).bytes (f.offset - t.options.layoutOffset) f.type.width
      = .ok ((t.row i).bytes.slice (f.offset - t.options.layoutOffset) f.type.width) := by
    refine window_eq_ok_iff.2 ⟨?_, rfl⟩
    rw [length_row hi]
    exact place_add_width_le_rowSize hf
  rw [Row.get_name hfield, Row.read, place_row hf, Outcome.ok_bind]
  exact FieldType.faults_decode hformed hwindow

/-- The rows of any table that was made of a layout which was read, after any edits, have a
place for every field of the layout.  A set succeeds or fails as the type of the field says
to the value, whatever the row is and has stored, and does not fail for the place of the
field.  Neither does a read, unless the field is a text whose header tells of more characters
than there is room for, so that the text goes beyond the end of the row. -/
theorem access_never_blames_place {text : String} {l : Layout} {bytes : Bytes}
    {o : TableOptions} {t : Table} (hlayout : (Layout.parse text).value = .ok l)
    (htable : (ofBytes l bytes o).value = .ok t) (es : List TableEdit) (way : Way) (i : Nat)
    {r : Row} (hrow : (t.edited es).reach way i = .ok r) (f : Field) (hf : f ∈ l.fields)
    (v : Value) :
    (r.set f.name v).map (fun _ => ()) = f.type.verdict v
    ∧ (∀ fault, r.set f.name v = .error fault → ¬ fault.BlamesPlace)
    ∧ ∀ fault, r.get f.name = .error fault → fault.BlamesPlace →
      fault.kind = .bufferTooSmall
        ∧ f.type.Overreaches (r.bytes.slice (f.offset - r.layoutOffset) f.type.width) := by
  have hformed : f.WellFormed := (Layout.declarable_of_parse hlayout f hf).wellFormed
  rw [← (ofBytes_eq_ok htable).1, ← (shape_edited t es).1] at hf
  rw [reach_eq_rowAt, rowAt_eq_ok_iff] at hrow
  rcases hrow with ⟨hi, rfl⟩
  have hset := set_row_eq_verdict hi hf hformed v
  refine ⟨hset, ?_, faults_get_row hi hf hformed⟩
  intro fault hfault
  rw [hfault] at hset
  exact FieldType.placed_verdict hformed.capacity v fault hset.symm

/-- Two rows with a bit and a text for one character, all zero. -/
def zeroTable : Table where
  layout := ⟨[⟨"flag", 0, some 3, .bool⟩, ⟨"label", 2, none, .counted .narrow 1⟩], by decide⟩
  options := ⟨.dataBlock, 1, none, 0, 2, 0, 0, none⟩
  bytes := List.replicate 10 0
  rowSize := 5
  stride := 5
  fits := TableOptions.fits_of_check (by decide)

/-- A device refuses a request, a row is set, and a header that tells of five characters is
put over that of its text. -/
def headerEdits : List TableEdit :=
  [⟨.index, 0, .receive (.error "off")⟩, ⟨.order, 1, .set "flag" (.bool true)⟩,
    ⟨.index, 1, .overwrite 2 [9, 5]⟩]

/-- The row whose text now goes beyond its end is set as any other, and it is the text that
is unreadable for the place of its field. -/
theorem access_never_blames_place_of_header :
    (Layout.parse "0.3 flag BOOL\n2 label STRING[1]\n").value = .ok zeroTable.layout
    ∧ (ofBytes zeroTable.layout (List.replicate 10 0) zeroTable.options).value = .ok zeroTable
    ∧ (zeroTable.edited headerEdits).reach .order 1
      = .ok ⟨zeroTable.layout, 0, ⟨.dataBlock, 1, 5⟩, [8, 0, 9, 5, 0]⟩
    ∧ (Row.set ⟨zeroTable.layout, 0, ⟨.dataBlock, 1, 5⟩, [8, 0, 9, 5, 0]⟩ "label"
        (.string "xy")).map (fun _ => ()) = .ok ()
    ∧ Row.get ⟨zeroTable.layout, 0, ⟨.dataBlock, 1, 5⟩, [8, 0, 9, 5, 0]⟩ "label"
      = .error (.bufferTooSmall 4 5 5)
    ∧ (FieldType.counted .narrow 1).Overreaches [9, 5, 0] := by
  have hlayout : (Layout.parse "0.3 flag BOOL\n2 label STRING[1]\n").value
      = .ok zeroTable.layout := by decide +kernel
  have htable : (ofBytes zeroTable.layout (List.replicate 10 0) zeroTable.options).value
      = .ok zeroTable := by decide +kernel
  have hrow : (zeroTable.edited headerEdits).reach .order 1
      = .ok ⟨zeroTable.layout, 0, ⟨.dataBlock, 1, 5⟩, [8, 0, 9, 5, 0]⟩ := by decide +kernel
  have hget : Row.get ⟨zeroTable.layout, 0, ⟨.dataBlock, 1, 5⟩, [8, 0, 9, 5, 0]⟩ "label"
      = .error (.bufferTooSmall 4 5 5) := by decide +kernel
  have hverdict : (FieldType.counted .narrow 1).verdict (.string "xy") = .ok () := by
    decide +kernel
  rcases access_never_blames_place hlayout htable headerEdits .order 1 hrow
    ⟨"label", 2, none, .counted .narrow 1⟩ (by decide) (.string "xy") with ⟨hset, _, hread⟩
  exact ⟨hlayout, htable, hrow, hset.trans hverdict, hget,
    (hread _ hget (.bufferTooSmall 4 5 5)).2⟩

end Table
end DataBlock
