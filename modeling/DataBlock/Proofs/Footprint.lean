import DataBlock.Proofs.RoundTrip

/-!
# The footprint of a write

A write of a field reaches the window of the field and no other byte.  If it fails, it
has changed nothing; if it succeeds, the window holds the written bit among the old ones,
or bytes that the type and the value determine.

Main results:

- `FieldType.run_write_fault`: a write that fails leaves the buffer as it was.
- `FieldType.getElem?_encode_of_outside`: a byte outside the window stays.
- `FieldType.Footprint`: what a write that succeeds may do to a buffer.
- `FieldType.write_footprint`: every write keeps to its footprint.
-/

namespace DataBlock

/-! ## Faults -/

/-- A patch that cannot be put leaves the buffer as it was. -/
theorem Patch.run_write_fault {p : Patch} {offset : Nat} {bs after : Bytes} {fault : Fault}
    (h : (p.write offset).run bs = .error fault after) : after = bs := by
  rw [Patch.run_write] at h
  cases hwindow : window bs offset p.width with
  | ok old =>
      rw [hwindow] at h
      cases h
  | error e =>
      rw [hwindow] at h
      cases h
      rfl

namespace FieldType

/-- A write that fails leaves the buffer as it was. -/
theorem run_write_fault {t : FieldType} {offset : Nat} {bit : Option Nat} {v : Value}
    {bs after : Bytes} {fault : Fault}
    (h : (t.write offset bit v).run bs = .error fault after) : after = bs := by
  rw [run_write] at h
  cases hpatch : t.patch bit v with
  | ok p =>
      rw [hpatch] at h
      exact Patch.run_write_fault h
  | error e =>
      rw [hpatch] at h
      cases h
      rfl

/-! ## The window and the bytes around it -/

/-- A write puts a patch over the window of its field. -/
theorem encode_eq_overwrite {t : FieldType} {bs after : Bytes} {offset : Nat}
    {bit : Option Nat} {v : Value} (h : t.encode bs offset bit v = .ok after) :
    ∃ new : Bytes, new.length = t.width ∧ after = bs.overwrite offset new := by
  rcases encode_eq_ok_iff.1 h with ⟨p, hpatch, happly⟩
  rcases Patch.apply_eq_ok_iff.1 happly with ⟨hfits, hafter⟩
  refine ⟨_, ?_, hafter⟩
  rw [p.length_put (Bytes.length_slice hfits), width_patch hpatch]

/-- A byte outside the window of a field stays. -/
theorem getElem?_encode_of_outside {t : FieldType} {bs after : Bytes} {offset i : Nat}
    {bit : Option Nat} {v : Value} (h : t.encode bs offset bit v = .ok after)
    (hi : i < offset ∨ offset + t.width ≤ i) : after[i]? = bs[i]? := by
  rcases encode_eq_overwrite h with ⟨new, hnew, rfl⟩
  apply Bytes.getElem?_overwrite_of_outside
  rw [hnew]
  exact hi

/-- The bytes in the window after a write. -/
theorem slice_encode {t : FieldType} {bs after : Bytes} {offset : Nat} {bit : Option Nat}
    {v : Value} (h : t.encode bs offset bit v = .ok after) :
    ∃ p, t.patch bit v = .ok p
      ∧ after.slice offset t.width = p.put (bs.slice offset t.width) := by
  rcases window_encode h with ⟨p, hpatch, _, hwindow⟩
  exact ⟨p, hpatch, (window_eq_ok_iff.1 hwindow).2⟩

/-! ## Bits -/

/-- Of the byte of a written bit, the other bits stay. -/
theorem byte_encode_bool {bs after : Bytes} {offset : Nat} {bit : Option Nat} {v : Value}
    (h : bool.encode bs offset bit v = .ok after) :
    ∃ (i : Fin 8) (b : Bool) (old new : UInt8), bit = some i.val
      ∧ bool.stored v = some (.bool b) ∧ bs[offset]? = some old ∧ after[offset]? = some new
      ∧ ∀ j, Bit.get new j = if j = i then b else Bit.get old j := by
  rcases window_encode h with ⟨p, hpatch, hold, hwindow⟩
  rcases patch_bool_eq_ok_iff.1 hpatch with ⟨i, b, hi, hb, rfl⟩
  rcases List.length_eq_one_iff.1 hold with ⟨old, hslice⟩
  have hnew : after.slice offset bool.width = [Bit.set old i b] := by
    rw [(window_eq_ok_iff.1 hwindow).2, hslice]
    rfl
  have hbefore : bs[offset]? = some old := by
    have := Bytes.getElem?_slice bs offset bool.width 0
    rw [hslice] at this
    exact this.symm
  have hafter : after[offset]? = some (Bit.set old i b) := by
    have := Bytes.getElem?_slice after offset bool.width 0
    rw [hnew] at this
    exact this.symm
  refine ⟨i, b, old, Bit.set old i b, hi, stored_bool_of_truth hb, hbefore, hafter, ?_⟩
  intro j
  exact Bit.get_set old i j b

/-! ## Whole windows -/

/-- Only a bit asks which bit is meant. -/
theorem patch_eq_of_ne_bool {t : FieldType} (h : t ≠ bool) (bit bit' : Option Nat)
    (v : Value) : t.patch bit v = t.patch bit' v := by
  cases t with
  | bool => exact absurd rfl h
  | _ => rfl

/-- Only a bit is put among old ones; any other type has an image of its own. -/
theorem exists_image_of_patch {t : FieldType} {bit : Option Nat} {v : Value} {p : Patch}
    (h : t ≠ bool) (hpatch : t.patch bit v = .ok p) : ∃ i, p = .image i := by
  cases t with
  | bool => exact absurd rfl h
  | _ =>
      rcases Outcome.map_eq_ok_iff.1 hpatch with ⟨image, _, rfl⟩
      exact ⟨_, rfl⟩

/-- Two writes of a value leave the same bytes, wherever they went, unless the value is
written to a single bit. -/
theorem slice_encode_eq {t : FieldType} {bs bs' after after' : Bytes} {offset offset' : Nat}
    {bit bit' : Option Nat} {v : Value} (ht : t ≠ bool)
    (h : t.encode bs offset bit v = .ok after)
    (h' : t.encode bs' offset' bit' v = .ok after') :
    after'.slice offset' t.width = after.slice offset t.width := by
  rcases slice_encode h with ⟨p, hpatch, hslice⟩
  rcases slice_encode h' with ⟨p', hpatch', hslice'⟩
  rw [patch_eq_of_ne_bool ht bit' bit, hpatch] at hpatch'
  cases hpatch'
  rcases exists_image_of_patch ht hpatch with ⟨i, rfl⟩
  rw [hslice, hslice']
  rfl

/-! ## The footprint -/

/-- What a write that succeeds may do to a buffer. -/
structure Footprint (t : FieldType) (offset : Nat) (bit : Option Nat) (v : Value)
    (bs after : Bytes) : Prop where
  length_eq : after.length = bs.length
  /-- Every byte outside the window of the field stays. -/
  outside : ∀ i, i < offset ∨ offset + t.width ≤ i → after[i]? = bs[i]?
  /-- A bit changes in the old byte, and the other bits stay. -/
  one_bit : t = bool → ∃ (i : Fin 8) (b : Bool) (old new : UInt8), bit = some i.val
    ∧ bool.stored v = some (.bool b) ∧ bs[offset]? = some old ∧ after[offset]? = some new
    ∧ ∀ j, Bit.get new j = if j = i then b else Bit.get old j
  /-- Any other window is filled as by every write of the value as this type. -/
  whole : t ≠ bool → ∀ bs' offset' bit' after',
    (t.write offset' bit' v).run bs' = .ok () after' →
      after'.slice offset' t.width = after.slice offset t.width

/-- A write that fails leaves the buffer as it was, and a write that succeeds keeps to the
footprint of its type and value. -/
theorem write_footprint (t : FieldType) (offset : Nat) (bit : Option Nat) (v : Value)
    (bs : Bytes) :
    match (t.write offset bit v).run bs with
    | .ok () after => Footprint t offset bit v bs after
    | .error _ after => after = bs := by
  cases hrun : (t.write offset bit v).run bs with
  | ok u after =>
      have hencode : t.encode bs offset bit v = .ok after := Change.result_eq_ok_iff.2 hrun
      constructor
      case length_eq => exact length_encode hencode
      case outside =>
        intro i hi
        exact getElem?_encode_of_outside hencode hi
      case one_bit =>
        intro ht
        subst ht
        exact byte_encode_bool hencode
      case whole =>
        intro ht bs' offset' bit' after' hrun'
        exact slice_encode_eq ht hencode (Change.result_eq_ok_iff.2 hrun')
  | error fault after => exact run_write_fault hrun

end FieldType
end DataBlock
