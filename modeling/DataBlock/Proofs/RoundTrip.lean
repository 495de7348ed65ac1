import DataBlock.Codec
import DataBlock.Proofs.RoundTrip.Clock
import DataBlock.Proofs.RoundTrip.Text

/-!
# What is written is read back

A value that was written to a field is read back in the form in which the type of the
field stores it.

Main results:

- `FieldType.stored`: the form in which a type stores a value.
- `FieldType.width_patch`: a write reaches exactly the window of its field.
- `FieldType.decode_of_patch`: a window with a patch reads as the stored form.
- `FieldType.decode_after_encode`: reading undoes writing, for every type and value.
-/

namespace DataBlock

/-! ## Numbers -/

/-- The truth values and the integers zero and one can be written to a bit. -/
theorem truth_eq_ok_iff {v : Value} {b : Bool} :
    truth v = .ok b ↔ v = .bool b ∨ ∃ n, v = .integer n ∧ n.number = b.toInt := by
  cases v with
  | bool c => simp [truth]
  | integer n => simp [truth_integer_eq_ok_iff]
  | _ => simp [truth, mismatch]

/-- An integer of any width is stored if the type holds its number. -/
theorem IntegerType.image_eq_ok_iff {t : IntegerType} {v : Value} {w : Bytes} :
    t.image v = .ok w ↔ ∃ n, v = .integer n ∧ t.kind.Holds n.number
      ∧ BigEndian.encode t.kind.size (t.kind.toWord n.number) = w := by
  cases v with
  | integer n => by_cases h : t.kind.Holds n.number <;> simp [image, h]
  | _ => simp [image, mismatch]

theorem realImage_eq_ok_iff {v : Value} {w : Bytes} :
    realImage v = .ok w ↔ ∃ bits, v = .single bits ∧ BigEndian.encode 4 bits.toNat = w := by
  cases v <;> simp [realImage, Value.single?, mismatch]

theorem longRealImage_eq_ok_iff {v : Value} {w : Bytes} :
    longRealImage v = .ok w ↔
      ∃ bits, v.double? = some bits ∧ BigEndian.encode 8 bits.toNat = w := by
  cases h : v.double? <;> simp [longRealImage, h, mismatch]

namespace FieldType

/-! ## Windows -/

/-- A bit that can be written is given, lies within the byte, and has a truth value. -/
theorem patch_bool_eq_ok_iff {bit : Option Nat} {v : Value} {p : Patch} :
    bool.patch bit v = .ok p ↔
      ∃ (i : Fin 8) (b : Bool), bit = some i.val ∧ truth v = .ok b ∧ .bit i b = p := by
  cases bit with
  | none => simp [patch, requireBit]
  | some n =>
      by_cases hn : n < 8
      · have hindex : Bit.index n = .ok ⟨n, hn⟩ := dif_pos hn
        simp only [patch, requireBit, Outcome.ok_bind, Outcome.bind_eq_ok_iff, hindex]
        constructor
        · intro h
          rcases h with ⟨b, hb, hp⟩
          exact ⟨⟨n, hn⟩, b, rfl, hb, Except.ok.inj hp⟩
        · intro h
          rcases h with ⟨i, b, hi, hb, rfl⟩
          cases hi
          exact ⟨b, hb, rfl⟩
      · have hindex : Bit.index n = .error (.invalid (.bitIndex n)) := dif_neg hn
        simp only [patch, requireBit, Outcome.ok_bind, Outcome.bind_eq_ok_iff, hindex]
        constructor
        · intro h
          rcases h with ⟨b, _, hp⟩
          exact absurd hp (by simp)
        · intro h
          rcases h with ⟨i, b, hi, _, _⟩
          cases hi
          exact absurd i.isLt hn

/-- A write reaches exactly the window of its field. -/
theorem width_patch {t : FieldType} {bit : Option Nat} {v : Value} {p : Patch}
    (h : t.patch bit v = .ok p) : p.width = t.width := by
  cases t with
  | bool =>
      rcases patch_bool_eq_ok_iff.1 h with ⟨i, b, _, _, rfl⟩
      rfl
  | integer t =>
      rcases Outcome.map_eq_ok_iff.1 h with ⟨w, hw, rfl⟩
      rcases IntegerType.image_eq_ok_iff.1 hw with ⟨n, _, _, rfl⟩
      exact BigEndian.length_encode _ _
  | real =>
      rcases Outcome.map_eq_ok_iff.1 h with ⟨w, hw, rfl⟩
      rcases realImage_eq_ok_iff.1 hw with ⟨bits, _, rfl⟩
      exact BigEndian.length_encode _ _
  | longReal =>
      rcases Outcome.map_eq_ok_iff.1 h with ⟨w, hw, rfl⟩
      rcases longRealImage_eq_ok_iff.1 hw with ⟨bits, _, rfl⟩
      exact BigEndian.length_encode _ _
  | char width =>
      rcases Outcome.map_eq_ok_iff.1 h with ⟨w, hw, rfl⟩
      rcases CharWidth.charImage_eq_ok_iff.1 hw with ⟨c, _, _, rfl⟩
      exact CharWidth.length_unit _ _
  | counted width capacity =>
      rcases Outcome.map_eq_ok_iff.1 h with ⟨i, hi, rfl⟩
      rcases countedImage_eq_ok_iff.1 hi with ⟨s, _, _, rfl⟩
      rfl
  | padded length =>
      rcases Outcome.map_eq_ok_iff.1 h with ⟨i, hi, rfl⟩
      rcases paddedImage_eq_ok_iff.1 hi with ⟨s, _, _, rfl⟩
      rfl
  | raw length =>
      rcases Outcome.map_eq_ok_iff.1 h with ⟨i, hi, rfl⟩
      rcases rawImage_eq_ok_iff.1 hi with ⟨bs, _, _, rfl⟩
      rfl
  | s5time =>
      rcases Outcome.map_eq_ok_iff.1 h with ⟨w, hw, rfl⟩
      rcases S5Time.image_eq_ok_iff.1 hw with ⟨ms, code, count, _, _, rfl⟩
      rfl
  | time =>
      rcases Outcome.map_eq_ok_iff.1 h with ⟨w, hw, rfl⟩
      rcases timeImage_eq_ok_iff.1 hw with ⟨ms, _, _, rfl⟩
      exact BigEndian.length_encode _ _
  | date =>
      rcases Outcome.map_eq_ok_iff.1 h with ⟨w, hw, rfl⟩
      rcases dateImage_eq_ok_iff.1 hw with ⟨d, _, _, rfl⟩
      exact BigEndian.length_encode _ _
  | timeOfDay =>
      rcases Outcome.map_eq_ok_iff.1 h with ⟨w, hw, rfl⟩
      rcases timeOfDayImage_eq_ok_iff.1 hw with ⟨t, ms, _, _, rfl⟩
      exact BigEndian.length_encode _ _
  | dateAndTime =>
      rcases Outcome.map_eq_ok_iff.1 h with ⟨w, hw, rfl⟩
      rcases DateAndTime.image_eq_ok_iff.1 hw with ⟨t, ms, _, _, _, rfl⟩
      rfl
  | dateTimeLong =>
      rcases Outcome.map_eq_ok_iff.1 h with ⟨w, hw, rfl⟩
      rcases DateTimeLong.image_eq_ok_iff.1 hw with ⟨t, _, _, _, rfl⟩
      simp [DateTimeLong.bytes, FieldType.width]

/-- After a write, the window holds the old bytes with the patch. -/
theorem window_encode {t : FieldType} {bs bs' : Bytes} {offset : Nat} {bit : Option Nat}
    {v : Value} (h : t.encode bs offset bit v = .ok bs') :
    ∃ p, t.patch bit v = .ok p ∧ (bs.slice offset t.width).length = t.width
      ∧ window bs' offset t.width = .ok (p.put (bs.slice offset t.width)) := by
  rcases encode_eq_ok_iff.1 h with ⟨p, hpatch, happly⟩
  rcases Patch.apply_eq_ok_iff.1 happly with ⟨hfits, rfl⟩
  rw [width_patch hpatch] at hfits ⊢
  have hold := Bytes.length_slice hfits
  have hput : (p.put (bs.slice offset t.width)).length = t.width := by
    rw [p.length_put (by rw [hold, width_patch hpatch]), width_patch hpatch]
  refine ⟨p, hpatch, hold, window_eq_ok_iff.2 ⟨?_, ?_⟩⟩
  · rw [Bytes.length_overwrite]
    exact hfits
  · rw [← hput] at hfits
    have hslice := Bytes.slice_overwrite hfits
    rwa [hput] at hslice

/-! ## Stored values -/

/-- The form in which a type stores a value; none if it stores no such values. -/
def stored (t : FieldType) (v : Value) : Option Value :=
  match t, v with
  | bool, .bool b => some (.bool b)
  | bool, .integer n =>
      if n.number = 0 then some (.bool false)
      else if n.number = 1 then some (.bool true)
      else none
  | integer t, .integer n => (IntValue.ofInt? t.kind n.number).map .integer
  | real, .single bits => some (.single bits)
  | longReal, .double bits => some (.double bits)
  | longReal, .single bits => some (.double (UInt64.ofNat (Binary.widen bits.toNat)))
  | char _, .char c => some (.char c)
  | counted _ capacity, .string s => some (.string (String.ofList (s.toList.take capacity)))
  | padded length, .string s =>
      some (.string (String.ofList ((s.toList.take length).rdropWhile (· == ' '))))
  | raw length, .bytes bs => some (.bytes (bs ++ List.replicate (length - bs.length) 0))
  | s5time, .span d => some (.span d)
  | time, .span d => some (.span d)
  | date, .date d => some (.date d)
  | timeOfDay, .time t => some (.time t)
  | dateAndTime, .dateTime t => some (.dateTime t)
  | dateTimeLong, .dateTime t => some (.dateTime t)
  | _, _ => none

theorem stored_bool_of_truth {v : Value} {b : Bool} (h : truth v = .ok b) :
    bool.stored v = some (.bool b) := by
  rcases truth_eq_ok_iff.1 h with rfl | ⟨n, rfl, hn⟩
  · rfl
  · cases b <;> simp [stored, hn]

theorem stored_integer_of_image {t : IntegerType} {n : IntValue} {w : Bytes}
    (h : t.image (.integer n) = .ok w) :
    (integer t).stored (.integer n) = some (.integer (t.decode w)) := by
  have hnumber : (t.decode w).number = n.number := IntegerType.decode_image h
  have hfits : t.kind.Holds n.number := hnumber ▸ (t.decode w).fits
  have hvalue : (⟨t.kind, n.number, hfits⟩ : IntValue) = t.decode w := by
    rw [IntegerType.decode, IntValue.ofWord] at hnumber ⊢
    simp only [IntValue.mk.injEq, true_and]
    exact hnumber.symm
  simp only [stored, IntValue.ofInt?, dif_pos hfits, hvalue, Option.map_some]

/-- A window with a patch reads as the stored form of the value. -/
theorem decode_of_patch {t : FieldType} {bs old : Bytes} {offset : Nat} {bit : Option Nat}
    {v : Value} {p : Patch} (hpatch : t.patch bit v = .ok p) (hold : old.length = t.width)
    (hwindow : window bs offset t.width = .ok (p.put old)) :
    ∃ u, t.stored v = some u ∧ t.decode bs offset bit = .ok u := by
  cases t with
  | bool =>
      rcases patch_bool_eq_ok_iff.1 hpatch with ⟨i, b, rfl, hb, rfl⟩
      rcases List.length_eq_one_iff.1 hold with ⟨x, rfl⟩
      refine ⟨.bool b, stored_bool_of_truth hb, ?_⟩
      have hindex : Bit.index i.val = .ok i := dif_pos i.isLt
      have hget : Bit.get ((Patch.put (.bit i b) [x]).byte 0) i = b :=
        (Bit.get_set x i i b).trans (if_pos rfl)
      simp only [decode, requireBit, hwindow, hindex, Outcome.ok_bind, hget]
      rfl
  | integer t =>
      rcases Outcome.map_eq_ok_iff.1 hpatch with ⟨w, hw, rfl⟩
      rcases IntegerType.image_eq_ok_iff.1 hw with ⟨n, rfl, _, _⟩
      refine ⟨_, stored_integer_of_image hw, ?_⟩
      simp only [decode, hwindow, Patch.put_ofBytes, Outcome.map_ok]
  | real =>
      rcases Outcome.map_eq_ok_iff.1 hpatch with ⟨w, hw, rfl⟩
      rcases realImage_eq_ok_iff.1 hw with ⟨bits, rfl, _⟩
      refine ⟨_, rfl, ?_⟩
      simp only [decode, hwindow, Patch.put_ofBytes, Outcome.map_ok, decodeReal_image hw]
  | longReal =>
      rcases Outcome.map_eq_ok_iff.1 hpatch with ⟨w, hw, rfl⟩
      rcases longRealImage_eq_ok_iff.1 hw with ⟨bits, hbits, rfl⟩
      have hstored : longReal.stored v = some (.double bits) := by
        cases v <;> simp_all [stored, Value.double?]
      have hdouble : longRealImage (.double bits) = .ok (BigEndian.encode 8 bits.toNat) := rfl
      refine ⟨_, hstored, ?_⟩
      simp only [decode, hwindow, Patch.put_ofBytes, Outcome.map_ok, decodeLongReal_image hdouble]
  | char width =>
      rcases Outcome.map_eq_ok_iff.1 hpatch with ⟨w, hw, rfl⟩
      rcases CharWidth.charImage_eq_ok_iff.1 hw with ⟨c, rfl, htakes, rfl⟩
      refine ⟨_, rfl, ?_⟩
      simp only [decode, hwindow, Patch.put_ofBytes, Except.bind,
        CharWidth.decodeChar_unit htakes, Outcome.map_ok]
  | counted width capacity =>
      rcases Outcome.map_eq_ok_iff.1 hpatch with ⟨i, hi, rfl⟩
      rcases countedImage_eq_ok_iff.1 hi with ⟨s, rfl, hcheck, rfl⟩
      refine ⟨_, rfl, ?_⟩
      simp only [decode, readCounted_countedText hcheck hwindow, Outcome.map_ok, kept]
  | padded length =>
      rcases Outcome.map_eq_ok_iff.1 hpatch with ⟨i, hi, rfl⟩
      rcases paddedImage_eq_ok_iff.1 hi with ⟨s, rfl, hascii, rfl⟩
      refine ⟨_, rfl, ?_⟩
      simp only [decode, hwindow, Outcome.map_ok, Patch.put, decodePadded_paddedText hascii,
        kept]
  | raw length =>
      rcases Outcome.map_eq_ok_iff.1 hpatch with ⟨i, hi, rfl⟩
      rcases rawImage_eq_ok_iff.1 hi with ⟨bytes, hle, rfl, rfl⟩
      refine ⟨_, rfl, ?_⟩
      simp only [decode, hwindow, Outcome.map_ok, Patch.put, Image.bytes]
  | s5time =>
      rcases Outcome.map_eq_ok_iff.1 hpatch with ⟨w, hw, rfl⟩
      rcases S5Time.image_eq_ok_iff.1 hw with ⟨ms, code, count, rfl, hform, rfl⟩
      rcases S5Time.form?_sound hform with ⟨hcode, hcount, hms⟩
      refine ⟨_, rfl, ?_⟩
      simp only [decode, hwindow, Patch.put_ofBytes, Except.bind,
        S5Time.decode_bytes offset hcode hcount, hms, Outcome.map_ok]
  | time =>
      rcases Outcome.map_eq_ok_iff.1 hpatch with ⟨w, hw, rfl⟩
      rcases timeImage_eq_ok_iff.1 hw with ⟨ms, rfl, hholds, rfl⟩
      refine ⟨_, rfl, ?_⟩
      simp only [decode, hwindow, Patch.put_ofBytes, decodeTime_encode hholds, Outcome.map_ok]
  | date =>
      rcases Outcome.map_eq_ok_iff.1 hpatch with ⟨w, hw, rfl⟩
      rcases dateImage_eq_ok_iff.1 hw with ⟨d, rfl, hrange, rfl⟩
      refine ⟨_, rfl, ?_⟩
      simp only [decode, hwindow, Patch.put_ofBytes, Except.bind, decodeDate_encode hrange,
        Outcome.map_ok]
  | timeOfDay =>
      rcases Outcome.map_eq_ok_iff.1 hpatch with ⟨w, hw, rfl⟩
      rcases timeOfDayImage_eq_ok_iff.1 hw with ⟨t, ms, rfl, hms, rfl⟩
      refine ⟨_, rfl, ?_⟩
      simp only [decode, hwindow, Patch.put_ofBytes, Except.bind, decodeTimeOfDay_encode hms,
        Outcome.map_ok]
  | dateAndTime =>
      rcases Outcome.map_eq_ok_iff.1 hpatch with ⟨w, hw, rfl⟩
      rcases DateAndTime.image_eq_ok_iff.1 hw with ⟨t, ms, rfl, hyear, hms, rfl⟩
      refine ⟨_, rfl, ?_⟩
      simp only [decode, hwindow, Patch.put_ofBytes, Except.bind,
        DateAndTime.decode_bytes offset hyear hms, Outcome.map_ok]
  | dateTimeLong =>
      rcases Outcome.map_eq_ok_iff.1 hpatch with ⟨w, hw, rfl⟩
      rcases DateTimeLong.image_eq_ok_iff.1 hw with ⟨t, rfl, hyear, hleap, rfl⟩
      refine ⟨_, rfl, ?_⟩
      simp only [decode, hwindow, Patch.put_ofBytes, Except.bind,
        DateTimeLong.decode_bytes hyear hleap, Outcome.map_ok]

/-- Reading undoes writing: a value that was written is read back in the form in which
its type stores it. -/
theorem decode_after_encode {t : FieldType} {bs bs' : Bytes} {offset : Nat} {bit : Option Nat}
    {v : Value} (h : t.encode bs offset bit v = .ok bs') :
    ∃ u, t.stored v = some u ∧ t.decode bs' offset bit = .ok u := by
  rcases window_encode h with ⟨p, hpatch, hold, hwindow⟩
  exact decode_of_patch hpatch hold hwindow

/-- A text that is longer than its field comes back cut to the capacity. -/
theorem decode_after_encode_cut_text :
    (counted .narrow 3).encode (List.replicate 7 9) 1 none (.string "abcdef")
        = .ok [9, 3, 3, 97, 98, 99, 9]
      ∧ ∃ u, (counted .narrow 3).stored (.string "abcdef") = some u
        ∧ (counted .narrow 3).decode [9, 3, 3, 97, 98, 99, 9] 1 none = .ok u := by
  have hwritten : (counted .narrow 3).encode (List.replicate 7 9) 1 none (.string "abcdef")
      = .ok [9, 3, 3, 97, 98, 99, 9] := rfl
  exact ⟨hwritten, decode_after_encode hwritten⟩

end FieldType
end DataBlock
