import DataBlock.Codec.Text
import DataBlock.Fault.Outcome
import Mathlib.Data.List.DropRight

/-!
# Stored text is read back

Characters, counted texts, padded texts and raw bytes, written and read again.

Main results:

- `CharWidth.decodeChar_unit`: a character that a width takes is read back.
- `checkCounted_eq_ok_iff`: which counted texts are written.
- `readCounted_countedText`: of a counted text the characters within its capacity
  are read back.
- `decodePadded_paddedText`: of a padded text the characters within its length are
  read back, without the spaces at their end.
-/

namespace DataBlock

/-! ## Characters -/

namespace CharWidth

/-- Whether a character is written in a width: ASCII in one byte, the basic plane in
two. -/
def takes : CharWidth → Char → Bool
  | narrow => isAscii
  | wide => isBasic

theorem toNat_lt_of_takes {w : CharWidth} {c : Char} (h : w.takes c = true) :
    c.toNat < 256 ^ w.size := by
  cases w with
  | narrow =>
      have : c.toNat < 128 := by simpa [takes, isAscii] using h
      simp only [size]
      omega
  | wide => simpa [takes, isBasic, size] using h

/-- No character lies among the halves of surrogate pairs. -/
theorem charOf_toNat (c : Char) : charOf c.toNat = .ok c := by
  have hvalid : c.toNat.isValidChar := c.valid
  have hnot : ¬ (0xd800 ≤ c.toNat ∧ c.toNat ≤ 0xdfff) := by
    rcases hvalid with hlow | ⟨hhigh, _⟩ <;> omega
  rw [charOf, if_neg hnot, Char.ofNat_toNat]

/-- A character that a width takes is read back. -/
theorem decodeChar_unit {w : CharWidth} {c : Char} (h : w.takes c = true) :
    decodeChar (w.unit c) = .ok c := by
  rw [decodeChar, unit, BigEndian.decode_encode (toNat_lt_of_takes h), charOf_toNat]

/-- Only characters that a width takes are written. -/
theorem charImage_eq_ok_iff {w : CharWidth} {v : Value} {bs : Bytes} :
    w.charImage v = .ok bs ↔ ∃ c, v = .char c ∧ w.takes c = true ∧ w.unit c = bs := by
  cases v with
  | char c =>
      cases w with
      | narrow => cases h : isAscii c <;> simp [charImage, takes, h]
      | wide => cases h : isBasic c <;> simp [charImage, takes, h]
  | _ => simp [charImage, mismatch]

/-- Characters that were written one after the other are read back. -/
theorem mapM_decodeChar_pieces {w : CharWidth} {cs : List Char}
    (h : ∀ c ∈ cs, w.takes c = true) :
    (Bytes.pieces w.size cs.length (cs.flatMap w.unit)).mapM decodeChar = .ok cs := by
  induction cs with
  | nil => rfl
  | cons c cs ih =>
      have hc := decodeChar_unit (h c (by simp))
      have hcs := ih fun d hd => h d (by simp [hd])
      have htake : (w.unit c ++ cs.flatMap w.unit).take w.size = w.unit c :=
        List.take_left' (length_unit w c)
      have hdrop : (w.unit c ++ cs.flatMap w.unit).drop w.size = cs.flatMap w.unit :=
        List.drop_left' (length_unit w c)
      rw [List.flatMap_cons, List.length_cons, Bytes.pieces, htake, hdrop, List.mapM_cons,
        hc, hcs]
      rfl

end CharWidth

/-! ## Counted texts -/

theorem checkAscii_eq_ok_iff {type : FieldType} {s : String} :
    checkAscii type s = .ok () ↔ ∀ c ∈ s.toList, isAscii c = true := by
  unfold checkAscii
  split <;> simp_all [List.all_eq_true]

theorem checkBasic_eq_ok_iff {s : String} :
    checkBasic s = .ok () ↔ ∀ c ∈ s.toList, isBasic c = true := by
  unfold checkBasic
  split
  · next c hc =>
      have hmem := List.mem_of_find?_eq_some hc
      have hnot := List.find?_some hc
      simp only [reduceCtorEq, false_iff]
      intro h
      rw [h c hmem] at hnot
      exact absurd hnot (by decide)
  · next hnone => simpa [List.find?_eq_none] using hnone

theorem checkCapacity_eq_ok_iff {w : CharWidth} {capacity : Nat} :
    checkCapacity w capacity = .ok () ↔ 1 ≤ capacity ∧ capacity ≤ w.maxCapacity := by
  unfold checkCapacity
  split <;> simp_all

/-- A counted text is written if its capacity is within the limits and its width
takes all its characters. -/
theorem checkCounted_eq_ok_iff {w : CharWidth} {capacity : Nat} {s : String} :
    checkCounted w capacity s = .ok () ↔
      (1 ≤ capacity ∧ capacity ≤ w.maxCapacity) ∧ ∀ c ∈ s.toList, w.takes c = true := by
  cases w with
  | narrow =>
      rw [checkCounted, Outcome.check_bind_eq_ok_iff, checkAscii_eq_ok_iff,
        checkCapacity_eq_ok_iff]
      exact and_comm
  | wide =>
      rw [checkCounted, Outcome.check_bind_eq_ok_iff, checkBasic_eq_ok_iff,
        checkCapacity_eq_ok_iff]
      exact Iff.rfl

/-- What a value puts into a counted text. -/
theorem countedImage_eq_ok_iff {w : CharWidth} {capacity : Nat} {v : Value} {i : Image} :
    countedImage w capacity v = .ok i ↔
      ∃ s, v = .string s ∧ checkCounted w capacity s = .ok () ∧ countedText w capacity s = i := by
  cases v with
  | string s => simp [countedImage, Outcome.check_map_eq_ok_iff]
  | _ => simp [countedImage, mismatch]

/-- The header of a counted text: its capacity and its length. -/
theorem slice_header_countedText (w : CharWidth) (capacity : Nat) (s : String) :
    (countedText w capacity s).bytes.slice 0 (2 * w.size)
      = BigEndian.encode w.size capacity
        ++ BigEndian.encode w.size (kept capacity s).length := by
  rw [Bytes.slice, List.drop_zero, Image.bytes, countedText, List.append_assoc]
  apply List.take_left'
  simp only [List.length_append, BigEndian.length_encode]
  omega

/-- The characters of a counted text follow its header. -/
theorem slice_chars_countedText (w : CharWidth) (capacity : Nat) (s : String) :
    (countedText w capacity s).bytes.slice (2 * w.size) ((kept capacity s).length * w.size)
      = (kept capacity s).flatMap w.unit := by
  have hheader : (BigEndian.encode w.size capacity
      ++ BigEndian.encode w.size (kept capacity s).length).length = 2 * w.size := by
    simp only [List.length_append, BigEndian.length_encode]
    omega
  rw [Bytes.slice, Image.bytes, countedText, List.append_assoc, List.drop_left' hheader]
  exact List.take_left' (CharWidth.length_flatMap_unit w _)

/-- A window with a counted text begins with its header. -/
theorem window_header_countedText {w : CharWidth} {capacity offset : Nat} {s : String}
    {bs : Bytes} (hwindow : window bs offset (FieldType.counted w capacity).width
      = .ok (countedText w capacity s).bytes) :
    window bs offset (2 * w.size) = .ok (BigEndian.encode w.size capacity
      ++ BigEndian.encode w.size (kept capacity s).length) := by
  have hpart : 0 + 2 * w.size ≤ (FieldType.counted w capacity).width := by
    rw [Nat.zero_add]
    exact header_le_width w capacity
  have hheader := window_of_window hwindow hpart
  rwa [slice_header_countedText, Nat.add_zero] at hheader

/-- The header of a text that passed its check holds every number up to the capacity. -/
theorem lt_of_checkCounted {w : CharWidth} {capacity n : Nat} {s : String}
    (h : checkCounted w capacity s = .ok ()) (hn : n ≤ capacity) : n < 256 ^ w.size := by
  rcases checkCounted_eq_ok_iff.1 h with ⟨⟨_, hmost⟩, _⟩
  have hlimit : w.maxCapacity < 256 ^ w.size := by cases w <;> decide
  omega

/-- The first number of the header is the capacity. -/
theorem decode_take_header {w : CharWidth} {capacity : Nat} {s : String} (rest : Bytes)
    (h : checkCounted w capacity s = .ok ()) :
    BigEndian.decode ((BigEndian.encode w.size capacity ++ rest).take w.size) = capacity := by
  rw [List.take_left' (BigEndian.length_encode _ _),
    BigEndian.decode_encode (lt_of_checkCounted h (Nat.le_refl _))]

/-- Of a counted text the characters within its capacity are read back. -/
theorem readCounted_countedText {w : CharWidth} {capacity offset : Nat} {s : String}
    {bs : Bytes} (hcheck : checkCounted w capacity s = .ok ())
    (hwindow : window bs offset (FieldType.counted w capacity).width
      = .ok (countedText w capacity s).bytes) :
    readCounted w bs offset = .ok (String.ofList (kept capacity s)) := by
  have hle := length_kept_le capacity s
  have hheader := window_header_countedText hwindow
  have hchars := window_of_window hwindow (chars_le_width w hle)
  rw [slice_chars_countedText] at hchars
  have hlength : BigEndian.decode ((BigEndian.encode w.size capacity
      ++ BigEndian.encode w.size (kept capacity s).length).drop w.size)
      = (kept capacity s).length := by
    rw [List.drop_left' (BigEndian.length_encode _ _),
      BigEndian.decode_encode (lt_of_checkCounted hcheck hle)]
  have hkept : ∀ c ∈ kept capacity s, w.takes c = true := fun c hc =>
    (checkCounted_eq_ok_iff.1 hcheck).2 c (List.mem_of_mem_take hc)
  simp only [readCounted, hheader, decode_take_header _ hcheck, hlength, hchars,
    Outcome.ok_bind, if_neg (Nat.not_lt.2 hle), CharWidth.mapM_decodeChar_pieces hkept]
  rfl

/-! ## Padded texts and raw bytes -/

/-- What a value puts into a padded text. -/
theorem paddedImage_eq_ok_iff {length : Nat} {v : Value} {i : Image} :
    paddedImage length v = .ok i ↔
      ∃ s, v = .string s ∧ (∀ c ∈ s.toList, isAscii c = true) ∧ paddedText length s = i := by
  cases v with
  | string s =>
      simp [paddedImage, Outcome.check_map_eq_ok_iff, checkAscii_eq_ok_iff]
  | _ => simp [paddedImage, mismatch]

/-- Narrow characters take one byte each. -/
theorem flatMap_unit_narrow (cs : List Char) :
    cs.flatMap CharWidth.narrow.unit = cs.map fun c => UInt8.ofNat c.toNat := by
  induction cs with
  | nil => rfl
  | cons c cs ih =>
      rw [List.flatMap_cons, ih]
      rfl

/-- Filler at the end is cut off. -/
theorem rdropWhile_append_replicate (bs : Bytes) (count : Nat) :
    (bs ++ List.replicate count 32).rdropWhile (· == 32) = bs.rdropWhile (· == 32) := by
  induction count with
  | zero => rw [List.replicate_zero, List.append_nil]
  | succ count ih =>
      rw [List.replicate_succ', ← List.append_assoc, List.rdropWhile_concat_pos _ _ _ rfl, ih]

/-- An ASCII character is known by its byte. -/
theorem toNat_ofNat_of_isAscii {c : Char} (h : isAscii c = true) :
    (UInt8.ofNat c.toNat).toNat = c.toNat := by
  have hlt : c.toNat < 128 := by simpa [isAscii] using h
  exact UInt8.toNat_ofNat_of_lt' (Nat.lt_trans hlt (by decide))

/-- Spaces are cut off an ASCII text as they are off its bytes. -/
theorem rdropWhile_map_toNat {cs : List Char} (h : ∀ c ∈ cs, isAscii c = true) :
    (cs.map fun c => UInt8.ofNat c.toNat).rdropWhile (· == 32)
      = (cs.rdropWhile (· == ' ')).map fun c => UInt8.ofNat c.toNat := by
  induction cs using List.reverseRecOn with
  | nil => rfl
  | append_singleton cs c ih =>
      have hcs := ih fun d hd => h d (by simp [hd])
      have hc := toNat_ofNat_of_isAscii (h c (by simp))
      have hspace : (UInt8.ofNat c.toNat == 32) = (c == ' ') := by
        rw [Bool.eq_iff_iff, beq_iff_eq, beq_iff_eq, ← UInt8.toNat_inj, hc]
        exact ⟨fun heq => Char.toNat_inj.1 heq, fun heq => heq ▸ rfl⟩
      rw [List.map_append, List.map_singleton, List.rdropWhile_concat, List.rdropWhile_concat,
        hspace, hcs]
      split
      · rfl
      · rw [List.map_append, List.map_singleton]

/-- Of a padded text the characters within its length are read back, without the
spaces at their end. -/
theorem decodePadded_paddedText {length : Nat} {s : String}
    (h : ∀ c ∈ s.toList, isAscii c = true) :
    decodePadded (paddedText length s).bytes
      = String.ofList ((kept length s).rdropWhile (· == ' ')) := by
  have hkept : ∀ c ∈ kept length s, isAscii c = true := fun c hc =>
    h c (List.mem_of_mem_take hc)
  have hbytes : (paddedText length s).bytes.rdropWhile (· == 32)
      = ((kept length s).rdropWhile (· == ' ')).map fun c => UInt8.ofNat c.toNat := by
    have hhead : (paddedText length s).head
        = (kept length s).map fun c => UInt8.ofNat c.toNat := flatMap_unit_narrow _
    rw [Image.bytes, hhead]
    exact (rdropWhile_append_replicate _ _).trans (rdropWhile_map_toNat hkept)
  have hback : ∀ c ∈ (kept length s).rdropWhile (· == ' '),
      Char.ofNat (UInt8.ofNat c.toNat).toNat = c := by
    intro c hc
    have hmem : c ∈ kept length s := (List.rdropWhile_prefix _ _).subset hc
    rw [toNat_ofNat_of_isAscii (hkept c hmem), Char.ofNat_toNat]
  have hchars := List.map_congr_left (g := id) hback
  rw [List.map_id] at hchars
  rw [List.rdropWhile] at hbytes
  simp only [decodePadded, hbytes, List.map_map, Function.comp_def, hchars]

/-- What a value puts into a field of raw bytes. -/
theorem rawImage_eq_ok_iff {length : Nat} {v : Value} {i : Image} :
    rawImage length v = .ok i ↔
      ∃ bs, ∃ h : bs.length ≤ length, v = .bytes bs ∧ ⟨bs, 0, length, h⟩ = i := by
  cases v with
  | bytes bs => by_cases h : bs.length ≤ length <;> simp [rawImage, h]
  | _ => simp [rawImage, mismatch]

end DataBlock
