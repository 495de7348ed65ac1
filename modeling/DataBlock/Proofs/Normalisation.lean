import DataBlock.Proofs.Printing
import DataBlock.Proofs.Placement
import DataBlock.Proofs.Representable

/-!
# Storing again what was read

A value that was read from a field can be written to it again, unless it is a text of narrow
characters with one beyond ASCII in it.  Most types have one stored form for each value, so
that the bytes stay as they are.  The others bring them into the form in which the type
stores the value, which a further write leaves as it is.

Main results:

- `FieldType.Normalises`: the types with more than one stored form of a value.
- `FieldType.exists_patch_put_self`: for any other type, what was read is stored as it was.
- `FieldType.represents_of_decode`: what was read is represented.
- `FieldType.encode_again`: a second write changes nothing.
- `FieldType.encode_decoded`: a value that was read is written to its field again.
-/

namespace DataBlock

/-! ## Bits -/

namespace Bit

/-- A byte is known by its bits. -/
theorem ext_get {a b : UInt8} (h : ∀ i, get a i = get b i) : a = b := by
  apply UInt8.toBitVec_inj.1
  apply BitVec.eq_of_getLsbD_eq
  intro i hi
  exact h ⟨i, hi⟩

/-- A bit that is written as it was changes nothing. -/
theorem set_get (b : UInt8) (i : Fin 8) : set b i (get b i) = b := by
  apply ext_get
  intro j
  rw [get_set]
  by_cases h : j = i
  · rw [if_pos h, h]
  · rw [if_neg h]

/-- A bit that is written twice is written once. -/
theorem set_set (b : UInt8) (i : Fin 8) (v : Bool) : set (set b i v) i v = set b i v := by
  have hget : get (set b i v) i = v := (get_set b i i v).trans (if_pos rfl)
  have h := set_get (set b i v) i
  rwa [hget] at h

end Bit

/-- A patch that is put twice is put once. -/
theorem Patch.put_put (p : Patch) (old : Bytes) : p.put (p.put old) = p.put old := by
  cases p with
  | bit i v => simp only [put, List.map_map, Function.comp_def, Bit.set_set]
  | image i => rfl

/-! ## Numbers -/

/-- The number of some bytes is below the range of their count. -/
theorem BigEndian.decode_lt (bs : Bytes) : decode bs < 256 ^ bs.length := by
  have h := decode_encode_mod bs.length (decode bs)
  rw [encode_decode] at h
  rw [h]
  exact Nat.mod_lt _ (Nat.pow_pos (by decide))

/-- Two's complement gives back the word of a number. -/
theorem IntKind.toWord_wrapped {k : IntKind} {w : Nat} (h : w < k.words) :
    k.toWord (IntValue.wrapped k w) = w := by
  cases k <;>
    simp only [IntKind.toWord, IntKind.words, IntKind.size, IntKind.signed, IntValue.wrapped,
      Int.bmod, if_true, Bool.false_eq_true, if_false] at h ⊢ <;>
    omega

/-- An integer that was read is stored as it was. -/
theorem IntegerType.image_decode {t : IntegerType} {w : Bytes} (h : w.length = t.kind.size) :
    t.image (.integer (t.decode w)) = .ok w := by
  have hword : BigEndian.decode w < t.kind.words := by
    rw [IntKind.words, ← h]
    exact BigEndian.decode_lt w
  refine image_eq_ok_iff.2 ⟨_, rfl, IntValue.holds_wrapped _ _, ?_⟩
  rw [decode, IntValue.ofWord, IntKind.toWord_wrapped hword, ← h, BigEndian.encode_decode]

theorem realImage_decodeReal {w : Bytes} (h : w.length = 4) :
    realImage (decodeReal w) = .ok w := by
  have hlt := BigEndian.decode_lt w
  rw [h] at hlt
  refine realImage_eq_ok_iff.2 ⟨_, rfl, ?_⟩
  rw [UInt32.toNat_ofNat_of_lt' hlt, ← h, BigEndian.encode_decode]

theorem longRealImage_decodeLongReal {w : Bytes} (h : w.length = 8) :
    longRealImage (decodeLongReal w) = .ok w := by
  have hlt := BigEndian.decode_lt w
  rw [h] at hlt
  refine longRealImage_eq_ok_iff.2 ⟨UInt64.ofNat (BigEndian.decode w), rfl, ?_⟩
  rw [UInt64.toNat_ofNat_of_lt' hlt, ← h, BigEndian.encode_decode]

/-! ## Characters and texts -/

/-- A character or a text with something beyond ASCII in it. -/
inductive Value.BeyondAscii : Value → Prop where
  | char {c : Char} (hc : 128 ≤ c.toNat) : BeyondAscii (.char c)
  | string {s : String} {c : Char} (hmem : c ∈ s.toList) (hc : 128 ≤ c.toNat) :
      BeyondAscii (.string s)

/-- The other texts are ASCII throughout. -/
theorem Value.lt_of_not_beyondAscii {s : String} (h : ¬ (Value.string s).BeyondAscii) :
    ∀ c ∈ s.toList, c.toNat < 128 :=
  fun _ hc => Nat.lt_of_not_le fun hbeyond => h (.string hc hbeyond)

namespace CharWidth

/-- A character that was read has the code of its bytes. -/
theorem toNat_of_charOf {code : Nat} {c : Char} (h : charOf code = .ok c) (hlt : code < 65536) :
    c.toNat = code := by
  unfold charOf at h
  split at h
  · cases h
  · next hsurrogate =>
      cases h
      have hvalid : code.isValidChar := by
        unfold Nat.isValidChar
        omega
      rw [Char.toNat_ofNat, if_pos hvalid]

theorem decode_lt {w : CharWidth} {bs : Bytes} (h : bs.length ≤ w.size) :
    BigEndian.decode bs < 65536 := by
  have hlt := BigEndian.decode_lt bs
  have hsize : bs.length ≤ 2 := Nat.le_trans h (by cases w <;> decide)
  exact Nat.lt_of_lt_of_le hlt (Nat.pow_le_pow_right (n := 256) (by decide) hsize)

/-- The bytes of a character that was read are those it was read from. -/
theorem unit_of_decodeChar {w : CharWidth} {bs : Bytes} {c : Char} (hlength : bs.length = w.size)
    (h : decodeChar bs = .ok c) : w.unit c = bs := by
  rw [unit, toNat_of_charOf h (decode_lt (Nat.le_of_eq hlength)), ← hlength,
    BigEndian.encode_decode]

/-- A character of a text that was read is one of the basic plane. -/
theorem isBasic_of_decodeChar {w : CharWidth} {bs : Bytes} {c : Char} (hlength : bs.length ≤ w.size)
    (h : decodeChar bs = .ok c) : isBasic c = true := by
  have hlt := decode_lt hlength
  rw [isBasic_iff, toNat_of_charOf h hlt]
  exact Nat.le_of_lt_succ hlt

/-- A character that was read is stored as it was, unless it is a narrow one beyond ASCII. -/
theorem charImage_of_decodeChar {w : CharWidth} {bs : Bytes} {c : Char}
    (hlength : bs.length = w.size) (h : decodeChar bs = .ok c)
    (hascii : w = .narrow → ¬ (Value.char c).BeyondAscii) : w.charImage (.char c) = .ok bs := by
  refine charImage_eq_ok_iff.2 ⟨c, rfl, ?_, unit_of_decodeChar hlength h⟩
  cases w with
  | narrow =>
      refine isAscii_iff.2 (Nat.lt_of_not_le ?_)
      intro hbeyond
      exact hascii rfl (.char hbeyond)
  | wide => exact isBasic_of_decodeChar (Nat.le_of_eq hlength) h

end CharWidth

/-- Every character of a counted text that was read is one of the basic plane. -/
theorem isBasic_of_readCounted {w : CharWidth} {bs : Bytes} {offset : Nat} {s : String}
    (h : readCounted w bs offset = .ok s) : ∀ c ∈ s.toList, isBasic c = true := by
  rcases Outcome.bind_eq_ok_iff.1 h with ⟨header, _, htext⟩
  dsimp only at htext
  split at htext
  · cases htext
  · rcases Outcome.bind_eq_ok_iff.1 htext with ⟨units, _, htext⟩
    rcases Outcome.bind_eq_ok_iff.1 htext with ⟨chars, hchars, hs⟩
    cases hs
    intro c hc
    rw [String.toList_ofList] at hc
    rcases Outcome.exists_of_mapM_eq_ok hchars c hc with ⟨unit, hunit, hdecode⟩
    exact CharWidth.isBasic_of_decodeChar (Bytes.length_le_of_mem_pieces hunit) hdecode

/-- The spaces that were cut off come back. -/
theorem rdropWhile_append_spaces (w : Bytes) :
    w.rdropWhile (· == 32) ++ List.replicate (w.length - (w.rdropWhile (· == 32)).length) 32
      = w := by
  have hsplit : w.rdropWhile (· == 32) ++ w.rtakeWhile (· == 32) = w :=
    List.rdropWhile_append_rtakeWhile
  have hall : ∀ b ∈ w.rtakeWhile (· == 32), b = 32 := by
    intro b hb
    have hspace := List.mem_rtakeWhile_imp (p := fun x : UInt8 => x == 32) hb
    exact beq_iff_eq.1 hspace
  have hlength : w.length - (w.rdropWhile (· == 32)).length
      = (w.rtakeWhile (· == 32)).length := by
    have hsum := congrArg List.length hsplit
    rw [List.length_append] at hsum
    omega
  rw [hlength, ← List.eq_replicate_of_mem hall, hsplit]

/-- A padded text is read as the characters of its bytes up to the spaces at the end. -/
theorem toList_decodePadded (w : Bytes) :
    (decodePadded w).toList = (w.rdropWhile (· == 32)).map fun b => Char.ofNat b.toNat := by
  rw [decodePadded, String.toList_ofList, List.rdropWhile]

/-- The character of a byte is stored as the byte. -/
theorem ofNat_toNat_ofNat (b : UInt8) : UInt8.ofNat (Char.ofNat b.toNat).toNat = b := by
  have hvalid : b.toNat.isValidChar := .inl (Nat.lt_trans b.toNat_lt (by decide))
  rw [Char.toNat_ofNat, if_pos hvalid, UInt8.ofNat_toNat]

/-- A padded text that was read is stored as it was. -/
theorem bytes_paddedText_decodePadded (w : Bytes) :
    (paddedText w.length (decodePadded w)).bytes = w := by
  have hle : (w.rdropWhile (· == 32)).length ≤ w.length := (List.rdropWhile_prefix _ _).length_le
  have hhead : (paddedText w.length (decodePadded w)).head = w.rdropWhile (· == 32) := by
    have hkept : kept w.length (decodePadded w) = (decodePadded w).toList :=
      List.take_of_length_le (by rwa [toList_decodePadded, List.length_map])
    have hunits := flatMap_unit_narrow (kept w.length (decodePadded w))
    rw [hkept, toList_decodePadded, List.map_map] at hunits
    calc (paddedText w.length (decodePadded w)).head
        = (kept w.length (decodePadded w)).flatMap CharWidth.narrow.unit := rfl
      _ = w.rdropWhile (· == 32) := by
          rw [hkept, toList_decodePadded, hunits]
          exact List.map_id'' ofNat_toNat_ofNat _
  rw [Image.bytes, hhead]
  exact rdropWhile_append_spaces w

/-- A padded text that was read has an image, unless something in it is beyond ASCII. -/
theorem paddedImage_decodePadded {w : Bytes}
    (h : ¬ (Value.string (decodePadded w)).BeyondAscii) :
    paddedImage w.length (.string (decodePadded w))
      = .ok (paddedText w.length (decodePadded w)) := by
  refine paddedImage_eq_ok_iff.2 ⟨_, rfl, ?_, rfl⟩
  intro c hc
  exact isAscii_iff.2 (Value.lt_of_not_beyondAscii h c hc)

/-- As many raw bytes as there is room for fill their field. -/
theorem rawImage_self (w : Bytes) :
    rawImage w.length (.bytes w) = .ok ⟨w, 0, w.length, Nat.le_refl _⟩ :=
  rawImage_eq_ok_iff.2 ⟨w, Nat.le_refl _, rfl, rfl⟩

/-! ## Times -/

theorem timeImage_decodeTime {w : Bytes} (h : w.length = 4) :
    timeImage (.span (decodeTime w)) = .ok w := by
  have hword : BigEndian.decode w < IntKind.i32.words := by
    rw [IntKind.words, IntKind.size, ← h]
    exact BigEndian.decode_lt w
  refine timeImage_eq_ok_iff.2 ⟨_, rfl, IntValue.holds_wrapped _ _, ?_⟩
  rw [IntKind.toWord_wrapped hword, ← h, BigEndian.encode_decode]

/-- A date that was read is stored as it was. -/
theorem dateImage_of_decodeDate {w : Bytes} {d : Date} (hlength : w.length = 2)
    (h : decodeDate w = .ok d) : dateImage (.date d) = .ok w := by
  simp only [decodeDate] at h
  split at h
  · cases h
  · next hle =>
      cases h
      have hepoch : dayCount epoch = 0 := by decide
      have hcount : dayCount (epoch.addDays (BigEndian.decode w)) = BigEndian.decode w := by
        rw [dayCount_addDays, hepoch, Int.zero_add]
      refine dateImage_eq_ok_iff.2 ⟨_, rfl, ?_, ?_⟩
      · rw [hcount]
        omega
      · rw [hcount, Int.toNat_natCast, ← hlength, BigEndian.encode_decode]

/-- A time of day that was read is stored as it was. -/
theorem timeOfDayImage_of_decodeTimeOfDay {w : Bytes} {t : TimeOfDay} (hlength : w.length = 4)
    (h : decodeTimeOfDay w = .ok t) : timeOfDayImage (.time t) = .ok w := by
  simp only [decodeTimeOfDay] at h
  split at h
  · next hday =>
      cases h
      refine timeOfDayImage_eq_ok_iff.2
        ⟨_, _, rfl, TimeOfDay.dayMillis?_ofMillis _ hday, ?_⟩
      rw [← hlength, BigEndian.encode_decode]
  · cases h

theorem le_of_digitPair {offset n : Nat} {b : UInt8} (h : digitPair offset b = .ok n) :
    n ≤ 99 := by
  unfold digitPair at h
  split at h
  · next hb =>
      cases h
      simp only [Bcd.decode?, Option.ite_none_right_eq_some, Option.some.injEq] at hb
      omega
  · cases h

/-- A span with a time base is a count of three digits of it. -/
theorem S5Time.exists_count_of_decode {offset : Nat} {w : Bytes} {d : Span}
    (h : decode offset w = .ok d) :
    ∃ count code : Nat, count ≤ 999 ∧ code < 4 ∧ d = .ofMillis (count * base code : Nat) := by
  simp only [decode] at h
  split at h
  · cases h
  · next hhundreds =>
      rcases Outcome.map_eq_ok_iff.1 h with ⟨rest, hrest, rfl⟩
      have hle := le_of_digitPair hrest
      exact ⟨_, Bcd.high (w.byte 0) % 4, by omega, Nat.mod_lt _ (by decide), rfl⟩

theorem year_of_dateOf {year month day : Nat} {d : Date} (h : dateOf year month day = .ok d) :
    d.year = year := by
  unfold dateOf at h
  split at h
  · next hparts =>
      cases h
      unfold Date.ofParts? at hparts
      split at hparts
      · cases hparts
        rfl
      · cases hparts
  · cases h

/-- A date and time in decimal digits is represented in them. -/
theorem DateAndTime.represents_of_decode {offset : Nat} {bit : Option Nat} {w : Bytes}
    {t : DateTime} (h : decode offset w = .ok t) :
    FieldType.dateAndTime.Represents bit (.dateTime t) := by
  simp only [decode, Outcome.bind_eq_ok_iff] at h
  rcases h with ⟨year, hyear, month, _, day, _, hour, _, minute, _, second, _, hundredths, _,
    last, _, date, hdate, time, htime, hpure⟩
  cases hpure
  have hle := le_of_digitPair hyear
  have hdateYear := year_of_dateOf hdate
  rcases nanos_of_timeOf htime with ⟨hnanos, hlt⟩
  refine .dateAndTime ?_ ?_ ?_ ?_
  · rw [hdateYear]
    split <;> omega
  · rw [hdateYear]
    split <;> omega
  · rw [TimeOfDay.IsLeap, hnanos]
    exact Nat.not_le.2 hlt
  · rw [TimeOfDay.IsMillis, hnanos]
    exact Nat.dvd_mul_left _ _

/-- A date and time in binary fields is represented in them. -/
theorem DateTimeLong.represents_of_decode {bit : Option Nat} {w : Bytes} {t : DateTime}
    (h : decode w = .ok t) : FieldType.dateTimeLong.Represents bit (.dateTime t) := by
  simp only [decode] at h
  split at h
  · next hyear =>
      rcases Outcome.bind_eq_ok_iff.1 h with ⟨date, hdate, h⟩
      rcases Outcome.bind_eq_ok_iff.1 h with ⟨time, htime, hpure⟩
      cases hpure
      rw [← year_of_dateOf hdate] at hyear
      rcases nanos_of_timeOf htime with ⟨hnanos, hlt⟩
      refine .dateTimeLong hyear.1 hyear.2 ?_
      rw [TimeOfDay.IsLeap, hnanos]
      exact Nat.not_le.2 hlt
  · cases h

/-! ## Fields -/

namespace FieldType

/-- The types of narrow characters, which are read as Latin-1 and written only as ASCII. -/
inductive IsNarrowText : FieldType → Prop where
  | char : IsNarrowText (char .narrow)
  | counted (n : Nat) : IsNarrowText (counted .narrow n)
  | padded (n : Nat) : IsNarrowText (padded n)

/-- The types with more than one stored form of a value: the header and the places behind a
counted text, the time base of a span, and the weekday of a date and time are free. -/
inductive Normalises : FieldType → Prop where
  | counted (w : CharWidth) (n : Nat) : Normalises (counted w n)
  | s5time : Normalises s5time
  | dateAndTime : Normalises dateAndTime
  | dateTimeLong : Normalises dateTimeLong

/-- The part of a value that a field has room for: of a counted text, the first characters. -/
def cut (t : FieldType) (v : Value) : Value :=
  match t, v with
  | counted _ n, .string s => .string (String.ofList (s.toList.take n))
  | _, v => v

/-- Nothing is cut off a value of another type. -/
theorem cut_of_not_normalises {t : FieldType} (h : ¬ t.Normalises) (v : Value) : t.cut v = v := by
  cases t with
  | counted w n => exact absurd (.counted w n) h
  | _ => rfl

variable {t : FieldType} {bs w : Bytes} {offset : Nat} {bit : Option Nat} {v : Value}

/-- An index that was given and lies within the byte is the index of the bit. -/
theorem bit_of_requireBit {n : Nat} {i : Fin 8} (hn : requireBit bit = .ok n)
    (hi : Bit.index n = .ok i) : bit = some i.val := by
  cases bit with
  | none => cases hn
  | some m =>
      cases hn
      unfold Bit.index at hi
      split at hi
      · cases hi
        rfl
      · cases hi

/-- A value of a type with one stored form for each is stored as it was read. -/
theorem exists_patch_put_self (hplain : ¬ t.Normalises)
    (hascii : ¬ (t.IsNarrowText ∧ v.BeyondAscii)) (hwindow : window bs offset t.width = .ok w)
    (h : t.decode bs offset bit = .ok v) : ∃ p, t.patch bit v = .ok p ∧ p.put w = w := by
  have hlength := length_of_window hwindow
  -- Bytes that make the value again are a patch that leaves the window as it is.
  have hbytes : ∀ {x : Except Fault Bytes}, x = .ok w →
      ∃ p, x.map Patch.ofBytes = .ok p ∧ p.put w = w := by
    rintro x rfl
    exact ⟨Patch.ofBytes w, rfl, Patch.put_ofBytes w w⟩
  cases t with
  | bool =>
      simp only [decode, hwindow, Outcome.bind_eq_ok_iff] at h
      rcases h with ⟨n, hn, i, hi, w', hw', hv⟩
      cases hw'
      cases hv
      rcases List.length_eq_one_iff.1 hlength with ⟨b, rfl⟩
      have hbit := bit_of_requireBit hn hi
      refine ⟨.bit i (Bit.get b i), patch_bool_eq_ok_iff.2 ⟨i, Bit.get b i, hbit, rfl, rfl⟩, ?_⟩
      rw [Patch.put, List.map_singleton, Bit.set_get]
  | integer t =>
      simp only [decode, hwindow, Outcome.map_ok, Except.ok.injEq] at h
      subst h
      exact hbytes (IntegerType.image_decode hlength)
  | real =>
      simp only [decode, hwindow, Outcome.map_ok, Except.ok.injEq] at h
      subst h
      exact hbytes (realImage_decodeReal hlength)
  | longReal =>
      simp only [decode, hwindow, Outcome.map_ok, Except.ok.injEq] at h
      subst h
      exact hbytes (longRealImage_decodeLongReal hlength)
  | char width =>
      simp only [decode, hwindow, Except.bind] at h
      rcases Outcome.map_eq_ok_iff.1 h with ⟨c, hc, rfl⟩
      refine hbytes (CharWidth.charImage_of_decodeChar hlength hc ?_)
      rintro rfl hbeyond
      exact hascii ⟨.char, hbeyond⟩
  | padded n =>
      simp only [decode, hwindow, Outcome.map_ok, Except.ok.injEq] at h
      subst h
      obtain rfl : w.length = n := hlength
      have himage := paddedImage_decodePadded fun hbeyond => hascii ⟨.padded _, hbeyond⟩
      exact ⟨_, Outcome.map_eq_ok_iff.2 ⟨_, himage, rfl⟩, bytes_paddedText_decodePadded w⟩
  | raw n =>
      simp only [decode, hwindow, Outcome.map_ok, Except.ok.injEq] at h
      subst h
      obtain rfl : w.length = n := hlength
      exact ⟨_, Outcome.map_eq_ok_iff.2 ⟨_, rawImage_self w, rfl⟩, Image.bytes_ofBytes w⟩
  | time =>
      simp only [decode, hwindow, Outcome.map_ok, Except.ok.injEq] at h
      subst h
      rw [patch]
      exact hbytes (timeImage_decodeTime hlength)
  | date =>
      simp only [decode, hwindow, Except.bind] at h
      rcases Outcome.map_eq_ok_iff.1 h with ⟨d, hd, rfl⟩
      exact hbytes (dateImage_of_decodeDate hlength hd)
  | timeOfDay =>
      simp only [decode, hwindow, Except.bind] at h
      rcases Outcome.map_eq_ok_iff.1 h with ⟨d, hd, rfl⟩
      exact hbytes (timeOfDayImage_of_decodeTimeOfDay hlength hd)
  | counted width n => exact absurd (.counted width n) hplain
  | s5time => exact absurd .s5time hplain
  | dateAndTime => exact absurd .dateAndTime hplain
  | dateTimeLong => exact absurd .dateTimeLong hplain

/-- A value of a type with more than one stored form for some is represented, as it was
read. -/
theorem represents_of_decode (hnormalises : t.Normalises) (hcapacity : t.HasCapacity)
    (hascii : ¬ (t.IsNarrowText ∧ v.BeyondAscii)) (hwindow : window bs offset t.width = .ok w)
    (h : t.decode bs offset bit = .ok v) : t.Represents bit v := by
  cases hnormalises with
  | counted width n =>
      rcases Outcome.map_eq_ok_iff.1 h with ⟨s, hs, rfl⟩
      rcases hcapacity with ⟨hpos, hle⟩
      cases width with
      | narrow =>
          refine .string hpos hle (Value.lt_of_not_beyondAscii ?_)
          intro hbeyond
          exact hascii ⟨.counted n, hbeyond⟩
      | wide =>
          have hbasic := isBasic_of_readCounted hs
          exact .wideString hpos hle fun c hc => isBasic_iff.1 (hbasic c hc)
  | s5time =>
      simp only [decode, hwindow, Except.bind] at h
      rcases Outcome.map_eq_ok_iff.1 h with ⟨d, hd, rfl⟩
      rcases S5Time.exists_count_of_decode hd with ⟨count, code, hcount, hcode, rfl⟩
      exact .s5time hcount (Nat.le_add_left 1 code) hcode
  | dateAndTime =>
      simp only [decode, hwindow, Except.bind] at h
      rcases Outcome.map_eq_ok_iff.1 h with ⟨d, hd, rfl⟩
      exact DateAndTime.represents_of_decode hd
  | dateTimeLong =>
      simp only [decode, hwindow, Except.bind] at h
      rcases Outcome.map_eq_ok_iff.1 h with ⟨d, hd, rfl⟩
      exact DateTimeLong.represents_of_decode hd

/-- A value of a type with more than one stored form for some is stored whole, but for the
characters that a text has no room for. -/
theorem stored_of_represents (hnormalises : t.Normalises) (h : t.Represents bit v) :
    t.stored v = some (t.cut v) := by
  cases hnormalises <;> cases h <;> rfl

/-- A narrow text with something beyond ASCII in it is not represented. -/
theorem not_represents_of_beyondAscii (hnarrow : t.IsNarrowText) (hbeyond : v.BeyondAscii) :
    ¬ t.Represents bit v := by
  intro h
  cases hnarrow with
  | char =>
      cases h with
      | asciiChar hlt =>
          cases hbeyond with
          | char hc => omega
  | counted n =>
      cases h with
      | string _ _ hlt =>
          cases hbeyond with
          | string hmem hc => exact absurd (hlt _ hmem) (Nat.not_lt.2 hc)
  | padded n =>
      cases h with
      | paddedString _ hlt =>
          cases hbeyond with
          | string hmem hc => exact absurd (hlt _ hmem) (Nat.not_lt.2 hc)

/-- A value that was read as a narrow text is refused only as invalid. -/
theorem refusal_of_isNarrowText (hnarrow : t.IsNarrowText)
    (hdecode : t.decode bs offset bit = .ok v) : t.refusal bit v = .invalid := by
  cases hnarrow with
  | char =>
      rcases Outcome.map_eq_ok_iff.1 hdecode with ⟨c, _, rfl⟩
      rfl
  | counted n =>
      rcases Outcome.map_eq_ok_iff.1 hdecode with ⟨s, _, rfl⟩
      rfl
  | padded n =>
      rcases Outcome.map_eq_ok_iff.1 hdecode with ⟨s, _, rfl⟩
      rfl

/-- A value that is cut has the patch of the whole. -/
theorem patch_cut {p : Patch} (h : t.patch bit v = .ok p) : t.patch bit (t.cut v) = .ok p := by
  cases t with
  | counted width n =>
      rcases Outcome.map_eq_ok_iff.1 h with ⟨i, hi, rfl⟩
      rcases countedImage_eq_ok_iff.1 hi with ⟨s, rfl, hcheck, rfl⟩
      rcases checkCounted_eq_ok_iff.1 hcheck with ⟨hcapacity, htakes⟩
      have hkept : kept n (String.ofList (s.toList.take n)) = kept n s := by
        rw [kept, kept, String.toList_ofList, List.take_take, Nat.min_self]
      have hcut : checkCounted width n (String.ofList (s.toList.take n)) = .ok () := by
        refine checkCounted_eq_ok_iff.2 ⟨hcapacity, ?_⟩
        intro c hc
        rw [String.toList_ofList] at hc
        exact htakes c (List.mem_of_mem_take hc)
      have htext : countedText width n (String.ofList (s.toList.take n))
          = countedText width n s := by
        simp only [countedText, hkept]
      exact Outcome.map_eq_ok_iff.2
        ⟨_, countedImage_eq_ok_iff.2 ⟨_, rfl, hcut, htext⟩, rfl⟩
  | _ => exact h

/-- A second write, of what fits, changes nothing. -/
theorem encode_again {after : Bytes} (h : t.encode bs offset bit v = .ok after) :
    t.encode after offset bit (t.cut v) = .ok after := by
  rcases encode_eq_ok_iff.1 h with ⟨p, hpatch, happly⟩
  rcases Patch.apply_eq_ok_iff.1 happly with ⟨hfits, hafter⟩
  have hlength : after.length = bs.length := length_encode h
  have hput : (p.put (bs.slice offset p.width)).length = p.width :=
    p.length_put (Bytes.length_slice hfits)
  have hslice : after.slice offset p.width = p.put (bs.slice offset p.width) := by
    have hroom : offset + (p.put (bs.slice offset p.width)).length ≤ bs.length := by rwa [hput]
    have hwritten := Bytes.slice_overwrite hroom
    rwa [hput, ← hafter] at hwritten
  have hfits' : offset + p.width ≤ after.length := by rwa [hlength]
  refine encode_eq_ok_iff.2 ⟨p, patch_cut hpatch, Patch.apply_eq_ok_iff.2 ⟨hfits', ?_⟩⟩
  rw [hslice, Patch.put_put, ← hslice, Bytes.overwrite_slice hfits']

/-- A value that was read from a field of a type which a word names is written to it again,
unless it is a narrow text with something beyond ASCII in it, which is invalid.  After the
write it is read again, as far as the field has room for it, and writing that once more
changes nothing.  For the types with one stored form of each value, already the first write
changes nothing. -/
theorem encode_decoded {word : String} {length : Option Nat} {t : FieldType}
    (ht : ofWord word length = .ok t) {bs : Bytes} {offset : Nat} {bit : Option Nat} {v : Value}
    (hfits : offset + t.width ≤ bs.length) (h : t.decode bs offset bit = .ok v) :
    (t.IsNarrowText ∧ v.BeyondAscii →
      ∃ fault, t.encode bs offset bit v = .error fault ∧ fault.kind = .invalid)
    ∧ (¬ (t.IsNarrowText ∧ v.BeyondAscii) →
      ∃ after, t.encode bs offset bit v = .ok after
        ∧ t.decode after offset bit = .ok (t.cut v)
        ∧ t.encode after offset bit (t.cut v) = .ok after
        ∧ (¬ t.Normalises → after = bs)) := by
  have hwindow : window bs offset t.width = .ok (bs.slice offset t.width) := if_pos hfits
  constructor
  · rintro ⟨hnarrow, hbeyond⟩
    cases hpatch : t.patch bit v with
    | ok p =>
        have hrepresents := represents_of_patch hpatch
        exact absurd hrepresents (not_represents_of_beyondAscii hnarrow hbeyond)
    | error fault =>
        refine ⟨fault, encode_of_patch_error hpatch bs offset, ?_⟩
        rw [kind_of_patch_error hpatch, refusal_of_isNarrowText hnarrow h]
  · intro hascii
    by_cases hnormalises : t.Normalises
    · have hcapacity := (ofWord_eq_ok_iff.1 ht).hasCapacity
      have hrepresents := represents_of_decode hnormalises hcapacity hascii hwindow h
      rcases exists_encode_iff.2 ⟨hfits, hrepresents⟩ with ⟨after, hafter⟩
      rcases decode_after_encode hafter with ⟨u, hstored, hdecode⟩
      rw [stored_of_represents hnormalises hrepresents] at hstored
      cases hstored
      exact ⟨after, hafter, hdecode, encode_again hafter, fun hnot => absurd hnormalises hnot⟩
    · rcases exists_patch_put_self hnormalises hascii hwindow h with ⟨p, hpatch, hput⟩
      have hself : t.encode bs offset bit v = .ok bs := by
        rw [← width_patch hpatch] at hfits hput
        refine encode_eq_ok_iff.2 ⟨p, hpatch, Patch.apply_eq_ok_iff.2 ⟨hfits, ?_⟩⟩
        rw [hput, Bytes.overwrite_slice hfits]
      have hcut : t.cut v = v := cut_of_not_normalises hnormalises v
      exact ⟨bs, hself, by rw [hcut, h], encode_again hself, fun _ => rfl⟩

/-- A header that tells of more characters than are declared is brought back to the declared
capacity, which cuts the text off.  A character of Latin-1 is read, and not written. -/
theorem encode_decoded_at_long_header :
    ofWord "string" (some 3) = .ok (counted .narrow 3)
    ∧ (counted .narrow 3).decode [7, 5, 4, 97, 98, 99, 100, 7] 1 none = .ok (.string "abcd")
    ∧ (∃ after, (counted .narrow 3).encode [7, 5, 4, 97, 98, 99, 100, 7] 1 none (.string "abcd")
        = .ok after ∧ (counted .narrow 3).decode after 1 none = .ok (.string "abc")
        ∧ (counted .narrow 3).encode after 1 none (.string "abc") = .ok after)
    ∧ ofWord "char" none = .ok (char .narrow)
    ∧ (char .narrow).decode [233] 0 none = .ok (.char 'é')
    ∧ ∃ fault, (char .narrow).encode [233] 0 none (.char 'é') = .error fault
        ∧ fault.kind = .invalid := by
  have hstring : ofWord "string" (some 3) = .ok (counted .narrow 3) := by decide +kernel
  have hlong : (counted .narrow 3).decode [7, 5, 4, 97, 98, 99, 100, 7] 1 none
      = .ok (.string "abcd") := by decide +kernel
  have hchar : ofWord "char" none = .ok (char .narrow) := by decide +kernel
  have hlatin : (char .narrow).decode [233] 0 none = .ok (.char 'é') := by decide +kernel
  have hascii : ∀ c ∈ "abcd".toList, c.toNat < 128 := by simp
  have hplain : ¬ ((counted .narrow 3).IsNarrowText ∧ (Value.string "abcd").BeyondAscii) := by
    rintro ⟨_, hbeyond⟩
    cases hbeyond with
    | string hmem hc => exact absurd (hascii _ hmem) (Nat.not_lt.2 hc)
  rcases (encode_decoded hstring (by decide) hlong).2 hplain with
    ⟨after, hafter, hdecode, hagain, _⟩
  exact ⟨hstring, hlong, ⟨after, hafter, hdecode, hagain⟩, hchar, hlatin,
    (encode_decoded hchar (by decide) hlatin).1 ⟨.char, .char (by decide)⟩⟩

end FieldType
end DataBlock
