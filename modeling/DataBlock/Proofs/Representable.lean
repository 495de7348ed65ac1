import DataBlock.Proofs.Displacement
import DataBlock.Proofs.RoundTrip

/-!
# Which values a type stores

A value is written to a field exactly if its type represents the value and the field lies
within the buffer.  A value that its type does not represent is refused with the same fault
everywhere; the buffer is not asked.

Main results:

- `FieldType.Represents`: the values of each type, by their ranges.
- `FieldType.exists_patch_iff`: the values that can be written are those represented.
- `FieldType.encode_accepts_iff`: when a write succeeds, and with what fault it fails.
-/

namespace DataBlock

/-! ## Integers -/

namespace IntegerType

/-- The smallest number that a type stores. -/
def least : IntegerType → Int
  | byte | usint | uint | udint => 0
  | sint => -128
  | int => -32768
  | dint => -2147483648

/-- The largest number that a type stores. -/
def greatest : IntegerType → Int
  | byte | usint => 255
  | sint => 127
  | uint => 65535
  | int => 32767
  | udint => 4294967295
  | dint => 2147483647

/-- The kind of a type holds the numbers from the smallest to the largest. -/
theorem holds_kind_iff (t : IntegerType) (n : Int) :
    t.kind.Holds n ↔ t.least ≤ n ∧ n ≤ t.greatest := by
  cases t <;> exact Iff.rfl

end IntegerType

/-! ## Characters -/

theorem isAscii_iff {c : Char} : isAscii c = true ↔ c.toNat < 128 :=
  decide_eq_true_iff

theorem isBasic_iff {c : Char} : isBasic c = true ↔ c.toNat ≤ 0xffff :=
  decide_eq_true_iff.trans Nat.lt_succ_iff

/-! ## Spans -/

namespace S5Time

/-- A count of up to three digits with one of the four time bases has a form, perhaps with a
finer base. -/
theorem exists_form? {count : Nat} (hcount : count ≤ 999) {code : Nat} (hcode : code < 4) :
    ∃ code' count', form? (count * base code) = some (code', count') := by
  have hpos : 0 < base code := Nat.pow_pos (by decide)
  have hsome : (form? (count * base code)).isSome := by
    rw [form?, List.findSome?_isSome_iff]
    refine ⟨code, List.mem_range.2 hcode, ?_⟩
    rw [if_pos ⟨Nat.mul_mod_left _ _, by rwa [Nat.mul_div_cancel _ hpos]⟩]
    rfl
  rcases Option.isSome_iff_exists.1 hsome with ⟨⟨code', count'⟩, hform⟩
  exact ⟨code', count', hform⟩

end S5Time

/-! ## Dates -/

/-- The last date that is stored as a count of days. -/
def lastDate : Date :=
  ⟨2168, 12, 31, by decide, by decide⟩

/-- A date is counted from the epoch on if it lies in the year of the epoch or after it. -/
theorem dayCount_nonneg_iff (d : Date) : 0 ≤ dayCount d ↔ 1990 ≤ d.year := by
  have hday := d.day_valid
  have hepoch : epoch.ordinal = daysBeforeYear 1990 + 1 := by decide
  rw [dayCount]
  constructor
  · intro h
    by_contra hyear
    have hlt : d.ordinal < epoch.ordinal := Date.ordinal_lt_of_year_lt (Int.not_le.1 hyear)
    omega
  · intro h
    have hyear := daysBeforeYear_mono h
    rw [hepoch, Date.ordinal]
    omega

/-- The count of a date reaches its limit in the year of the last date. -/
theorem dayCount_le_iff (d : Date) : dayCount d ≤ lastDayCount ↔ d.year ≤ 2168 := by
  have hlast : dayCount lastDate = lastDayCount := by decide
  have hend : lastDate.ordinal = daysBeforeYear 2169 := by decide
  rw [← hlast, dayCount, dayCount]
  constructor
  · intro h
    by_contra hyear
    have hlt : lastDate.ordinal < d.ordinal := Date.ordinal_lt_of_year_lt (Int.not_le.1 hyear)
    omega
  · intro h
    have hwithin := d.ordinal_le_daysBeforeYear_add_one
    have hyear : daysBeforeYear (d.year + 1) ≤ daysBeforeYear 2169 :=
      daysBeforeYear_mono (by omega)
    omega

/-! ## Times of day -/

namespace TimeOfDay

/-- A time is a whole number of milliseconds. -/
def IsMillis (t : TimeOfDay) : Prop :=
  nanosPerMilli ∣ t.nanos

/-- A time has milliseconds if it is no leap second and has nothing finer. -/
theorem exists_millis?_iff {t : TimeOfDay} :
    (∃ ms, t.millis? = some ms) ↔ ¬ t.IsLeap ∧ t.IsMillis := by
  unfold millis? IsLeap IsMillis
  rw [Nat.not_le, Nat.dvd_iff_mod_eq_zero]
  by_cases h : t.nanos < nanosPerSecond ∧ t.nanos % nanosPerMilli = 0 <;> simp [h]

theorem exists_dayMillis?_iff {t : TimeOfDay} :
    (∃ ms, t.dayMillis? = some ms) ↔ ¬ t.IsLeap ∧ t.IsMillis := by
  rw [← exists_millis?_iff]
  simp [dayMillis?, Option.map_eq_some_iff]

end TimeOfDay

/-! ## Representable values -/

namespace FieldType

/-- The type represents the value, where a single bit needs its index within the byte. -/
inductive Represents : FieldType → Option Nat → Value → Prop where
  | bit {i : Nat} (hi : i ≤ 7) (b : Bool) : Represents bool (some i) (.bool b)
  | zeroOrOne {i : Nat} {n : IntValue} (hi : i ≤ 7) (hn : n.number = 0 ∨ n.number = 1) :
      Represents bool (some i) (.integer n)
  | integer {t : IntegerType} {bit : Option Nat} {n : IntValue} (hleast : t.least ≤ n.number)
      (hgreatest : n.number ≤ t.greatest) : Represents (integer t) bit (.integer n)
  | real (bit : Option Nat) (bits : UInt32) : Represents real bit (.single bits)
  | longReal (bit : Option Nat) (bits : UInt64) : Represents longReal bit (.double bits)
  | widened (bit : Option Nat) (bits : UInt32) : Represents longReal bit (.single bits)
  | asciiChar {bit : Option Nat} {c : Char} (hc : c.toNat < 128) :
      Represents (char .narrow) bit (.char c)
  | basicChar {bit : Option Nat} {c : Char} (hc : c.toNat ≤ 0xffff) :
      Represents (char .wide) bit (.char c)
  | string {bit : Option Nat} {n : Nat} {s : String} (hpos : 1 ≤ n) (hle : n ≤ 254)
      (hs : ∀ c ∈ s.toList, c.toNat < 128) : Represents (counted .narrow n) bit (.string s)
  | wideString {bit : Option Nat} {n : Nat} {s : String} (hpos : 1 ≤ n) (hle : n ≤ 16382)
      (hs : ∀ c ∈ s.toList, c.toNat ≤ 0xffff) : Represents (counted .wide n) bit (.string s)
  | paddedString {bit : Option Nat} (n : Nat) {s : String} (hs : ∀ c ∈ s.toList, c.toNat < 128) :
      Represents (padded n) bit (.string s)
  | bytes {bit : Option Nat} {n : Nat} {bs : Bytes} (hle : bs.length ≤ n) :
      Represents (raw n) bit (.bytes bs)
  | s5time {bit : Option Nat} {count k : Nat} (hcount : count ≤ 999) (hpos : 1 ≤ k) (hle : k ≤ 4) :
      Represents s5time bit (.span (.ofMillis (count * 10 ^ k : Nat)))
  | time {bit : Option Nat} {ms : Int} (hleast : -2147483648 ≤ ms) (hgreatest : ms ≤ 2147483647) :
      Represents time bit (.span (.ofMillis ms))
  /-- The years are whole ones: from 1990-01-01 to 2168-12-31. -/
  | date {bit : Option Nat} {d : Date} (hfirst : 1990 ≤ d.year) (hlast : d.year ≤ 2168) :
      Represents date bit (.date d)
  | timeOfDay {bit : Option Nat} {t : TimeOfDay} (hleap : ¬ t.IsLeap) (hmillis : t.IsMillis) :
      Represents timeOfDay bit (.time t)
  | dateAndTime {bit : Option Nat} {t : DateTime} (hfirst : 1990 ≤ t.date.year)
      (hlast : t.date.year ≤ 2089) (hleap : ¬ t.time.IsLeap) (hmillis : t.time.IsMillis) :
      Represents dateAndTime bit (.dateTime t)
  | dateTimeLong {bit : Option Nat} {t : DateTime} (hfirst : 1970 ≤ t.date.year)
      (hlast : t.date.year ≤ 2262) (hleap : ¬ t.time.IsLeap) :
      Represents dateTimeLong bit (.dateTime t)

variable {t : FieldType} {bit : Option Nat} {v : Value}

/-- A value that can be written is represented. -/
theorem represents_of_patch {p : Patch} (h : t.patch bit v = .ok p) : t.Represents bit v := by
  cases t with
  | bool =>
      rcases patch_bool_eq_ok_iff.1 h with ⟨i, b, rfl, hb, _⟩
      have hi : i.val ≤ 7 := by omega
      rcases truth_eq_ok_iff.1 hb with rfl | ⟨n, rfl, hn⟩
      · exact .bit hi b
      · refine .zeroOrOne hi ?_
        cases b with
        | false => exact .inl hn
        | true => exact .inr hn
  | integer t =>
      rcases Outcome.map_eq_ok_iff.1 h with ⟨w, hw, _⟩
      rcases IntegerType.image_eq_ok_iff.1 hw with ⟨n, rfl, hholds, _⟩
      rcases (t.holds_kind_iff n.number).1 hholds with ⟨hleast, hgreatest⟩
      exact .integer hleast hgreatest
  | real =>
      rcases Outcome.map_eq_ok_iff.1 h with ⟨w, hw, _⟩
      rcases realImage_eq_ok_iff.1 hw with ⟨bits, rfl, _⟩
      exact .real bit bits
  | longReal =>
      rcases Outcome.map_eq_ok_iff.1 h with ⟨w, hw, _⟩
      rcases longRealImage_eq_ok_iff.1 hw with ⟨bits, hbits, _⟩
      cases v with
      | single narrow => exact .widened bit narrow
      | double wide => exact .longReal bit wide
      | _ => cases hbits
  | char width =>
      rcases Outcome.map_eq_ok_iff.1 h with ⟨w, hw, _⟩
      rcases CharWidth.charImage_eq_ok_iff.1 hw with ⟨c, rfl, htakes, _⟩
      cases width with
      | narrow => exact .asciiChar (isAscii_iff.1 htakes)
      | wide => exact .basicChar (isBasic_iff.1 htakes)
  | counted width n =>
      rcases Outcome.map_eq_ok_iff.1 h with ⟨i, hi, _⟩
      rcases countedImage_eq_ok_iff.1 hi with ⟨s, rfl, hcheck, _⟩
      rcases checkCounted_eq_ok_iff.1 hcheck with ⟨⟨hpos, hle⟩, htakes⟩
      cases width with
      | narrow => exact .string hpos hle fun c hc => isAscii_iff.1 (htakes c hc)
      | wide => exact .wideString hpos hle fun c hc => isBasic_iff.1 (htakes c hc)
  | padded n =>
      rcases Outcome.map_eq_ok_iff.1 h with ⟨i, hi, _⟩
      rcases paddedImage_eq_ok_iff.1 hi with ⟨s, rfl, hascii, _⟩
      exact .paddedString n fun c hc => isAscii_iff.1 (hascii c hc)
  | raw n =>
      rcases Outcome.map_eq_ok_iff.1 h with ⟨i, hi, _⟩
      rcases rawImage_eq_ok_iff.1 hi with ⟨bs, hle, rfl, _⟩
      exact .bytes hle
  | s5time =>
      rcases Outcome.map_eq_ok_iff.1 h with ⟨w, hw, _⟩
      rcases S5Time.image_eq_ok_iff.1 hw with ⟨ms, code, count, rfl, hform, _⟩
      rcases S5Time.form?_sound hform with ⟨hcode, hcount, rfl⟩
      exact .s5time hcount (Nat.le_add_left 1 code) hcode
  | time =>
      rcases Outcome.map_eq_ok_iff.1 h with ⟨w, hw, _⟩
      rcases timeImage_eq_ok_iff.1 hw with ⟨ms, rfl, ⟨hleast, hgreatest⟩, _⟩
      exact .time hleast hgreatest
  | date =>
      rcases Outcome.map_eq_ok_iff.1 h with ⟨w, hw, _⟩
      rcases dateImage_eq_ok_iff.1 hw with ⟨d, rfl, ⟨hfirst, hlast⟩, _⟩
      exact .date ((dayCount_nonneg_iff d).1 hfirst) ((dayCount_le_iff d).1 hlast)
  | timeOfDay =>
      rcases Outcome.map_eq_ok_iff.1 h with ⟨w, hw, _⟩
      rcases timeOfDayImage_eq_ok_iff.1 hw with ⟨t, ms, rfl, hms, _⟩
      rcases TimeOfDay.exists_dayMillis?_iff.1 ⟨ms, hms⟩ with ⟨hleap, hmillis⟩
      exact .timeOfDay hleap hmillis
  | dateAndTime =>
      rcases Outcome.map_eq_ok_iff.1 h with ⟨w, hw, _⟩
      rcases DateAndTime.image_eq_ok_iff.1 hw with ⟨t, ms, rfl, ⟨hfirst, hlast⟩, hms, _⟩
      rcases TimeOfDay.exists_millis?_iff.1 ⟨ms, hms⟩ with ⟨hleap, hmillis⟩
      exact .dateAndTime hfirst hlast hleap hmillis
  | dateTimeLong =>
      rcases Outcome.map_eq_ok_iff.1 h with ⟨w, hw, _⟩
      rcases DateTimeLong.image_eq_ok_iff.1 hw with ⟨t, rfl, ⟨hfirst, hlast⟩, hleap, _⟩
      exact .dateTimeLong hfirst hlast hleap

/-- The bytes of a value make a patch. -/
theorem exists_patch_of_map {α : Type} {x : Except Fault α} {f : α → Patch} {a : α}
    (h : x = .ok a) : ∃ p, x.map f = .ok p :=
  ⟨f a, Outcome.map_eq_ok_iff.2 ⟨a, h, rfl⟩⟩

/-- A value that is represented can be written. -/
theorem Represents.exists_patch (h : t.Represents bit v) : ∃ p, t.patch bit v = .ok p := by
  cases h with
  | @bit i hi b =>
      exact ⟨_, patch_bool_eq_ok_iff.2 ⟨⟨i, by omega⟩, b, rfl, rfl, rfl⟩⟩
  | @zeroOrOne i n hi hn =>
      rcases hn with hn | hn
      · exact ⟨_, patch_bool_eq_ok_iff.2
          ⟨⟨i, by omega⟩, false, rfl, truth_integer_eq_ok_iff.2 hn, rfl⟩⟩
      · exact ⟨_, patch_bool_eq_ok_iff.2
          ⟨⟨i, by omega⟩, true, rfl, truth_integer_eq_ok_iff.2 hn, rfl⟩⟩
  | @integer t _ n hleast hgreatest =>
      have hholds := (t.holds_kind_iff n.number).2 ⟨hleast, hgreatest⟩
      exact exists_patch_of_map (IntegerType.image_eq_ok_iff.2 ⟨n, rfl, hholds, rfl⟩)
  | real bit bits => exact exists_patch_of_map (realImage_eq_ok_iff.2 ⟨bits, rfl, rfl⟩)
  | longReal bit bits =>
      have hdouble : (Value.double bits).double? = some bits := rfl
      exact exists_patch_of_map (longRealImage_eq_ok_iff.2 ⟨bits, hdouble, rfl⟩)
  | widened bit bits =>
      have hdouble : (Value.single bits).double?
          = some (UInt64.ofNat (Binary.widen bits.toNat)) := rfl
      exact exists_patch_of_map (longRealImage_eq_ok_iff.2 ⟨_, hdouble, rfl⟩)
  | asciiChar hc =>
      have htakes := isAscii_iff.2 hc
      exact exists_patch_of_map (CharWidth.charImage_eq_ok_iff.2 ⟨_, rfl, htakes, rfl⟩)
  | basicChar hc =>
      have htakes := isBasic_iff.2 hc
      exact exists_patch_of_map (CharWidth.charImage_eq_ok_iff.2 ⟨_, rfl, htakes, rfl⟩)
  | @string _ n s hpos hle hs =>
      have hcheck : checkCounted .narrow n s = .ok () :=
        checkCounted_eq_ok_iff.2 ⟨⟨hpos, hle⟩, fun c hc => isAscii_iff.2 (hs c hc)⟩
      exact exists_patch_of_map (countedImage_eq_ok_iff.2 ⟨s, rfl, hcheck, rfl⟩)
  | @wideString _ n s hpos hle hs =>
      have hcheck : checkCounted .wide n s = .ok () :=
        checkCounted_eq_ok_iff.2 ⟨⟨hpos, hle⟩, fun c hc => isBasic_iff.2 (hs c hc)⟩
      exact exists_patch_of_map (countedImage_eq_ok_iff.2 ⟨s, rfl, hcheck, rfl⟩)
  | @paddedString _ n s hs =>
      have hascii : ∀ c ∈ s.toList, isAscii c = true := fun c hc => isAscii_iff.2 (hs c hc)
      exact exists_patch_of_map (paddedImage_eq_ok_iff.2 ⟨s, rfl, hascii, rfl⟩)
  | bytes hle => exact exists_patch_of_map (rawImage_eq_ok_iff.2 ⟨_, hle, rfl, rfl⟩)
  | @s5time _ count k hcount hpos hle =>
      obtain ⟨code, rfl⟩ : ∃ code, k = code + 1 := ⟨k - 1, by omega⟩
      rcases S5Time.exists_form? hcount (Nat.lt_of_succ_le hle) with ⟨code', count', hform⟩
      exact exists_patch_of_map (S5Time.image_eq_ok_iff.2 ⟨_, _, _, rfl, hform, rfl⟩)
  | time hleast hgreatest =>
      exact exists_patch_of_map (timeImage_eq_ok_iff.2 ⟨_, rfl, ⟨hleast, hgreatest⟩, rfl⟩)
  | @date _ d hfirst hlast =>
      have hrange := And.intro ((dayCount_nonneg_iff d).2 hfirst) ((dayCount_le_iff d).2 hlast)
      exact exists_patch_of_map (dateImage_eq_ok_iff.2 ⟨d, rfl, hrange, rfl⟩)
  | timeOfDay hleap hmillis =>
      rcases TimeOfDay.exists_dayMillis?_iff.2 ⟨hleap, hmillis⟩ with ⟨ms, hms⟩
      exact exists_patch_of_map (timeOfDayImage_eq_ok_iff.2 ⟨_, ms, rfl, hms, rfl⟩)
  | dateAndTime hfirst hlast hleap hmillis =>
      rcases TimeOfDay.exists_millis?_iff.2 ⟨hleap, hmillis⟩ with ⟨ms, hms⟩
      exact exists_patch_of_map (DateAndTime.image_eq_ok_iff.2
        ⟨_, ms, rfl, ⟨hfirst, hlast⟩, hms, rfl⟩)
  | dateTimeLong hfirst hlast hleap =>
      exact exists_patch_of_map (DateTimeLong.image_eq_ok_iff.2
        ⟨_, rfl, ⟨hfirst, hlast⟩, hleap, rfl⟩)

/-- The values that can be written are those represented. -/
theorem exists_patch_iff : (∃ p, t.patch bit v = .ok p) ↔ t.Represents bit v := by
  constructor
  · rintro ⟨p, hp⟩
    exact represents_of_patch hp
  · exact Represents.exists_patch

/-! ## Refused values -/

/-- The kind of fault with which a value that is not represented is refused.  Values of
another kind than the type stores are a mismatch, numbers, times and too many bytes are out
of range, and characters, capacities and bit indices are invalid. -/
def refusal (t : FieldType) (bit : Option Nat) (v : Value) : FaultKind :=
  match t, v with
  | bool, .bool _ => .invalid
  | bool, .integer n =>
      if bit = none ∨ n.number = 0 ∨ n.number = 1 then .invalid else .outOfRange
  | bool, _ => if bit = none then .invalid else .typeMismatch
  | char _, .char _ | counted _ _, .string _ | padded _, .string _ => .invalid
  | integer _, .integer _ | raw _, .bytes _ | s5time, .span _ | time, .span _ | date, .date _
  | timeOfDay, .time _ | dateAndTime, .dateTime _ | dateTimeLong, .dateTime _ => .outOfRange
  | _, _ => .typeMismatch

/-- A bit with a truth value is refused for its index alone. -/
theorem kind_of_patch_truth_error {b : Bool} {fault : Fault} (hb : truth v = .ok b)
    (h : bool.patch bit v = .error fault) : fault.kind = .invalid := by
  cases bit with
  | none =>
      cases h
      rfl
  | some i =>
      simp only [patch, requireBit, hb, Outcome.ok_bind, Bit.index] at h
      split at h
      · cases h
      · cases h
        rfl

/-- A bit that cannot be written is refused for its index or for its value. -/
theorem kind_of_patch_bool_error {fault : Fault} (h : bool.patch bit v = .error fault) :
    fault.kind = bool.refusal bit v := by
  cases v with
  | bool b => exact kind_of_patch_truth_error rfl h
  | integer n =>
      by_cases hn : n.number = 0 ∨ n.number = 1
      · obtain ⟨b, hb⟩ : ∃ b : Bool, n.number = b.toInt := by
          rcases hn with hn | hn
          · exact ⟨false, hn⟩
          · exact ⟨true, hn⟩
        rw [refusal, if_pos (.inr hn)]
        exact kind_of_patch_truth_error (truth_integer_eq_ok_iff.2 hb) h
      · have htruth : truth (.integer n) = .error (.outOfRange (.notABit n)) := by
          rw [not_or] at hn
          rw [truth, if_neg hn.1, if_neg hn.2]
        cases bit with
        | none =>
            cases h
            rw [refusal, if_pos (.inl rfl)]
            rfl
        | some i =>
            rw [patch, requireBit, Outcome.ok_bind, htruth] at h
            cases h
            rw [refusal, if_neg (by simpa using hn)]
            rfl
  | _ =>
      cases bit with
      | none =>
          cases h
          rfl
      | some i =>
          cases h
          rfl

/-- A counted text is refused for its characters or for its capacity. -/
theorem kind_of_checkCounted_error {w : CharWidth} {n : Nat} {s : String} {fault : Fault}
    (h : checkCounted w n s = .error fault) : fault.kind = .invalid := by
  have hcapacity : Outcome.Faults (fun e : Fault => e.kind = .invalid) (checkCapacity w n) := by
    unfold checkCapacity
    split
    · exact Outcome.faults_ok ()
    · exact Outcome.faults_error rfl
  have hascii : Outcome.Faults (fun e : Fault => e.kind = .invalid)
      (checkAscii (.counted .narrow n) s) := by
    unfold checkAscii
    split
    · exact Outcome.faults_ok ()
    · exact Outcome.faults_error rfl
  have hbasic : Outcome.Faults (fun e : Fault => e.kind = .invalid) (checkBasic s) := by
    unfold checkBasic
    split
    · exact Outcome.faults_error rfl
    · exact Outcome.faults_ok ()
  cases w with
  | narrow => exact Outcome.faults_bind hascii (fun _ _ => hcapacity) fault h
  | wide => exact Outcome.faults_bind hcapacity (fun _ _ => hbasic) fault h

/-- A value that cannot be written is refused with a fault of its kind. -/
theorem kind_of_patch_error {fault : Fault} (h : t.patch bit v = .error fault) :
    fault.kind = t.refusal bit v := by
  cases t with
  | bool => exact kind_of_patch_bool_error h
  | counted width n =>
      cases v with
      | string s =>
          rw [patch, countedImage, Outcome.map_eq_error_iff, Outcome.map_eq_error_iff] at h
          exact kind_of_checkCounted_error h
      | _ =>
          cases h
          rfl
  | char width =>
      cases v with
      | char c =>
          cases width
          all_goals
            rw [patch, Outcome.map_eq_error_iff, CharWidth.charImage] at h
            split at h
          all_goals cases h
          all_goals rfl
      | _ =>
          cases h
          rfl
  | _ =>
      -- The others look at the kind of the value, and then at its range or its characters.
      rw [patch, Outcome.map_eq_error_iff] at h
      cases v
      all_goals
        simp only [IntegerType.image, realImage, longRealImage, paddedImage, checkAscii, rawImage,
          S5Time.image, timeImage, dateImage, timeOfDayImage, DateAndTime.image,
          DateTimeLong.image, Value.single?, Value.double?, mismatch] at h
        repeat' split at h
      all_goals cases h
      all_goals rfl

/-! ## Writes -/

variable {bs : Bytes} {offset : Nat}

/-- A value that cannot be written is refused before the buffer is looked at. -/
theorem encode_of_patch_error {fault : Fault} (h : t.patch bit v = .error fault) (bs : Bytes)
    (offset : Nat) : t.encode bs offset bit v = .error fault := by
  rw [encode, Change.result, run_write, h]

/-- A value that can be written is refused where the field does not lie within the buffer. -/
theorem encode_of_length_lt {p : Patch} (h : t.patch bit v = .ok p)
    (hlength : bs.length < offset + t.width) :
    t.encode bs offset bit v = .error (.bufferTooSmall offset t.width bs.length) := by
  have hwindow : window bs offset p.width = .error (.bufferTooSmall offset t.width bs.length) := by
    rw [width_patch h]
    exact if_neg (Nat.not_le.2 hlength)
  rw [encode, Change.result, run_write, h]
  simp only [Patch.run_write, hwindow]

/-- A write succeeds exactly if the field lies within the buffer and its type represents the
value. -/
theorem exists_encode_iff :
    (∃ after, t.encode bs offset bit v = .ok after) ↔
      offset + t.width ≤ bs.length ∧ t.Represents bit v := by
  constructor
  · rintro ⟨after, h⟩
    rcases encode_eq_ok_iff.1 h with ⟨p, hpatch, happly⟩
    have hfits := (Patch.apply_eq_ok_iff.1 happly).1
    rw [width_patch hpatch] at hfits
    exact ⟨hfits, represents_of_patch hpatch⟩
  · rintro ⟨hfits, hrepresents⟩
    rcases hrepresents.exists_patch with ⟨p, hpatch⟩
    rw [← width_patch hpatch] at hfits
    exact ⟨_, encode_eq_ok_iff.2 ⟨p, hpatch, Patch.apply_eq_ok_iff.2 ⟨hfits, rfl⟩⟩⟩

/-- A write succeeds exactly if the field lies within the buffer and its type represents the
value.  A value that is represented fails only for a buffer that ends too early.  One that is
not is refused with the same fault wherever it is to go, also where the buffer ends too
early. -/
theorem encode_accepts_iff (t : FieldType) (bit : Option Nat) (v : Value) :
    (∀ (bs : Bytes) (offset : Nat), (∃ after, t.encode bs offset bit v = .ok after) ↔
      offset + t.width ≤ bs.length ∧ t.Represents bit v)
    ∧ (t.Represents bit v → ∀ (bs : Bytes) (offset : Nat), bs.length < offset + t.width →
      t.encode bs offset bit v = .error (.bufferTooSmall offset t.width bs.length))
    ∧ (¬ t.Represents bit v → ∃ fault : Fault, fault.kind = t.refusal bit v ∧
      ∀ (bs : Bytes) (offset : Nat), t.encode bs offset bit v = .error fault) := by
  refine ⟨fun bs offset => exists_encode_iff, ?_, ?_⟩
  · intro hrepresents bs offset hlength
    rcases hrepresents.exists_patch with ⟨p, hpatch⟩
    exact encode_of_length_lt hpatch hlength
  · intro hnot
    cases hpatch : t.patch bit v with
    | ok p => exact absurd (represents_of_patch hpatch) hnot
    | error fault => exact ⟨fault, kind_of_patch_error hpatch, encode_of_patch_error hpatch⟩

/-- The longest span with a time base has 999 counts of ten seconds.  It fits where two bytes
are left; one count more is out of range everywhere. -/
theorem encode_accepts_iff_at_longest_span :
    s5time.Represents none (.span (.ofMillis 9990000))
    ∧ (∃ after, s5time.encode [7, 7, 7] 1 none (.span (.ofMillis 9990000)) = .ok after)
    ∧ s5time.encode [7, 7, 7] 2 none (.span (.ofMillis 9990000)) = .error (.bufferTooSmall 2 2 3)
    ∧ ¬ s5time.Represents none (.span (.ofMillis 10000000))
    ∧ ∃ fault : Fault, fault.kind = .outOfRange ∧
      ∀ bs offset, s5time.encode bs offset none (.span (.ofMillis 10000000)) = .error fault := by
  have hlongest : s5time.Represents none (.span (.ofMillis (999 * 10 ^ 4 : Nat))) :=
    .s5time (by decide) (by decide) (by decide)
  have hlonger : ¬ s5time.Represents none (.span (.ofMillis 10000000)) := by
    intro h
    rcases h.exists_patch with ⟨p, hp⟩
    cases hp
  rcases encode_accepts_iff s5time none (.span (.ofMillis 9990000)) with ⟨haccepts, hsmall, _⟩
  refine ⟨hlongest, (haccepts [7, 7, 7] 1).2 ⟨by decide, hlongest⟩,
    hsmall hlongest [7, 7, 7] 2 (by decide), hlonger, ?_⟩
  exact (encode_accepts_iff s5time none (.span (.ofMillis 10000000))).2.2 hlonger

end FieldType
end DataBlock
