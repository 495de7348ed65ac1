import DataBlock.Fault.Outcome
import DataBlock.Proofs.LayoutLanguage.Reader

/-!
# Tokens that describe a field

What the three tokens of an entry have to be to describe a field: an address, a name and a
type, with their numbers within their limits.

Main results:

- `FieldType.Named`: the words for the types, with the lengths that they take.
- `FieldType.ofWord_eq_ok_iff`: a word is read as the type that it names.
- `Describes`: the tokens of an entry for a field.
- `describes_iff`: the tokens of a line describe the field of its entry.
-/

namespace DataBlock

/-! ## Words for types -/

namespace FieldType

/-- The words, in capitals, that name a type which takes no length. -/
def plainNames : FieldType → List String
  | bool => ["BOOL"]
  | integer .byte => ["BYTE"]
  | integer .usint => ["USINT"]
  | integer .sint => ["SINT"]
  | integer .uint => ["UINT", "WORD"]
  | integer .int => ["INT"]
  | integer .udint => ["UDINT", "DWORD"]
  | integer .dint => ["DINT"]
  | real => ["REAL"]
  | longReal => ["LREAL"]
  | char .narrow => ["CHAR"]
  | char .wide => ["WCHAR"]
  | s5time => ["S5TIME"]
  | time => ["TIME"]
  | date => ["DATE"]
  | timeOfDay => ["TOD", "TIME_OF_DAY"]
  | dateAndTime => ["DT", "DATE_AND_TIME"]
  | dateTimeLong => ["DTL"]
  | counted _ _ | padded _ | raw _ => []

/-- The word, in capitals, and the length, if there is one, name the type. -/
inductive Named : String → Option Nat → FieldType → Prop where
  | plain {word : String} {t : FieldType} (h : word ∈ t.plainNames) : Named word none t
  | string {n : Nat} (hpos : 1 ≤ n) (hle : n ≤ 254) :
      Named "STRING" (some n) (counted .narrow n)
  | usualString : Named "STRING" none (counted .narrow 254)
  | wideString {n : Nat} (hpos : 1 ≤ n) (hle : n ≤ 16382) :
      Named "WSTRING" (some n) (counted .wide n)
  | usualWideString : Named "WSTRING" none (counted .wide 254)
  | paddedString {n : Nat} (hpos : 1 ≤ n) : Named "FSTRING" (some n) (padded n)
  | bytes {n : Nat} (hpos : 1 ≤ n) : Named "BYTES" (some n) (raw n)

/-- Every entry of the table of words names its type. -/
theorem mem_plainNames_of_lookup {word : String} {t : FieldType}
    (h : plainWords.lookup word = some t) : word ∈ t.plainNames := by
  have hall : ∀ entry ∈ plainWords, entry.1 ∈ entry.2.plainNames := by decide
  rcases List.lookup_eq_some_iff.1 h with ⟨before, after, htable, _⟩
  exact hall (word, t) (by rw [htable]; simp)

/-- The words that take no length are in the table of those, and in no other. -/
theorem lookup_of_mem_plainNames {word : String} {t : FieldType} (h : word ∈ t.plainNames) :
    sizedWords.lookup word = none ∧ plainWords.lookup word = some t := by
  have hall : ∀ name ∈ t.plainNames,
      (sizedWords.lookup name).isNone ∧ plainWords.lookup name = some t := by
    cases t with
    | integer t => cases t <;> decide
    | char width => cases width <;> decide
    | counted width n =>
        intro name hname
        cases hname
    | padded n =>
        intro name hname
        cases hname
    | raw n =>
        intro name hname
        cases hname
    | _ => decide
  rcases hall word h with ⟨hsized, hplain⟩
  exact ⟨Option.isNone_iff_eq_none.1 hsized, hplain⟩

/-- A family builds every type of a positive length within its limit. -/
theorem Sizing.build_of_within {s : Sizing} {length : Option Nat} {n : Nat} (word : String)
    (hlength : length.or s.usual = some n) (hpos : 1 ≤ n)
    (hlimit : ∀ limit ∈ s.limit, n ≤ limit) : s.build word length = .ok (s.make n) := by
  rcases Nat.exists_eq_add_of_le' hpos with ⟨m, rfl⟩
  unfold build
  rw [hlength]
  cases h : s.limit with
  | none => rfl
  | some limit =>
      have hle : ¬ limit < m + 1 := Nat.not_lt.2 (hlimit limit h)
      simp only [if_neg hle]

/-- A word for types with a length names exactly the types of its family. -/
theorem named_of_build {upper : String} {sizing : Sizing} {length : Option Nat}
    {t : FieldType} (hlookup : sizedWords.lookup upper = some sizing)
    (h : sizing.build upper length = .ok t) : Named upper length t := by
  rcases Sizing.build_eq_ok h with ⟨n, hlength, hpos, hlimit, rfl⟩
  rcases List.lookup_eq_some_iff.1 hlookup with ⟨before, after, htable, _⟩
  have hmem : (upper, sizing) ∈ sizedWords := by rw [htable]; simp
  simp only [sizedWords, List.mem_cons, List.not_mem_nil, or_false, Prod.mk.injEq] at hmem
  rcases hmem with ⟨rfl, rfl⟩ | ⟨rfl, rfl⟩ | ⟨rfl, rfl⟩ | ⟨rfl, rfl⟩
  · cases length with
    | none =>
        cases hlength
        exact .usualString
    | some m =>
        cases hlength
        exact .string hpos (hlimit _ rfl)
  · cases length with
    | none =>
        cases hlength
        exact .usualWideString
    | some m =>
        cases hlength
        exact .wideString hpos (hlimit _ rfl)
  · cases length with
    | none => cases hlength
    | some m =>
        cases hlength
        exact .paddedString hpos
  · cases length with
    | none => cases hlength
    | some m =>
        cases hlength
        exact .bytes hpos

/-- A word that is read as a type names it in capital letters. -/
theorem named_of_ofWord {word : String} {length : Option Nat} {t : FieldType}
    (h : ofWord word length = .ok t) : Named (word.map Char.toUpper) length t := by
  unfold ofWord at h
  generalize word.map Char.toUpper = upper at h ⊢
  simp only at h
  cases hsized : sizedWords.lookup upper with
  | some sizing =>
      rw [hsized] at h
      exact named_of_build hsized h
  | none =>
      rw [hsized] at h
      cases hplain : plainWords.lookup upper with
      | none =>
          rw [hplain] at h
          cases h
      | some u =>
          rw [hplain] at h
          cases length with
          | none =>
              cases h
              exact .plain (mem_plainNames_of_lookup hplain)
          | some n => cases h

/-- A word that names a type in capital letters is read as it. -/
theorem ofWord_of_named {word : String} {length : Option Nat} {t : FieldType}
    (h : Named (word.map Char.toUpper) length t) : ofWord word length = .ok t := by
  unfold ofWord
  generalize word.map Char.toUpper = upper at h ⊢
  simp only
  cases h with
  | plain hmem =>
      rcases lookup_of_mem_plainNames hmem with ⟨hsized, hplain⟩
      rw [hsized, hplain]
  | string hpos hle =>
      apply Sizing.build_of_within _ rfl hpos
      intro limit hlimit
      cases hlimit
      exact hle
  | usualString => rfl
  | wideString hpos hle =>
      apply Sizing.build_of_within _ rfl hpos
      intro limit hlimit
      cases hlimit
      exact hle
  | usualWideString => rfl
  | paddedString hpos =>
      apply Sizing.build_of_within _ rfl hpos
      intro limit hlimit
      cases hlimit
  | bytes hpos =>
      apply Sizing.build_of_within _ rfl hpos
      intro limit hlimit
      cases hlimit

/-- A word is read as the type that it names in capital letters. -/
theorem ofWord_eq_ok_iff {word : String} {length : Option Nat} {t : FieldType} :
    ofWord word length = .ok t ↔ Named (word.map Char.toUpper) length t :=
  ⟨named_of_ofWord, ofWord_of_named⟩

end FieldType

/-! ## Tokens of an entry -/

/-- A run of digits that stands for a number below the limit of addresses. -/
def IsNumber (digits : List Char) (n : Nat) : Prop :=
  IsDigits digits ∧ Decimal.value digits = n ∧ n < 2 ^ (64 : Nat)

/-- A token is an address: a byte index, and a bit index up to seven if there is a point. -/
inductive IsAddress : List Char → Nat → Option Nat → Prop where
  | byte {digits : List Char} {n : Nat} (hbyte : IsNumber digits n) : IsAddress digits n none
  | bit {digits bits : List Char} {n i : Nat} (hbyte : IsNumber digits n)
      (hbit : IsNumber bits i) (hle : i ≤ 7) : IsAddress (digits ++ '.' :: bits) n (some i)

/-- A token is a type: a word that names it, and a length in brackets if it is given. -/
inductive IsType : List Char → FieldType → Prop where
  | word {word : List Char} {t : FieldType} (hword : IsWord word)
      (hnamed : FieldType.Named ((String.ofList word).map Char.toUpper) none t) : IsType word t
  | sized {word digits : List Char} {n : Nat} {t : FieldType} (hword : IsWord word)
      (hlength : IsNumber digits n)
      (hnamed : FieldType.Named ((String.ofList word).map Char.toUpper) (some n) t) :
      IsType (word ++ '[' :: (digits ++ [']'])) t

/-- The tokens of a line describe a field: an address, any name and a type, where a single
bit, and nothing else, has a bit index. -/
inductive Describes : List (List Char) → Field → Prop where
  | entry {address name type : List Char} {f : Field} (haddress : IsAddress address f.offset f.bit)
      (hname : f.name = String.ofList name) (htype : IsType type f.type)
      (hbit : f.bit ≠ none ↔ f.type = .bool) : Describes [address, name, type] f

namespace Entry

theorem number_eq_ok_iff {digits : List Char} {n : Nat} :
    number digits = .ok n ↔ Decimal.value digits = n ∧ n < 2 ^ (64 : Nat) := by
  unfold number
  split
  · next hlt =>
      rw [Except.ok.injEq]
      constructor
      · rintro rfl
        exact ⟨rfl, hlt⟩
      · intro h
        rcases h with ⟨hvalue, _⟩
        exact hvalue
  · next hge =>
      constructor
      · intro h
        cases h
      · intro h
        rcases h with ⟨rfl, hlt⟩
        exact absurd hlt hge

theorem bitNumber_eq_ok_iff {digits : List Char} {i : Nat} :
    bitNumber digits = .ok i ↔ number digits = .ok i ∧ i ≤ 7 := by
  unfold bitNumber
  rw [Outcome.bind_eq_ok_iff]
  constructor
  · intro h
    rcases h with ⟨j, hj, hle⟩
    split at hle
    · next hseven =>
        cases hle
        exact ⟨hj, hseven⟩
    · cases hle
  · intro h
    rcases h with ⟨hi, hle⟩
    exact ⟨i, hi, if_pos hle⟩

/-- A part of an entry that need not be given is read where it is. -/
theorem mapM_eq_ok_iff {α : Type} {f : List Char → Except EntryFault α}
    {part : Option (List Char)} {a : Option α} :
    part.mapM f = .ok a ↔ (part = none ∧ a = none)
      ∨ ∃ cs b, part = some cs ∧ f cs = .ok b ∧ a = some b := by
  cases part with
  | none => simp [pure, Except.pure, eq_comm]
  | some cs => cases h : f cs <;> simp [h, Functor.map, Except.map, eq_comm]

/-- An entry describes a field if its numbers are within their limits, its word names a
type with its length, and a bit index is given for a single bit and for nothing else. -/
theorem field_eq_ok_iff {e : Entry} {f : Field} :
    e.field = .ok f ↔ number e.byte = .ok f.offset ∧ e.bit.mapM bitNumber = .ok f.bit
      ∧ (∃ length, e.length.mapM number = .ok length
        ∧ FieldType.ofWord (String.ofList e.word) length = .ok f.type)
      ∧ (f.bit ≠ none ↔ f.type = .bool) ∧ f.name = String.ofList e.name := by
  unfold field
  simp only [Outcome.bind_eq_ok_iff, Outcome.mapError_eq_ok_iff]
  constructor
  · intro h
    rcases h with ⟨offset, hoffset, bit, hbit, length, hlength, type, htype, h⟩
    split at h
    · cases h
    · next hmissing =>
        split at h
        · cases h
        · next hneedless =>
            cases h
            refine ⟨hoffset, hbit, ⟨length, hlength, htype⟩, ?_, rfl⟩
            constructor
            · intro hsome
              by_contra hne
              exact hneedless ⟨hne, hsome⟩
            · intro hbool hnone
              exact hmissing ⟨hbool, hnone⟩
  · intro h
    rcases h with ⟨hoffset, hbit, ⟨length, hlength, htype⟩, hiff, hname⟩
    refine ⟨f.offset, hoffset, f.bit, hbit, length, hlength, f.type, htype, ?_⟩
    rw [if_neg fun h => hiff.2 h.1 h.2, if_neg fun h => h.1 (hiff.1 h.2), ← hname]

end Entry

/-! ## Entries and the fields that they describe -/

/-- The tokens of an entry describe the field that is read from it. -/
theorem describes_of_field {e : Entry} {f : Field} (hentry : e.WellFormed)
    (h : e.field = .ok f) : Describes e.words f := by
  rcases Entry.field_eq_ok_iff.1 h with ⟨hoffset, hbit, ⟨length, hlength, htype⟩, hiff, hname⟩
  rw [FieldType.ofWord_eq_ok_iff] at htype
  have hbyte : IsNumber e.byte f.offset := ⟨hentry.byte, Entry.number_eq_ok_iff.1 hoffset⟩
  refine Describes.entry ?_ hname ?_ hiff
  · rcases Entry.mapM_eq_ok_iff.1 hbit with ⟨hnone, hnone'⟩ | ⟨bits, i, hsome, hi, hsome'⟩
    · rw [hnone, hnone']
      exact .byte hbyte
    · rcases Entry.bitNumber_eq_ok_iff.1 hi with ⟨hnumber, hle⟩
      rw [hsome, hsome']
      exact .bit hbyte ⟨hentry.bit bits hsome, Entry.number_eq_ok_iff.1 hnumber⟩ hle
  · rcases Entry.mapM_eq_ok_iff.1 hlength with ⟨hnone, rfl⟩ | ⟨digits, n, hsome, hn, rfl⟩
    · rw [hnone, Entry.lengthText, List.append_nil]
      exact .word hentry.word htype
    · rw [hsome]
      exact .sized hentry.word ⟨hentry.length digits hsome, Entry.number_eq_ok_iff.1 hn⟩ htype

/-- A token that is an address has the parts that the reader looks for. -/
theorem IsAddress.exists_parts {token : List Char} {offset : Nat} {bit : Option Nat}
    (h : IsAddress token offset bit) :
    ∃ byte bits, token = Entry.addressText byte bits ∧ IsDigits byte
      ∧ (∀ digits ∈ bits, IsDigits digits) ∧ Entry.number byte = .ok offset
      ∧ bits.mapM Entry.bitNumber = .ok bit := by
  cases h with
  | byte hbyte =>
      refine ⟨_, none, rfl, hbyte.1, ?_, Entry.number_eq_ok_iff.2 hbyte.2, rfl⟩
      intro digits hmem
      cases hmem
  | @bit _ bits _ i hbyte hbit hle =>
      refine ⟨_, some bits, rfl, hbyte.1, ?_, Entry.number_eq_ok_iff.2 hbyte.2, ?_⟩
      · intro digits hmem
        cases hmem
        exact hbit.1
      · refine Entry.mapM_eq_ok_iff.2 (.inr ⟨bits, i, rfl, ?_, rfl⟩)
        exact Entry.bitNumber_eq_ok_iff.2 ⟨Entry.number_eq_ok_iff.2 hbit.2, hle⟩

/-- A token that is a type has the parts that the reader looks for. -/
theorem IsType.exists_parts {token : List Char} {t : FieldType} (h : IsType token t) :
    ∃ word digits length, token = word ++ Entry.lengthText digits ∧ IsWord word
      ∧ (∀ ds ∈ digits, IsDigits ds) ∧ digits.mapM Entry.number = .ok length
      ∧ FieldType.ofWord (String.ofList word) length = .ok t := by
  cases h with
  | word hword hnamed =>
      refine ⟨token, none, none, (List.append_nil _).symm, hword, ?_, rfl,
        FieldType.ofWord_eq_ok_iff.2 hnamed⟩
      intro ds hmem
      cases hmem
  | @sized word digits n _ hword hlength hnamed =>
      refine ⟨word, some digits, some n, rfl, hword, ?_, ?_,
        FieldType.ofWord_eq_ok_iff.2 hnamed⟩
      · intro ds hmem
        cases hmem
        exact hlength.1
      · exact Entry.mapM_eq_ok_iff.2
          (.inr ⟨digits, n, rfl, Entry.number_eq_ok_iff.2 hlength.2, rfl⟩)

/-- Tokens describe a field exactly if they are those of an entry for it. -/
theorem describes_iff {words : List (List Char)} {f : Field} :
    Describes words f ↔ ∃ e : Entry, e.WellFormed ∧ words = e.words ∧ e.field = .ok f := by
  constructor
  · intro h
    cases h with
    | @entry _ name _ _ haddress hname htype hbit =>
        rcases haddress.exists_parts with ⟨byte, bits, rfl, hbyte, hbits, hoffset, hi⟩
        rcases htype.exists_parts with ⟨word, digits, length, rfl, hword, hdigits, hn, hof⟩
        refine ⟨⟨byte, bits, name, word, digits⟩, ⟨hbyte, hbits, hword, hdigits⟩, rfl, ?_⟩
        exact Entry.field_eq_ok_iff.2 ⟨hoffset, hi, ⟨length, hn, hof⟩, hbit, hname⟩
  · intro h
    rcases h with ⟨e, hentry, rfl, h⟩
    exact describes_of_field hentry h

end DataBlock
