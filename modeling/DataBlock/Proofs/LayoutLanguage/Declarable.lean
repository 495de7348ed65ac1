import DataBlock.Proofs.LayoutLanguage

/-!
# Fields that a text can declare

A field can be declared by a line if its name is a token, and its address and its type,
as they are printed, are an address and a type of the language.  Every field of a layout
that was read is such a field: its numbers are within their limits, and its type is named
by the word that is printed for it.

Main results:

- `FieldType.Named.name`: a type is named by its own name with its length.
- `IsType.text`: what is printed for a type is read as the type.
- `Field.isAddress_address`: what is printed for an address is read as the address.
- `Field.Declarable`: the fields that a line of a text can declare.
- `Layout.declarable_of_parse`: the fields of a layout that was read can be declared.
-/

namespace DataBlock

/-! ## Numbers -/

theorem isDigits_toString (n : Nat) : IsDigits (toString n).toList := by
  have hdigits : (toString n).toList = Nat.toDigits 10 n := by simp
  rw [hdigits]
  constructor
  · exact Nat.toDigits_ne_nil
  · intro c hc
    exact Nat.isDigit_of_mem_toDigits (by decide) (by decide) hc

/-- A number below the limit of addresses is written in digits that stand for it. -/
theorem isNumber_toString {n : Nat} (h : n < 2 ^ (64 : Nat)) :
    IsNumber (toString n).toList n := by
  have hdigits : (toString n).toList = Decimal.digits n := by simp [Decimal.digits]
  refine ⟨isDigits_toString n, ?_, h⟩
  rw [hdigits, Decimal.value_digits]

/-! ## Types -/

namespace FieldType

/-- The name of every type is one of the words for types. -/
theorem name_mem_words (t : FieldType) :
    t.name ∈ sizedWords.map Prod.fst ++ plainWords.map Prod.fst := by
  cases t with
  | integer t => cases t <;> decide
  | char width => cases width <;> decide
  | counted width n => cases width <;> simp [name, sizedWords]
  | padded n => simp [name, sizedWords]
  | raw n => simp [name, sizedWords]
  | _ => decide

/-- The name of a type is a word in capital letters. -/
theorem isWord_name (t : FieldType) :
    IsWord t.name.toList ∧ t.name.map Char.toUpper = t.name := by
  have hall : ∀ word ∈ sizedWords.map Prod.fst ++ plainWords.map Prod.fst,
      word.toList.head?.any Char.isAlpha = true
        ∧ word.toList.all (fun c => isWordChar c && c.toUpper == c) = true := by decide
  rcases hall t.name t.name_mem_words with ⟨hhead, hword⟩
  have hchars : ∀ c ∈ t.name.toList, isWordChar c = true ∧ c.toUpper = c := by
    simpa using hword
  constructor
  · cases hname : t.name.toList with
    | nil =>
        rw [hname] at hhead
        cases hhead
    | cons c cs =>
        rw [hname] at hhead hchars
        refine ⟨c, cs, rfl, hhead, ?_⟩
        intro d hd
        exact (hchars d (List.mem_cons_of_mem _ hd)).1
  · apply String.toList_injective
    rw [String.toList_map]
    refine (List.map_congr_left ?_).trans (List.map_id _)
    intro c hc
    exact (hchars c hc).2

/-- The name of a type without a length is one of the words for it. -/
theorem name_mem_plainNames {word : String} {t : FieldType} (h : word ∈ t.plainNames) :
    t.name ∈ t.plainNames ∧ t.length? = none := by
  cases t with
  | integer t => cases t <;> decide
  | char width => cases width <;> decide
  | counted width n => cases h
  | padded n => cases h
  | raw n => cases h
  | _ => decide

/-- A type that some word names is named by its own name with its length. -/
theorem Named.name {word : String} {length : Option Nat} {t : FieldType}
    (h : Named word length t) : Named t.name t.length? t := by
  cases h with
  | plain hmem =>
      rcases name_mem_plainNames hmem with ⟨hname, hlength⟩
      rw [hlength]
      exact .plain hname
  | string hpos hle => exact .string hpos hle
  | usualString => exact .string (by decide) (by decide)
  | wideString hpos hle => exact .wideString hpos hle
  | usualWideString => exact .wideString (by decide) (by decide)
  | paddedString hpos => exact .paddedString hpos
  | bytes hpos => exact .bytes hpos

/-- The length of a type that a word names is the one that is given, or the usual one. -/
theorem Named.length_lt {word : String} {length : Option Nat} {t : FieldType}
    (h : Named word length t) (hlength : ∀ n ∈ length, n < 2 ^ (64 : Nat)) :
    ∀ n ∈ t.length?, n < 2 ^ (64 : Nat) := by
  intro n hn
  cases h with
  | plain hmem =>
      rw [(name_mem_plainNames hmem).2] at hn
      cases hn
  | usualString =>
      cases hn
      decide
  | usualWideString =>
      cases hn
      decide
  | string hpos hle => exact hlength n hn
  | wideString hpos hle => exact hlength n hn
  | paddedString hpos => exact hlength n hn
  | bytes hpos => exact hlength n hn

end FieldType

/-- What is printed for a type that a token can give is such a token. -/
theorem IsType.text {token : List Char} {t : FieldType} (h : IsType token t) :
    IsType t.text.toList t := by
  rcases t.isWord_name with ⟨hword, hupper⟩
  have hnamed : FieldType.Named ((String.ofList t.name.toList).map Char.toUpper) t.length? t := by
    rw [String.ofList_toList, hupper]
    cases h with
    | word _ hnamed => exact hnamed.name
    | sized _ _ hnamed => exact hnamed.name
  have hlt : ∀ n ∈ t.length?, n < 2 ^ (64 : Nat) := by
    cases h with
    | word _ hnamed => exact hnamed.length_lt (by simp)
    | sized _ hlength hnamed =>
        apply hnamed.length_lt
        intro n hn
        cases hn
        exact hlength.2.2
  unfold FieldType.text
  cases hlength : t.length? with
  | none =>
      rw [hlength] at hnamed
      exact .word hword hnamed
  | some n =>
      rw [hlength] at hnamed
      have htext : (t.name ++ "[" ++ toString n ++ "]").toList
          = t.name.toList ++ '[' :: ((toString n).toList ++ [']']) := by simp
      rw [htext]
      exact .sized hword (isNumber_toString (hlt n hlength)) hnamed

/-! ## Addresses -/

/-- What is printed for an address within the limits is an address. -/
theorem Field.isAddress_address {f : Field} (hoffset : f.offset < 2 ^ (64 : Nat))
    (hbit : ∀ i ∈ f.bit, i ≤ 7) : IsAddress f.address.toList f.offset f.bit := by
  unfold Field.address
  cases h : f.bit with
  | none => exact .byte (isNumber_toString hoffset)
  | some i =>
      have hle : i ≤ 7 := hbit i h
      have htext : (toString f.offset ++ "." ++ toString i).toList
          = (toString f.offset).toList ++ '.' :: (toString i).toList := by simp
      rw [htext]
      exact .bit (isNumber_toString hoffset) (isNumber_toString (by omega)) hle

/-- A token that is an address gives numbers within the limits. -/
theorem IsAddress.within {token : List Char} {offset : Nat} {bit : Option Nat}
    (h : IsAddress token offset bit) : offset < 2 ^ (64 : Nat) ∧ ∀ i ∈ bit, i ≤ 7 := by
  cases h with
  | byte hbyte => exact ⟨hbyte.2.2, by simp⟩
  | bit hbyte hbit hle =>
      refine ⟨hbyte.2.2, ?_⟩
      intro i hi
      cases hi
      exact hle

theorem IsAddress.isNameChar {token : List Char} {offset : Nat} {bit : Option Nat}
    (h : IsAddress token offset bit) : token ≠ [] ∧ ∀ c ∈ token, isNameChar c = true := by
  rcases h.exists_parts with ⟨byte, bits, rfl, hbyte, hbits, _, _⟩
  exact ⟨Entry.addressText_ne_nil hbyte, Entry.isNameChar_addressText hbyte hbits⟩

theorem IsType.isNameChar {token : List Char} {t : FieldType} (h : IsType token t) :
    token ≠ [] ∧ ∀ c ∈ token, isNameChar c = true := by
  rcases h.exists_parts with ⟨word, digits, _, rfl, hword, hdigits, _, _⟩
  refine ⟨List.append_ne_nil_of_left_ne_nil hword.ne_nil _, ?_⟩
  intro c hc
  rcases List.mem_append.1 hc with hc | hc
  · exact hword.isNameChar c hc
  · exact Entry.isNameChar_lengthText hdigits c hc

/-! ## Line ends -/

theorem IsDigits.isLineEnd {cs : List Char} (h : IsDigits cs) : ∀ c ∈ cs, isLineEnd c = false := by
  intro c hc
  apply isLineEnd_of_isWordChar
  simp [isWordChar, Char.isAlphanum, h.2 c hc]

theorem IsWord.isLineEnd {cs : List Char} (h : IsWord cs) : ∀ c ∈ cs, isLineEnd c = false := by
  rcases h with ⟨d, rest, rfl, hd, hrest⟩
  intro c hc
  apply isLineEnd_of_isWordChar
  rcases List.mem_cons.1 hc with rfl | hc
  · exact isWordChar_of_isAlpha hd
  · exact hrest c hc

/-- An address does not end a line. -/
theorem IsAddress.isLineEnd {token : List Char} {offset : Nat} {bit : Option Nat}
    (h : IsAddress token offset bit) : ∀ c ∈ token, isLineEnd c = false := by
  cases h with
  | byte hbyte => exact hbyte.1.isLineEnd
  | bit hbyte hbit hle =>
      rw [List.forall_mem_append, List.forall_mem_cons]
      exact ⟨hbyte.1.isLineEnd, by decide, hbit.1.isLineEnd⟩

/-- A type does not end a line. -/
theorem IsType.isLineEnd {token : List Char} {t : FieldType} (h : IsType token t) :
    ∀ c ∈ token, isLineEnd c = false := by
  cases h with
  | word hword _ => exact hword.isLineEnd
  | sized hword hlength _ =>
      rw [List.forall_mem_append, List.forall_mem_cons, List.forall_mem_append]
      exact ⟨hword.isLineEnd, by decide, hlength.1.isLineEnd, by simp [DataBlock.isLineEnd]⟩

/-! ## Fields that a line can declare -/

/-- A line of a text can declare the field: its name is a token, and its numbers and its
type are within the limits of the language. -/
structure Field.Declarable (f : Field) : Prop where
  name_ne_nil : f.name.toList ≠ []
  name_chars : ∀ c ∈ f.name.toList, isNameChar c = true ∧ isLineEnd c = false
  address : IsAddress f.address.toList f.offset f.bit
  type : IsType f.type.text.toList f.type
  bit : f.bit ≠ none ↔ f.type = .bool

/-- The field that the tokens of a line describe is declared by the line. -/
theorem declarable_of_describes {line : List Char} {f : Field}
    (hline : ∀ c ∈ line, isLineEnd c = false) (h : Describes (tokens line) f) :
    f.Declarable := by
  generalize hwords : tokens line = words at h
  cases h with
  | @entry _ name _ _ haddress hname htype hbit =>
      rcases haddress.within with ⟨hoffset, hle⟩
      rcases exists_of_tokens_eq_cons hwords with ⟨rest, hfront, _, _, _, hrest⟩
      rcases exists_of_tokens_eq_cons hrest with ⟨rest', hfront', hne, hchars, _, _⟩
      have htoList : f.name.toList = name := by rw [hname, String.toList_ofList]
      refine ⟨by rwa [htoList], ?_, f.isAddress_address hoffset hle, htype.text, hbit⟩
      intro c hc
      rw [htoList] at hc
      refine ⟨hchars c hc, hline c ?_⟩
      apply List.dropWhile_subset (p := isGap)
      rw [hfront]
      apply List.mem_append_right
      apply List.dropWhile_subset (p := isGap)
      rw [hfront']
      exact List.mem_append_left _ hc

/-- The fields of a layout that was read can be declared. -/
theorem Layout.declarable_of_parse {text : String} {l : Layout}
    (h : (parse text).value = .ok l) : ∀ f ∈ l.fields, f.Declarable := by
  intro f hf
  have hlines := parse_eq_ok_iff.1 h
  rcases List.mem_iff_getElem.1 hf with ⟨i, hi, rfl⟩
  rw [List.forall₂_iff_get] at hlines
  have hi' : i < (tokenLines (cutLines text.toList)).length := hlines.1 ▸ hi
  have hdescribes := hlines.2 i hi' hi
  have hmem := List.get_mem (tokenLines (cutLines text.toList)) ⟨i, hi'⟩
  rcases List.mem_map.1 (List.mem_of_mem_filter hmem) with ⟨line, hline, hwords⟩
  rw [← hwords] at hdescribes
  exact declarable_of_describes (not_isLineEnd_of_mem_cutLines hline) hdescribes

end DataBlock
