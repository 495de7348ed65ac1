import DataBlock.Dump
import DataBlock.Proofs.RowListing

/-!
# Byte dumps are aligned

A dump has a line of indices, a line of decimal values and a line of characters.  The values of
bytes stand one behind the other with a comma after each, the characters stand under their first
digits and the commas under the commas.  The index of every fifth byte stands above its value: as
five values with their commas take ten columns at least, and an index of a byte below 10 ^ 10 has no
more than ten digits, an index never runs into the next one.

Main results:

- `Dump.standsAt_flatMap`: where a part of a text stands that is made of parts.
- `Dump.labels_indicesFrom`: what stands in the line of indices, from any byte on.
- `Dump.text_aligned`: the three lines of a dump.
-/

namespace DataBlock
namespace Dump

/-! ## Columns -/

/-- The columns that the value of a byte takes, with its comma. -/
def width (b : UInt8) : Nat :=
  (Decimal.digits b.toNat).length + 1

/-- The column at which the value of a byte begins: the columns that all values before it take. -/
def column (bs : Bytes) (k : Nat) : Nat :=
  ((bs.take k).map width).sum

@[simp] theorem column_zero (bs : Bytes) : column bs 0 = 0 :=
  rfl

@[simp] theorem column_cons_succ (b : UInt8) (bs : Bytes) (k : Nat) :
    column (b :: bs) (k + 1) = width b + column bs k :=
  rfl

/-- A value takes a digit and a comma at least. -/
theorem two_le_width (b : UInt8) : 2 ≤ width b := by
  have hpos : 0 < (Decimal.digits b.toNat).length := Nat.length_toDigits_pos
  exact Nat.succ_le_succ hpos

/-- A text stands in a line from a column on. -/
def StandsAt (text line : List Char) (column : Nat) : Prop :=
  ∃ before after, line = before ++ (text ++ after) ∧ before.length = column

/-- What is made of a byte stands in the column of the byte, if as many columns are made of each
byte as its value takes. -/
theorem standsAt_flatMap {cell : UInt8 → List Char} (hcell : ∀ b, (cell b).length = width b)
    {bs : Bytes} {k : Nat} (h : k < bs.length) :
    StandsAt (cell bs[k]) (bs.flatMap cell) (column bs k) := by
  refine ⟨(bs.take k).flatMap cell, (bs.drop (k + 1)).flatMap cell, ?_, ?_⟩
  · rw [← List.flatMap_cons, ← List.drop_eq_getElem_cons h, ← List.flatMap_append,
      List.take_append_drop]
  · rw [List.length_flatMap, column]
    simp only [hcell]

theorem length_valueCell (b : UInt8) : (valueCell b).length = width b :=
  List.length_append

/-! ## Commas -/

/-- A byte is shown as a letter or a digit, or as a space. -/
theorem isAlphanum_character_or (b : UInt8) :
    (character b).isAlphanum = true ∨ character b = ' ' := by
  unfold character
  dsimp only
  split
  · next h => exact .inl h
  · exact .inr rfl

theorem character_ne_comma (b : UInt8) : character b ≠ ',' := by
  intro heq
  rcases isAlphanum_character_or b with h | h
  · exact absurd (heq ▸ h) (by decide)
  · exact absurd (heq ▸ h) (by decide)

theorem map_comma_digits (n : Nat) :
    (Decimal.digits n).map (· == ',') = List.replicate (Decimal.digits n).length false := by
  rw [List.map_eq_replicate_iff]
  intro c hc
  rw [beq_eq_false_iff_ne]
  rintro rfl
  exact absurd (Decimal.isDigit_of_mem_digits hc) (by decide)

/-- Of what is made of a byte, only the last column has a comma in either line. -/
theorem commas_cell (b : UInt8) :
    (characterCell b).map (· == ',') = (valueCell b).map (· == ',') := by
  have hpos : 0 < (Decimal.digits b.toNat).length := Nat.length_toDigits_pos
  obtain ⟨d, hd⟩ := Nat.exists_eq_add_of_lt hpos
  rw [characterCell, valueCell, List.map_cons, List.map_append, List.map_append, map_comma_digits,
    beq_eq_false_iff_ne.2 (character_ne_comma b), List.map_replicate, hd]
  simp [List.replicate_succ]

theorem getElem?_eq_comma_iff {cs : List Char} {p : Nat} :
    cs[p]? = some ',' ↔ (cs.map (· == ','))[p]? = some true := by
  rw [List.getElem?_map]
  cases cs[p]? <;> simp

theorem commas_characters (bs : Bytes) :
    (characters bs).map (· == ',') = (values bs).map (· == ',') := by
  simp only [characters, values, List.map_flatMap, commas_cell]

/-! ## Indices -/

/-- What is written in the line of indices from a byte on, whose value begins at `start`, behind
`written` columns of the line: each index that is due stands at the column of its byte, and there is
nothing but spaces beside the indices. -/
structure Labels (first start written : Nat) (bs : Bytes) (cs : List Char) : Prop where
  label_at : ∀ k < bs.length, 5 ∣ first + k → ∃ before after,
    cs = before ++ (Decimal.digits (first + k) ++ after)
      ∧ written + before.length = start + column bs k
  blank : ∀ p c, cs[p]? = some c → c ≠ ' ' → ∃ k < bs.length, 5 ∣ first + k
    ∧ start + column bs k ≤ written + p
    ∧ written + p < start + column bs k + (Decimal.digits (first + k)).length

namespace Labels

variable {first start written : Nat} {b : UInt8} {bs : Bytes} {cs : List Char}

/-- In front of a byte that no index is due for, nothing is written. -/
theorem skip (h : Labels (first + 1) (start + width b) written bs cs) (hfirst : ¬ 5 ∣ first) :
    Labels first start written (b :: bs) cs where
  label_at k hk hdvd := by
    cases k with
    | zero => exact absurd hdvd hfirst
    | succ k =>
        have hnext : first + (k + 1) = first + 1 + k := by omega
        rw [hnext] at hdvd ⊢
        rw [column_cons_succ, ← Nat.add_assoc]
        exact h.label_at k (Nat.lt_of_succ_lt_succ hk) hdvd
  blank p c hp hc := by
    obtain ⟨k, hk, hdvd, hle, hlt⟩ := h.blank p c hp hc
    have hnext : first + (k + 1) = first + 1 + k := by omega
    refine ⟨k + 1, Nat.succ_lt_succ hk, ?_⟩
    rw [hnext, column_cons_succ, ← Nat.add_assoc]
    exact ⟨hdvd, hle, hlt⟩

/-- An index that is due is written at the column of its byte, if the line does not reach beyond
that column yet. -/
theorem label (hdue : 5 ∣ first) (hwritten : written ≤ start)
    (h : Labels (first + 1) (start + width b) (start + (Decimal.digits first).length) bs cs) :
    Labels first start written (b :: bs)
      (List.replicate (start - written) ' ' ++ (Decimal.digits first ++ cs)) where
  label_at k hk hdvd := by
    cases k with
    | zero =>
        refine ⟨_, _, rfl, ?_⟩
        rw [List.length_replicate, column_zero]
        omega
    | succ k =>
        have hnext : first + (k + 1) = first + 1 + k := by omega
        rw [hnext] at hdvd ⊢
        obtain ⟨before, after, rfl, hlength⟩ := h.label_at k (Nat.lt_of_succ_lt_succ hk) hdvd
        refine ⟨List.replicate (start - written) ' ' ++ (Decimal.digits first ++ before), after,
          by simp only [List.append_assoc], ?_⟩
        rw [column_cons_succ]
        simp only [List.length_append, List.length_replicate]
        omega
  blank p c hp hc := by
    rw [List.getElem?_append, List.length_replicate] at hp
    split at hp
    · next hgap => exact absurd (List.eq_of_mem_replicate (List.mem_of_getElem? hp)) hc
    · next hgap =>
        rw [List.getElem?_append] at hp
        split at hp
        · next hdigit =>
            refine ⟨0, Nat.succ_pos _, hdue, ?_⟩
            simp only [column_zero, Nat.add_zero]
            omega
        · next hbehind =>
            obtain ⟨k, hk, hdvd, hle, hlt⟩ := h.blank _ c hp hc
            have hnext : first + (k + 1) = first + 1 + k := by omega
            refine ⟨k + 1, Nat.succ_lt_succ hk, ?_⟩
            rw [hnext, column_cons_succ, ← Nat.add_assoc]
            exact ⟨hdvd, by omega, by omega⟩

end Labels

/-- Whatever stands in front of it: if the line does not reach beyond the column of the next index
that is due, when the values up to there take two columns each, all indices that follow stand above
their bytes. -/
theorem labels_indicesFrom {first start written : Nat} {bs : Bytes}
    (hfirst : first + bs.length ≤ 10 ^ 10)
    (hwritten : written ≤ start + 2 * ((5 - first % 5) % 5)) :
    Labels first start written bs (indicesFrom first start written bs) := by
  induction bs generalizing first start written with
  | nil => exact ⟨fun k hk => absurd hk (Nat.not_lt_zero k), fun p c hp => by cases hp⟩
  | cons b bs ih =>
      have hwidth := two_le_width b
      rw [List.length_cons] at hfirst
      rw [indicesFrom, length_valueCell]
      split
      · next hdue =>
          have hdigits : (Decimal.digits first).length ≤ 10 :=
            (Nat.length_toDigits_le_iff (by decide) (by decide)).2 (by omega)
          have hstart : written ≤ start := by omega
          have hend : written + (start - written + (Decimal.digits first).length)
              = start + (Decimal.digits first).length := by omega
          simp only [List.length_append, List.length_replicate, List.append_assoc, hend]
          exact .label (Nat.dvd_of_mod_eq_zero hdue) hstart (ih (by omega) (by omega))
      · next hdue =>
          have hnot : ¬ 5 ∣ first := fun hdvd => hdue (Nat.mod_eq_zero_of_dvd hdvd)
          exact .skip (ih (by omega) (by omega)) hnot

/-! ## Lines -/

theorem isLineEnd_of_mem_values {bs : Bytes} {c : Char} (h : c ∈ values bs) :
    isLineEnd c = false := by
  obtain ⟨b, _, hc⟩ := List.mem_flatMap.1 h
  rcases List.mem_append.1 hc with hc | hc
  · exact isLineEnd_of_isDigit (Decimal.isDigit_of_mem_digits hc)
  · rw [List.mem_singleton.1 hc]
    decide

theorem isLineEnd_character (b : UInt8) : isLineEnd (character b) = false := by
  rcases isAlphanum_character_or b with h | h
  · exact isLineEnd_of_isWordChar (by simp [isWordChar, h])
  · rw [h]
    decide

theorem isLineEnd_of_mem_characters {bs : Bytes} {c : Char} (h : c ∈ characters bs) :
    isLineEnd c = false := by
  obtain ⟨b, _, hc⟩ := List.mem_flatMap.1 h
  rw [characterCell, List.mem_cons, List.mem_append, List.mem_singleton] at hc
  rcases hc with rfl | hc | rfl
  · exact isLineEnd_character b
  · rw [List.eq_of_mem_replicate hc]
    decide
  · decide

theorem isLineEnd_of_mem_indicesFrom {first start written : Nat} {bs : Bytes} {c : Char}
    (h : c ∈ indicesFrom first start written bs) : isLineEnd c = false := by
  induction bs generalizing first start written with
  | nil => cases h
  | cons b bs ih =>
      rw [indicesFrom] at h
      split at h
      · rw [List.mem_append, List.mem_append] at h
        rcases h with (hgap | hdigit) | hrest
        · rw [List.eq_of_mem_replicate hgap]
          decide
        · exact isLineEnd_of_isDigit (Decimal.isDigit_of_mem_digits hdigit)
        · exact ih hrest
      · exact ih h

/-- Each of the three lines of a dump is one line. -/
theorem oneLine_of_mem_lines {bs : Bytes} {line : String} (h : line ∈ lines bs) : OneLine line := by
  simp only [lines, List.mem_cons, List.not_mem_nil, or_false] at h
  rcases h with rfl | rfl | rfl
  · exact oneLine_ofList.2 fun c => isLineEnd_of_mem_indicesFrom
  · exact oneLine_ofList.2 fun c => isLineEnd_of_mem_values
  · exact oneLine_ofList.2 fun c => isLineEnd_of_mem_characters

/-- No line of a dump is empty, if there are bytes. -/
theorem ne_empty_of_mem_lines {b : UInt8} {bs : Bytes} {line : String}
    (h : line ∈ lines (b :: bs)) : line ≠ "" := by
  have hne : ∀ cs : List Char, cs ≠ [] → String.ofList cs ≠ "" := fun cs hcs heq =>
    hcs (String.ofList_eq_empty_iff.1 heq)
  simp only [lines, List.mem_cons, List.not_mem_nil, or_false] at h
  rcases h with rfl | rfl | rfl
  · exact hne _ fun heq => by simp [indices, indicesFrom, Decimal.digits] at heq
  · exact hne _ fun heq => by simp [values, valueCell] at heq
  · exact hne _ fun heq => by simp [characters, characterCell] at heq

/-- The lines of a dump are told apart in its text, if there are bytes. -/
theorem textLines_text {bs : Bytes} (h : bs ≠ []) : textLines (text bs) = lines bs := by
  obtain ⟨b, bs, rfl⟩ := List.exists_cons_of_ne_nil h
  exact textLines_intercalate (fun line => oneLine_of_mem_lines) fun line => ne_empty_of_mem_lines

/-- Three lines show bytes: their values in decimal, under them what is a letter or a digit among
them, and above every fifth value its index. -/
structure Aligned (bs : Bytes) (indexLine valueLine characterLine : String) : Prop where
  /-- The values stand in order, a comma behind each. -/
  values : valueLine.toList = bs.flatMap fun b => Decimal.digits b.toNat ++ [',']
  value_at : ∀ k, (hk : k < bs.length) →
    StandsAt (Decimal.digits bs[k].toNat ++ [',']) valueLine.toList (column bs k)
  length_characters : characterLine.length = valueLine.length
  commas : ∀ p : Nat, characterLine.toList[p]? = some ',' ↔ valueLine.toList[p]? = some ','
  /-- A byte's character stands under the first digit of its value, with spaces up to the comma. -/
  character_at : ∀ k, (hk : k < bs.length) →
    StandsAt ((if (Char.ofNat bs[k].toNat).isAlphanum then Char.ofNat bs[k].toNat else ' ')
        :: (List.replicate ((Decimal.digits bs[k].toNat).length - 1) ' ' ++ [',']))
      characterLine.toList (column bs k)
  /-- Every fifth index stands above the first digit of its byte's value. -/
  index_at : ∀ i < bs.length, 5 ∣ i → StandsAt (Decimal.digits i) indexLine.toList (column bs i)
  /-- There are spaces everywhere else in the line of indices. -/
  blank : ∀ (p : Nat) (c : Char), indexLine.toList[p]? = some c →
    (∀ i < bs.length, 5 ∣ i →
      ¬ (column bs i ≤ p ∧ p < column bs i + (Decimal.digits i).length)) → c = ' '

/-- The dump of no more than 10 ^ 10 bytes has three lines, in which indices, values and characters
stand in the columns of their bytes. -/
theorem text_aligned {bs : Bytes} (h : bs.length ≤ 10 ^ 10) :
    ∃ indexLine valueLine characterLine,
      ((text bs).toList.splitOnP isLineEnd).map String.ofList
        = [indexLine, valueLine, characterLine]
      ∧ Aligned bs indexLine valueLine characterLine := by
  have hlabels : Labels 0 0 0 bs (indices bs) :=
    labels_indicesFrom (by rwa [Nat.zero_add]) (Nat.zero_le _)
  have hlines : ((text bs).toList.splitOnP isLineEnd).map String.ofList = lines bs :=
    pieces_intercalate (List.cons_ne_nil _ _) fun line => oneLine_of_mem_lines
  refine ⟨_, _, _, hlines, ?_⟩
  exact {
    values := String.toList_ofList
    value_at := fun k hk => by
      rw [String.toList_ofList]
      exact standsAt_flatMap length_valueCell hk
    length_characters := by
      rw [String.length_ofList, String.length_ofList, length_characters]
    commas := fun p => by
      rw [String.toList_ofList, String.toList_ofList, getElem?_eq_comma_iff, commas_characters,
        getElem?_eq_comma_iff]
    character_at := fun k hk => by
      rw [String.toList_ofList]
      exact standsAt_flatMap (fun b => (length_characterCell b).trans (length_valueCell b)) hk
    index_at := fun i hi hdvd => by
      rw [String.toList_ofList]
      simpa only [StandsAt, Nat.zero_add] using hlabels.label_at i hi (by rwa [Nat.zero_add])
    blank := fun p c hp hout => by
      rw [String.toList_ofList] at hp
      by_contra hc
      obtain ⟨i, hi, hdvd, hinside⟩ := hlabels.blank p c hp hc
      simp only [Nat.zero_add] at hdvd hinside
      exact hout i hi hdvd hinside }

/-- Eleven bytes, with letters, a digit and a comma among them. -/
def labelBytes : Bytes :=
  [0, 42, 4, 4, 112, 117, 109, 112, 48, 44, 255]

/-- The indices zero, five and ten stand above their values.  The comma among the bytes is shown as
a space. -/
theorem text_aligned_of_labelBytes :
    labelBytes.length ≤ 10 ^ 10
    ∧ text labelBytes = "0            5                 10\n0,42,4,4,112,117,109,112,48,44,255,\n"
      ++ " ,  , , ,p  ,u  ,m  ,p  ,0 ,  ,   ,"
    ∧ ∃ indexLine valueLine characterLine,
      ((text labelBytes).toList.splitOnP isLineEnd).map String.ofList
        = [indexLine, valueLine, characterLine]
      ∧ Aligned labelBytes indexLine valueLine characterLine := by
  have hlength : labelBytes.length ≤ 10 ^ 10 := by decide
  exact ⟨hlength, by decide +kernel, text_aligned hlength⟩

end Dump
end DataBlock
