import DataBlock.Proofs.DecimalTime
import DataBlock.Proofs.Footprint

/-!
# The word of a span with a time base

Several words are read as one span: a coarser base counts fewer of its units, and the two highest
bits are not looked at.  A write finds a word whenever there is one, and takes the smallest.

Main results:

- `S5Time.code_le_of_form?`: the form of a number of milliseconds has the finest base.
- `S5Time.words`: the words that are read as a span.
- `S5Time.exists_of_mem_words`: a word is read as the span of its digits, and none with these
  digits and this base is smaller.
- `S5Time.isLeast_words`: the form of a number of milliseconds is the smallest of its words.
- `FieldType.encode_least_word`: what a write of a span does to a buffer.
-/

namespace DataBlock

/-- The milliseconds of a span are known. -/
theorem Span.ofMillis_natCast_inj {ms ms' : Nat} (h : ofMillis (ms : Nat) = ofMillis (ms' : Nat)) :
    ms = ms' := by
  simp only [ofMillis, Span.mk.injEq] at h
  omega

namespace S5Time

/-! ## Forms -/

/-- No base finer than that of the form divides the milliseconds into counts of three digits. -/
theorem code_le_of_form? {ms code count code' count' : Nat} (h : form? ms = some (code, count))
    (hcode' : code' < 4) (hcount' : count' ≤ 999) (hms : count' * base code' = ms) :
    code ≤ code' := by
  have hpos : 0 < base code' := Nat.pow_pos (by decide)
  rcases List.findSome?_eq_some_iff.1 h with ⟨before, c, after, hrange, hform, hnone⟩
  simp only [Option.ite_none_right_eq_some, Option.some.injEq, Prod.mk.injEq] at hform
  obtain ⟨_, rfl, _⟩ := hform
  have hmem : code' ∈ before ++ c :: after := hrange ▸ List.mem_range.2 hcode'
  have hsorted : (before ++ c :: after).Pairwise (· < ·) := hrange ▸ List.pairwise_lt_range
  rcases List.mem_append.1 hmem with hbefore | hlater
  · -- A base that was tried before does not divide the milliseconds so.
    have hfits : ms % base code' = 0 ∧ ms / base code' ≤ 999 := by
      rw [← hms, Nat.mul_mod_left, Nat.mul_div_cancel _ hpos]
      exact ⟨rfl, hcount'⟩
    have hfail := hnone code' hbefore
    rw [if_pos hfits] at hfail
    cases hfail
  · rcases List.mem_cons.1 hlater with rfl | hafter
    · exact Nat.le_refl _
    · have hlt := List.rel_of_pairwise_cons (List.pairwise_append.1 hsorted).2.1 hafter
      exact Nat.le_of_lt hlt

/-! ## Words -/

/-- The word of a base and a count, without the two highest bits. -/
def word (code count : Nat) : Nat :=
  code * 4096 + count / 100 * 256 + count / 10 % 10 * 16 + count % 10

/-- The digits of a count stand in the halves of its word. -/
theorem word_digits (code hundreds : Nat) {tens ones : Nat} (htens : tens ≤ 9)
    (hones : ones ≤ 9) :
    word code (hundreds * 100 + tens * 10 + ones)
      = code * 4096 + hundreds * 256 + tens * 16 + ones := by
  have hfirst : (hundreds * 100 + tens * 10 + ones) / 100 = hundreds := by omega
  have hsecond : (hundreds * 100 + tens * 10 + ones) / 10 % 10 = tens := by omega
  have hthird : (hundreds * 100 + tens * 10 + ones) % 10 = ones := by omega
  rw [word, hfirst, hsecond, hthird]

theorem word_lt {code count : Nat} (hcode : code < 4) (hcount : count ≤ 999) :
    word code count < 2 ^ 14 := by
  unfold word
  omega

/-- A finer base gives a smaller word. -/
theorem word_lt_word {code code' count : Nat} (hcode : code < code') (hcount : count ≤ 999)
    (count' : Nat) : word code count < word code' count' := by
  unfold word
  omega

/-- The bytes of a base and a count are those of their word. -/
theorem bytes_eq_encode (code count : Nat) :
    bytes code count = BigEndian.encode 2 (word code count) := by
  have hfirst : code * 16 + count / 100 = word code count / 256 := by
    unfold word
    omega
  have htens : count / 10 % 10 = count % 100 / 10 := by omega
  have hones : count % 10 = count % 100 % 10 := by omega
  have hsecond : UInt8.ofNat (word code count) = Bcd.encode (count % 100) := by
    apply UInt8.toNat_inj.1
    simp only [word, Bcd.encode, UInt8.toNat_ofNat', htens, hones]
    omega
  rw [bytes, hfirst, ← hsecond]
  rfl

/-- The halves of a word. -/
theorem half_encode (n : Nat) {k : Nat} (hk : k < 4) :
    (BigEndian.encode 2 n).half k = n / 16 ^ (3 - k) % 16 := by
  have hbytes : BigEndian.encode 2 n = [UInt8.ofNat (n / 256), UInt8.ofNat n] := rfl
  have hcases : k = 0 ∨ k = 1 ∨ k = 2 ∨ k = 3 := by omega
  rcases hcases with rfl | rfl | rfl | rfl
  all_goals
    simp only [hbytes, Bytes.half, Bytes.byte, Bcd.high, Bcd.low, Nat.reduceMod, Nat.reduceDiv,
      Nat.reduceSub, Nat.reducePow, List.getD_cons_zero, List.getD_cons_succ, UInt8.toNat_ofNat',
      if_true, if_false, Nat.one_ne_zero, Nat.div_one]
    omega

/-- The words that are read as a span. -/
def words (d : Span) : Set Nat :=
  {n | n < 2 ^ 16 ∧ FieldType.s5time.decode (BigEndian.encode 2 n) 0 none = .ok (.span d)}

theorem mem_words_iff {d : Span} {n : Nat} :
    n ∈ words d ↔ n < 2 ^ 16 ∧ decode 0 (BigEndian.encode 2 n) = .ok d := by
  have hlength : (BigEndian.encode 2 n).length = 2 := BigEndian.length_encode 2 n
  have hslice : (BigEndian.encode 2 n).slice 0 2 = BigEndian.encode 2 n :=
    List.take_of_length_le (Nat.le_of_eq hlength)
  refine and_congr_right fun _ => ?_
  rw [FieldType.decode_s5time (Nat.le_of_eq hlength.symm), hslice, Outcome.map_eq_ok_iff]
  simp only [Value.span.injEq, exists_eq_right]

/-- A count of three digits with its base is read back from its word. -/
theorem word_mem_words {code count : Nat} (hcode : code < 4) (hcount : count ≤ 999) :
    word code count ∈ words (.ofMillis (count * base code : Nat)) := by
  have hlt := word_lt hcode hcount
  refine mem_words_iff.2 ⟨by omega, ?_⟩
  rw [← bytes_eq_encode, decode_bytes 0 hcode hcount]

/-- A word is read as the span of its digits, and no word with these digits and this base is
smaller. -/
theorem exists_of_mem_words {d : Span} {n : Nat} (h : n ∈ words d) :
    ∃ code count, code < 4 ∧ count ≤ 999 ∧ d = .ofMillis (count * base code : Nat)
      ∧ word code count ≤ n := by
  rcases mem_words_iff.1 h with ⟨hlt, hread⟩
  have hreading := reading_decode 0 (BigEndian.length_encode 2 n)
  rw [hread, Outcome.map_ok] at hreading
  have hhundreds : (BigEndian.encode 2 n).half 1 ≤ 9 := by
    by_contra hover
    cases hreading.hundreds (Nat.not_le.1 hover)
  have hrest : ¬ (9 < (BigEndian.encode 2 n).half 2 ∨ 9 < (BigEndian.encode 2 n).half 3) := by
    intro hover
    cases hreading.rest hhundreds hover
  rw [not_or, Nat.not_lt, Nat.not_lt] at hrest
  rcases hrest with ⟨htens, hones⟩
  have hspan := hreading.read hhundreds htens hones
  rw [BigEndian.decode_encode hlt] at hspan
  cases hspan
  refine ⟨code n, count (BigEndian.encode 2 n), Nat.mod_lt _ (by decide), ?_, ?_, ?_⟩
  · unfold count
    omega
  · rw [base, Nat.add_comm 1]
  · rw [count, word_digits _ _ htens hones, code, half_encode n (by decide),
      half_encode n (by decide), half_encode n (by decide)]
    simp only [Nat.reduceSub, Nat.reducePow, Nat.div_one]
    omega

/-! ## The smallest word -/

/-- The form of a number of milliseconds has the smallest word. -/
theorem word_le_of_form? {ms code count code' count' : Nat} (h : form? ms = some (code, count))
    (hcode' : code' < 4) (hcount' : count' ≤ 999) (hms : count' * base code' = ms) :
    word code count ≤ word code' count' := by
  rcases form?_sound h with ⟨_, hcount, hsound⟩
  rcases Nat.lt_or_eq_of_le (code_le_of_form? h hcode' hcount' hms) with hlt | rfl
  · exact Nat.le_of_lt (word_lt_word hlt hcount count')
  · have hpos : 0 < base code := Nat.pow_pos (by decide)
    have hsame : count = count' := Nat.eq_of_mul_eq_mul_right hpos (hsound.trans hms.symm)
    rw [hsame]

/-- The form of a number of milliseconds is the smallest of all words that are read as it. -/
theorem isLeast_words {ms code count : Nat} (h : form? ms = some (code, count)) :
    IsLeast (words (.ofMillis ms)) (word code count) := by
  rcases form?_sound h with ⟨hcode, hcount, rfl⟩
  refine ⟨word_mem_words hcode hcount, ?_⟩
  intro n hn
  rcases exists_of_mem_words hn with ⟨code', count', hcode', hcount', hspan, hle⟩
  exact Nat.le_trans (word_le_of_form? h hcode' hcount' (Span.ofMillis_natCast_inj hspan).symm) hle

/-- A span is stored as the smallest of its words. -/
theorem isLeast_of_image {d : Span} {w : Bytes} (h : image (.span d) = .ok w) :
    ∃ n, IsLeast (words d) n ∧ w = BigEndian.encode 2 n := by
  rcases image_eq_ok_iff.1 h with ⟨ms, code, count, hspan, hform, rfl⟩
  cases hspan
  exact ⟨word code count, isLeast_words hform, bytes_eq_encode code count⟩

/-- A span that has a word is stored. -/
theorem exists_image_of_mem_words {d : Span} {n : Nat} (h : n ∈ words d) :
    ∃ w, image (.span d) = .ok w := by
  rcases exists_of_mem_words h with ⟨code, count, hcode, hcount, rfl, _⟩
  rcases exists_form? hcount hcode with ⟨code', count', hform⟩
  exact ⟨_, image_eq_ok_iff.2 ⟨_, _, _, rfl, hform, rfl⟩⟩

end S5Time

/-! ## Writes -/

namespace FieldType

variable {bs after : Bytes} {offset : Nat} {bit : Option Nat} {d : Span}

/-- A write of a span leaves the smallest of its words. -/
theorem isLeast_of_encode (h : s5time.encode bs offset bit (.span d) = .ok after) :
    IsLeast (S5Time.words d) (BigEndian.decode (after.slice offset 2)) := by
  rcases slice_encode h with ⟨p, hpatch, hslice⟩
  rcases Outcome.map_eq_ok_iff.1 hpatch with ⟨w, himage, rfl⟩
  rcases S5Time.isLeast_of_image himage with ⟨n, hleast, rfl⟩
  have hlt : n < 256 ^ 2 := hleast.1.1
  change after.slice offset 2 = _ at hslice
  rw [hslice, Patch.put_ofBytes, BigEndian.decode_encode hlt]
  exact hleast

/-- A span that has a word is written where two bytes are left. -/
theorem exists_encode_of_mem_words (hfits : offset + 2 ≤ bs.length) {n : Nat}
    (h : n ∈ S5Time.words d) : ∃ after, s5time.encode bs offset bit (.span d) = .ok after := by
  rcases S5Time.exists_image_of_mem_words h with ⟨w, hw⟩
  have hpatch : s5time.patch bit (.span d) = .ok (.ofBytes w) :=
    Outcome.map_eq_ok_iff.2 ⟨w, hw, rfl⟩
  exact exists_encode_iff.2 ⟨hfits, represents_of_patch hpatch⟩

/-- A span that has no word is out of range, and nothing is written. -/
theorem encode_of_no_word (hfits : offset + 2 ≤ bs.length) (h : ¬ (S5Time.words d).Nonempty) :
    (∃ fault : Fault, fault.kind = .outOfRange
      ∧ s5time.encode bs offset bit (.span d) = .error fault)
    ∧ (s5time.write offset bit (.span d)).left bs = bs := by
  cases hpatch : s5time.patch bit (.span d) with
  | ok p =>
      rcases exists_encode_iff.2 ⟨hfits, represents_of_patch hpatch⟩ with ⟨after, hencode⟩
      exact absurd ⟨_, (isLeast_of_encode hencode).1⟩ h
  | error fault =>
      have hencode := encode_of_patch_error hpatch bs offset
      rcases Change.result_eq_error_iff.1 hencode with ⟨after, hrun⟩
      refine ⟨⟨fault, kind_of_patch_error hpatch, hencode⟩, ?_⟩
      rw [Change.left_of_fault hrun, run_write_fault hrun]

/-- Where two bytes are left, a write of a span succeeds exactly if some word is read as the
span, and then leaves the smallest such word.  Otherwise it is out of range, and leaves the
buffer as it was. -/
theorem encode_least_word (bs : Bytes) (offset : Nat) (bit : Option Nat) (d : Span)
    (hfits : offset + 2 ≤ bs.length) :
    ((∃ after, s5time.encode bs offset bit (.span d) = .ok after) ↔ (S5Time.words d).Nonempty)
    ∧ (∀ after, s5time.encode bs offset bit (.span d) = .ok after →
      IsLeast (S5Time.words d) (BigEndian.decode (after.slice offset 2)))
    ∧ (¬ (S5Time.words d).Nonempty →
      (∃ fault : Fault, fault.kind = .outOfRange
        ∧ s5time.encode bs offset bit (.span d) = .error fault)
      ∧ (s5time.write offset bit (.span d)).left bs = bs) := by
  refine ⟨⟨?_, ?_⟩, fun after h => isLeast_of_encode h, encode_of_no_word hfits⟩
  · rintro ⟨after, h⟩
    exact ⟨_, (isLeast_of_encode h).1⟩
  · rintro ⟨n, hn⟩
    exact exists_encode_of_mem_words hfits hn

/-- Twelve seconds are stored as 120 counts of a tenth of a second, though twelve counts of a
second are read as the same.  Five milliseconds have no word. -/
theorem encode_least_word_of_twelve_seconds :
    s5time.encode [7, 7, 7, 7] 1 none (.span (.ofMillis 12000)) = .ok [7, 0x11, 0x20, 7]
    ∧ IsLeast (S5Time.words (.ofMillis 12000)) 0x1120
    ∧ 0x2012 ∈ S5Time.words (.ofMillis 12000)
    ∧ (∃ fault : Fault, fault.kind = .outOfRange
      ∧ s5time.encode [7, 7, 7, 7] 1 none (.span (.ofMillis 5)) = .error fault)
    ∧ (s5time.write 1 none (.span (.ofMillis 5))).left [7, 7, 7, 7] = [7, 7, 7, 7] := by
  rcases encode_least_word [7, 7, 7, 7] 1 none (.ofMillis 12000) (by decide) with ⟨_, hleast, _⟩
  rcases encode_least_word [7, 7, 7, 7] 1 none (.ofMillis 5) (by decide)
    with ⟨haccepts, _, hrefused⟩
  have hnone : ¬ (S5Time.words (.ofMillis 5)).Nonempty := by
    intro h
    rcases haccepts.2 h with ⟨after, hafter⟩
    cases hafter
  exact ⟨rfl, hleast _ rfl, ⟨by decide, rfl⟩, hrefused hnone⟩

end FieldType
end DataBlock
