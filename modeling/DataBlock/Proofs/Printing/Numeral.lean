import DataBlock.Number.Decimal
import DataBlock.Number.Hex
import Mathlib.Data.List.TakeWhile

/-!
# Printed numbers are read back

Zeros on the left do not change what decimal digits stand for, and neither do zeros at the
end of a fraction: a number is known from its padded digits, and a decimal fraction from
what is shown of it.  Hexadecimal digits and the two digits of bytes are told apart.

Main results:

- `Decimal.padded_inj`: numbers with the same padded digits are the same.
- `Decimal.positional_inj`: decimals with the same text are the same number.
- `Hex.digits_inj`: numbers with the same hexadecimal digits are the same.
- `Hex.spaced_inj`: bytes with the same text are the same.
-/

namespace DataBlock

/-! ## Decimal digits -/

namespace Decimal

theorem isDigit_of_mem_digits {n : Nat} {c : Char} (h : c ∈ digits n) : c.isDigit = true :=
  Nat.isDigit_of_mem_toDigits (by decide) (by decide) h

/-- Zeros on the left do not change what digits stand for. -/
theorem value_leftpad (width : Nat) (cs : List Char) : value (cs.leftpad width '0') = value cs := by
  rw [List.leftpad, value, Nat.ofDigitChars_append, Nat.ofDigitChars_replicate_zero,
    Nat.mul_zero, value]

theorem toList_padded (width n : Nat) :
    (padded width n).toList = (digits n).leftpad width '0' := by
  rw [padded, String.toList_ofList]

/-- Numbers with the same padded digits are the same. -/
theorem padded_inj {width width' m n : Nat} (h : padded width m = padded width' n) : m = n := by
  have hvalue := congrArg (fun s : String => value s.toList) h
  simpa only [toList_padded, value_leftpad, value_digits] using hvalue

theorem isDigit_of_mem_leftpad {width n : Nat} {c : Char}
    (h : c ∈ (digits n).leftpad width '0') : c.isDigit = true := by
  rw [List.leftpad, List.mem_append] at h
  rcases h with h | h
  · rw [List.eq_of_mem_replicate h]
    decide
  · exact isDigit_of_mem_digits h

theorem isDigit_of_mem_padded {width n : Nat} {c : Char} (h : c ∈ (padded width n).toList) :
    c.isDigit = true := by
  rw [toList_padded] at h
  exact isDigit_of_mem_leftpad h

/-- A number with no more digits than a width is padded to that width. -/
theorem length_leftpad_digits {width n : Nat} (hwidth : 0 < width) (h : n < 10 ^ width) :
    ((digits n).leftpad width '0').length = width := by
  have hle : (digits n).length ≤ width :=
    (Nat.length_toDigits_le_iff (by decide) hwidth).2 h
  rw [List.length_leftpad]
  omega

theorem length_padded {width n : Nat} (hwidth : 0 < width) (h : n < 10 ^ width) :
    (padded width n).toList.length = width := by
  rw [toList_padded, length_leftpad_digits hwidth h]

/-! ## Fractions -/

/-- What is shown of the digits of a fraction: all but the zeros at the end. -/
def shown (cs : List Char) : List Char :=
  (cs.reverse.dropWhile (· == '0')).reverse

/-- The digits of a fraction are those that are shown, and zeros. -/
theorem exists_shown_append_zeros (cs : List Char) :
    ∃ zeros, cs = shown cs ++ List.replicate zeros '0' := by
  refine ⟨(cs.reverse.takeWhile (· == '0')).length, ?_⟩
  have hzeros : cs.reverse.takeWhile (· == '0')
      = List.replicate (cs.reverse.takeWhile (· == '0')).length '0' := by
    apply List.eq_replicate_of_mem
    intro c hc
    simpa using List.mem_takeWhile_imp hc
  have hsplit := congrArg List.reverse
    (List.takeWhile_append_dropWhile (p := (· == '0')) (l := cs.reverse))
  rw [List.reverse_append, List.reverse_reverse, hzeros, List.reverse_replicate] at hsplit
  exact hsplit.symm

/-- The digits that are shown of a fraction stand for it, once it is scaled. -/
theorem exists_value_shown {scale r : Nat} (hpos : 0 < scale) (hr : r < 10 ^ scale) :
    ∃ zeros, (shown ((digits r).leftpad scale '0')).length + zeros = scale
      ∧ r = value (shown ((digits r).leftpad scale '0')) * 10 ^ zeros := by
  rcases exists_shown_append_zeros ((digits r).leftpad scale '0') with ⟨zeros, hsplit⟩
  refine ⟨zeros, ?_, ?_⟩
  · have hlength := congrArg List.length hsplit
    rw [length_leftpad_digits hpos hr, List.length_append, List.length_replicate] at hlength
    exact hlength.symm
  · have hvalue := congrArg value hsplit
    rw [value_leftpad, value_digits, value, Nat.ofDigitChars_append,
      Nat.ofDigitChars_replicate_zero, Nat.mul_comm] at hvalue
    exact hvalue

/-- The parts of a decimal around its point. -/
theorem splitOn_positional (n scale : Nat) :
    (positional n scale).toList.splitOn '.' =
      if n % 10 ^ scale = 0 then [digits (n / 10 ^ scale)]
      else [digits (n / 10 ^ scale), shown ((digits (n % 10 ^ scale)).leftpad scale '0')] := by
  have hpoint : ∀ cs : List Char, (∀ c ∈ cs, c.isDigit = true) → '.' ∉ cs := by
    intro cs hcs hmem
    exact absurd (hcs '.' hmem) (by decide)
  have hwhole : '.' ∉ digits (n / 10 ^ scale) := hpoint _ fun _ => isDigit_of_mem_digits
  have hshown : '.' ∉ shown ((digits (n % 10 ^ scale)).leftpad scale '0') := by
    apply hpoint
    intro c hc
    rw [shown, List.mem_reverse] at hc
    exact isDigit_of_mem_leftpad (List.mem_reverse.1 (List.dropWhile_subset _ hc))
  rw [positional]
  by_cases hzero : n % 10 ^ scale = 0
  · rw [if_pos hzero, if_pos hzero, String.toList_ofList, List.splitOn_eq_singleton hwhole]
  · rw [if_neg hzero, if_neg hzero, String.toList_ofList,
      List.splitOn_append_cons_self_of_not_mem hwhole]
    exact congrArg _ (List.splitOn_eq_singleton hshown)

/-- A decimal has nothing but digits and a point. -/
theorem isDigit_or_eq_of_mem_positional {n scale : Nat} {c : Char}
    (h : c ∈ (positional n scale).toList) : c.isDigit = true ∨ c = '.' := by
  simp only [positional] at h
  split at h
  · rw [String.toList_ofList] at h
    exact .inl (isDigit_of_mem_digits h)
  · rw [String.toList_ofList, List.mem_append, List.mem_cons] at h
    rcases h with h | h | h
    · exact .inl (isDigit_of_mem_digits h)
    · exact .inr h
    · rw [List.mem_reverse] at h
      exact .inl (isDigit_of_mem_leftpad (List.mem_reverse.1 (List.dropWhile_subset _ h)))

/-- Fractions of which the same is shown are the same number. -/
theorem mul_pow_eq_of_shown_eq {r r' scale scale' : Nat} (hr : r < 10 ^ scale)
    (hr' : r' < 10 ^ scale') (hscale : 0 < scale) (hscale' : 0 < scale')
    (h : shown ((digits r).leftpad scale '0') = shown ((digits r').leftpad scale' '0')) :
    r * 10 ^ scale' = r' * 10 ^ scale := by
  rcases exists_value_shown hscale hr with ⟨zeros, hlength, hvalue⟩
  rcases exists_value_shown hscale' hr' with ⟨zeros', hlength', hvalue'⟩
  rw [← h] at hlength' hvalue'
  generalize shown ((digits r).leftpad scale '0') = cs at hlength hlength' hvalue hvalue'
  calc r * 10 ^ scale'
      = value cs * 10 ^ zeros * (10 ^ cs.length * 10 ^ zeros') := by
        rw [hvalue, ← hlength', Nat.pow_add]
    _ = value cs * 10 ^ zeros' * (10 ^ cs.length * 10 ^ zeros) := by
        simp only [Nat.mul_assoc, Nat.mul_comm, Nat.mul_left_comm]
    _ = r' * 10 ^ scale := by rw [hvalue', ← hlength, Nat.pow_add]

/-- A scale at which there is a fraction is positive. -/
theorem scale_pos_of_mod_ne_zero {n scale : Nat} (h : n % 10 ^ scale ≠ 0) : 0 < scale := by
  apply Nat.pos_of_ne_zero
  intro hzero
  rw [hzero, Nat.pow_zero, Nat.mod_one] at h
  exact h rfl

/-- Decimals with the same text are the same number. -/
theorem positional_inj {m n scale scale' : Nat}
    (h : positional m scale = positional n scale') : m * 10 ^ scale' = n * 10 ^ scale := by
  have hparts := congrArg (fun s : String => s.toList.splitOn '.') h
  simp only [splitOn_positional] at hparts
  have hpos : ∀ k, 0 < 10 ^ k := fun k => Nat.pow_pos (by decide)
  have hwhole : m / 10 ^ scale = n / 10 ^ scale' := by
    have hhead := congrArg (fun parts : List (List Char) => parts.head?.map value) hparts
    simp only [apply_ite List.head?, List.head?_cons, ite_self, Option.map_some, value_digits,
      Option.some.injEq] at hhead
    exact hhead
  have hfraction : m % 10 ^ scale * 10 ^ scale' = n % 10 ^ scale' * 10 ^ scale := by
    by_cases hm : m % 10 ^ scale = 0
    · by_cases hn : n % 10 ^ scale' = 0
      · rw [hm, hn, Nat.zero_mul, Nat.zero_mul]
      · rw [if_pos hm, if_neg hn] at hparts
        exact absurd (congrArg List.length hparts) (by simp)
    · by_cases hn : n % 10 ^ scale' = 0
      · rw [if_neg hm, if_pos hn] at hparts
        exact absurd (congrArg List.length hparts) (by simp)
      · rw [if_neg hm, if_neg hn] at hparts
        have hshown := (List.cons.inj (List.cons.inj hparts).2).1
        exact mul_pow_eq_of_shown_eq (Nat.mod_lt _ (hpos _)) (Nat.mod_lt _ (hpos _))
          (scale_pos_of_mod_ne_zero hm) (scale_pos_of_mod_ne_zero hn) hshown
  calc m * 10 ^ scale'
      = (10 ^ scale * (m / 10 ^ scale) + m % 10 ^ scale) * 10 ^ scale' := by
        rw [Nat.div_add_mod]
    _ = (10 ^ scale' * (n / 10 ^ scale') + n % 10 ^ scale') * 10 ^ scale := by
        rw [Nat.add_mul, Nat.add_mul, hfraction, hwhole]
        simp only [Nat.mul_comm, Nat.mul_left_comm]
    _ = n * 10 ^ scale := by rw [Nat.div_add_mod]

end Decimal

/-! ## Hexadecimal digits -/

namespace Hex

theorem digitChar_inj {m n : Nat} (hm : m < 16) (hn : n < 16)
    (h : m.digitChar = n.digitChar) : m = n := by
  have hall : ∀ i < 16, ∀ j < 16, i.digitChar = j.digitChar → i = j := by decide
  exact hall m hm n hn h

/-- A number has a digit more than its sixteenth. -/
theorem digits_of_le {n : Nat} (h : 16 ≤ n) :
    digits n = digits (n / 16) ++ [(n % 16).digitChar] :=
  Nat.toDigits_of_base_le (by decide) h

theorem digits_of_lt {n : Nat} (h : n < 16) : digits n = [n.digitChar] :=
  Nat.toDigits_of_lt_base h

/-- A number of one digit has another text than one of several digits. -/
theorem digits_ne_of_lt_of_le {m n : Nat} (hm : m < 16) (hn : 16 ≤ n) : digits m ≠ digits n := by
  intro h
  have hlength := congrArg List.length h
  have hpos : 0 < (digits (n / 16)).length := Nat.length_toDigits_pos
  rw [digits_of_lt hm, digits_of_le hn, List.length_append, List.length_singleton,
    List.length_singleton] at hlength
  omega

/-- Numbers with the same hexadecimal digits are the same. -/
theorem digits_inj {m n : Nat} (h : digits m = digits n) : m = n := by
  induction m using Nat.strongRecOn generalizing n with
  | ind m ih =>
      rcases Nat.lt_or_ge m 16 with hm | hm
      · rcases Nat.lt_or_ge n 16 with hn | hn
        · rw [digits_of_lt hm, digits_of_lt hn, List.singleton_inj] at h
          exact digitChar_inj hm hn h
        · exact absurd h (digits_ne_of_lt_of_le hm hn)
      · rcases Nat.lt_or_ge n 16 with hn | hn
        · exact absurd h.symm (digits_ne_of_lt_of_le hn hm)
        · rw [digits_of_le hm, digits_of_le hn] at h
          rcases List.append_inj' h rfl with ⟨hfront, hlast⟩
          have hrest := ih (m / 16) (by omega) hfront
          have hdigit := digitChar_inj (Nat.mod_lt m (by decide)) (Nat.mod_lt n (by decide))
            (List.singleton_inj.1 hlast)
          omega

/-- There is nothing but digits among the digits of a number. -/
theorem exists_digitChar_of_mem_digits {n : Nat} {c : Char} (h : c ∈ digits n) :
    ∃ k : Nat, c = k.digitChar := by
  induction n using Nat.strongRecOn with
  | ind n ih =>
      rcases Nat.lt_or_ge n 16 with hn | hn
      · rw [digits_of_lt hn, List.mem_singleton] at h
        exact ⟨n, h⟩
      · rw [digits_of_le hn, List.mem_append, List.mem_singleton] at h
        rcases h with h | h
        · exact ih (n / 16) (by omega) h
        · exact ⟨n % 16, h⟩

/-- The two digits of a byte. -/
theorem toList_byte (b : UInt8) :
    (byte b).toList = [(b.toNat / 16).digitChar, (b.toNat % 16).digitChar] := by
  have hall : ∀ n < 256, (digits n).leftpad 2 '0' = [(n / 16).digitChar, (n % 16).digitChar] := by
    decide +kernel
  rw [byte, padded, String.toList_ofList]
  exact hall b.toNat b.toNat_lt

theorem byte_inj {b b' : UInt8} (h : (byte b).toList = (byte b').toList) : b = b' := by
  have hb := b.toNat_lt
  have hb' := b'.toNat_lt
  rw [toList_byte, toList_byte] at h
  rcases List.cons.inj h with ⟨hhigh, hrest⟩
  have hhigh' := digitChar_inj (by omega) (by omega) hhigh
  have hlow := digitChar_inj (by omega) (by omega) (List.singleton_inj.1 hrest)
  apply UInt8.toNat_inj.1
  omega

/-- The digits of bytes come back when their text is split at its spaces. -/
theorem splitOn_spaced {bs : List UInt8} (h : bs ≠ []) :
    (spaced bs).toList.splitOn ' ' = bs.map fun b => (byte b).toList := by
  have hspace : " ".toList = [' '] := rfl
  rw [spaced, String.toList_intercalate, hspace, List.splitOn_intercalate]
  · rw [List.map_map]
    rfl
  · intro digits hdigits
    rw [List.map_map, List.mem_map] at hdigits
    rcases hdigits with ⟨b, _, rfl⟩
    have hne : ∀ n : Nat, ' ' ≠ n.digitChar := fun n => (Nat.digitChar_ne ' ' (by decide)).symm
    rw [Function.comp_apply, toList_byte]
    simp [hne]
  · simpa using h

/-- The text of some bytes is not empty. -/
theorem spaced_cons_ne_nil (b : UInt8) (bs : List UInt8) : spaced (b :: bs) ≠ spaced [] := by
  intro h
  have hsplit := splitOn_spaced (List.cons_ne_nil b bs)
  have hnil : (spaced []).toList.splitOn ' ' = [[]] := rfl
  rw [h, hnil, List.map_cons, toList_byte] at hsplit
  cases hsplit

/-- Bytes with the same text are the same. -/
theorem spaced_inj {bs bs' : List UInt8} (h : spaced bs = spaced bs') : bs = bs' := by
  cases bs with
  | nil =>
      cases bs' with
      | nil => rfl
      | cons b' bs' => exact absurd h.symm (spaced_cons_ne_nil b' bs')
  | cons b bs =>
      cases bs' with
      | nil => exact absurd h (spaced_cons_ne_nil b bs)
      | cons b' bs' =>
          have hsplit := congrArg (fun s : String => s.toList.splitOn ' ') h
          simp only [splitOn_spaced (List.cons_ne_nil _ _)] at hsplit
          exact (List.map_inj_right fun _ _ => byte_inj).1 hsplit

end Hex
end DataBlock
