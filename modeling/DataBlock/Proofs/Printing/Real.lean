import DataBlock.Number.Shortest
import DataBlock.Proofs.Printing.Numeral
import Mathlib.Tactic.Ring

/-!
# Printed floating-point numbers are read back

The text of a number lies in the interval of the decimals that round to it.  The intervals
of two numbers meet in one point at most, and then in one that belongs to one of them only:
of two neighbours one has an odd significand.  So numbers with the same text are the same.

Main results:

- `Binary.exists_magnitudeText`: the text of a magnitude lies in its interval.
- `Binary.highEnd_le_lowEnd`: the intervals of two magnitudes lie side by side.
- `Binary.magnitudeText_inj`: magnitudes with the same text are the same.
- `Binary.text_eq_iff`: which patterns of bits have the same text.
-/

namespace DataBlock
namespace Binary

variable {f : Binary} {a b bits : Nat}

/-! ## Intervals on one grid

All ends of intervals are whole numbers in units of half the gap between the least numbers
of the format, halved once more. -/

/-- The exponent field, where numbers below the normal range have that of the least normal
ones. -/
def level (f : Binary) (bits : Nat) : Nat :=
  max (f.exponent bits) 1

/-- The units in one. -/
def units (f : Binary) : Nat :=
  2 ^ (f.bias + f.fractionBits + 1)

/-- The gap to the next smaller number is half the one to the next larger number. -/
def narrow (f : Binary) (bits : Nat) : Bool :=
  f.fraction bits == 0 && decide (1 < f.exponent bits)

/-- The lower end of the interval around a magnitude. -/
def lowEnd (f : Binary) (bits : Nat) : Nat :=
  (4 * f.significand bits - if f.narrow bits then 1 else 2) * 2 ^ (f.level bits - 1)

/-- The upper end of the interval around a magnitude. -/
def highEnd (f : Binary) (bits : Nat) : Nat :=
  (4 * f.significand bits + 2) * 2 ^ (f.level bits - 1)

/-- A decimal lies in the interval around a magnitude; the ends belong to it if the
significand is even. -/
structure Around (f : Binary) (bits n scale : Nat) : Prop where
  low : f.lowEnd bits * 10 ^ scale ≤ n * f.units
  high : n * f.units ≤ f.highEnd bits * 10 ^ scale
  low_odd : f.significand bits % 2 = 1 → f.lowEnd bits * 10 ^ scale < n * f.units
  high_odd : f.significand bits % 2 = 1 → n * f.units < f.highEnd bits * 10 ^ scale

/-- The unit of a decimal scale on the grid. -/
theorem unit_mul_units (level grid : Nat) (hlevel : 1 ≤ level) :
    (if 2 ≤ (level : Int) - grid then 2 ^ ((level : Int) - grid - 2).toNat
      else 5 ^ (2 - ((level : Int) - grid)).toNat) * 2 ^ (grid + 1)
      = 2 ^ (level - 1) * 10 ^ (2 - ((level : Int) - grid)).toNat := by
  by_cases h : 2 ≤ (level : Int) - grid
  · have hscale : (2 - ((level : Int) - grid)).toNat = 0 := by omega
    have hpower : ((level : Int) - grid - 2).toNat + (grid + 1) = level - 1 := by omega
    rw [if_pos h, hscale, ← Nat.pow_add, hpower, Nat.pow_zero, Nat.mul_one]
  · generalize hscale : (2 - ((level : Int) - grid)).toNat = scale
    have hgrid : grid + 1 = level - 1 + scale := by omega
    have hten : 10 ^ scale = 2 ^ scale * 5 ^ scale := Nat.mul_pow 2 5 scale
    rw [if_neg h, hgrid, Nat.pow_add, hten]
    ring

/-- The ends of an interval on the grid. -/
theorem interval_ends {significand level grid : Nat} (hlevel : 1 ≤ level) (narrow : Bool)
    (h : 0 < significand) {r : RoundingInterval}
    (hr : interval significand ((level : Int) - grid) narrow h = r) :
    r.low * 2 ^ (grid + 1)
        = (4 * significand - if narrow then 1 else 2) * 2 ^ (level - 1) * 10 ^ r.scale
      ∧ r.high * 2 ^ (grid + 1) = (4 * significand + 2) * 2 ^ (level - 1) * 10 ^ r.scale := by
  have hunit := unit_mul_units level grid hlevel
  subst hr
  constructor
  · rw [Nat.mul_assoc _ (2 ^ (level - 1)), interval, Nat.mul_assoc]
    exact congrArg _ hunit
  · rw [Nat.mul_assoc _ (2 ^ (level - 1)), interval, Nat.mul_assoc]
    exact congrArg _ hunit

/-- The text of a magnitude lies in its interval. -/
theorem exists_magnitudeText (h : 0 < f.significand bits) :
    ∃ n scale, f.magnitudeText bits = Decimal.positional n scale ∧ f.Around bits n scale := by
  rw [magnitudeText, dif_pos h]
  simp only
  generalize hr : interval (f.significand bits) (f.power bits)
    (f.fraction bits == 0 && decide (1 < f.exponent bits)) h = r
  have hends := interval_ends (Nat.le_max_right _ _) _ h hr
  have hlow : r.low * f.units = f.lowEnd bits * 10 ^ r.scale := hends.1
  have hhigh : r.high * f.units = f.highEnd bits * 10 ^ r.scale := hends.2
  have hclosed : r.closed = (f.significand bits % 2 == 0) := by rw [← hr, interval]
  have hunits : 0 < f.units := Nat.pow_pos (by decide)
  have hcontains := r.contains_shortest mostDigits
  generalize r.shortest mostDigits = n at hcontains
  refine ⟨n, r.scale, rfl, ?_⟩
  rw [RoundingInterval.Contains, hclosed] at hcontains
  by_cases heven : f.significand bits % 2 = 0
  · rw [if_pos (beq_iff_eq.2 heven)] at hcontains
    refine ⟨?_, ?_, fun hodd => by omega, fun hodd => by omega⟩
    · rw [← hlow]
      exact Nat.mul_le_mul_right _ hcontains.1
    · rw [← hhigh]
      exact Nat.mul_le_mul_right _ hcontains.2
  · rw [if_neg (mt beq_iff_eq.1 heven)] at hcontains
    have hlower := Nat.mul_lt_mul_of_pos_right hcontains.1 hunits
    have hupper := Nat.mul_lt_mul_of_pos_right hcontains.2 hunits
    rw [hlow] at hlower
    rw [hhigh] at hupper
    exact ⟨hlower.le, hupper.le, fun _ => hlower, fun _ => hupper⟩

/-! ## Neighbours -/

/-- The magnitude of a pattern is less than that of another one. -/
def Below (f : Binary) (a b : Nat) : Prop :=
  f.level a < f.level b ∨ f.level a = f.level b ∧ f.significand a < f.significand b

theorem fraction_lt (f : Binary) (bits : Nat) : f.fraction bits < 2 ^ f.fractionBits :=
  Nat.mod_lt _ (Nat.pow_pos (by decide))

theorem significand_lt (f : Binary) (bits : Nat) :
    f.significand bits < 2 * 2 ^ f.fractionBits := by
  have hfraction := f.fraction_lt bits
  unfold significand
  split <;> omega

/-- Above the least level there is a leading bit, which alone makes the gap below narrow. -/
theorem significand_of_level (h : 1 < f.level bits) :
    f.significand bits = 2 ^ f.fractionBits + f.fraction bits
      ∧ (f.narrow bits = true ↔ f.fraction bits = 0) := by
  have hexponent : 1 < f.exponent bits := by
    unfold level at h
    omega
  constructor
  · rw [significand, if_neg (by omega)]
  · simp [narrow, hexponent]

/-- Twice the gap at a level is at most the gap at a higher level. -/
theorem two_mul_pow_le {m n : Nat} (hm : 1 ≤ m) (h : m < n) :
    2 * 2 ^ (m - 1) ≤ 2 ^ (n - 1) := by
  rw [← Nat.pow_succ']
  exact Nat.pow_le_pow_right (by decide) (by omega)

/-- Within a level, the interval of a magnitude ends before that of a larger one begins, or
they are neighbours. -/
theorem ends_of_level_eq {m n cut : Nat} (hcut : cut = 1 ∨ cut = 2) (h : m < n) :
    4 * m + 2 < 4 * n - cut ∨ 4 * m + 2 = 4 * n - cut ∧ (m % 2 = 1 ∨ n % 2 = 1) := by
  omega

/-- The last interval of a level ends where the first of the next level begins. -/
theorem ends_of_level_lt (ha : f.significand a < 2 * 2 ^ f.fractionBits) (hb : 1 < f.level b) :
    4 * f.significand a + 2 < 2 * (4 * f.significand b - if f.narrow b then 1 else 2)
      ∨ 4 * f.significand a + 2 = 2 * (4 * f.significand b - if f.narrow b then 1 else 2)
        ∧ f.significand a % 2 = 1 := by
  rcases significand_of_level hb with ⟨hsignificand, hnarrow⟩
  by_cases hzero : f.fraction b = 0
  · rw [if_pos (hnarrow.2 hzero), hsignificand]
    omega
  · rw [if_neg (mt hnarrow.1 hzero), hsignificand]
    omega

/-- The intervals of two magnitudes lie side by side, and where they meet, one of the
significands is odd. -/
theorem highEnd_le_lowEnd (h : f.Below a b) :
    f.highEnd a < f.lowEnd b
      ∨ f.highEnd a = f.lowEnd b ∧ (f.significand a % 2 = 1 ∨ f.significand b % 2 = 1) := by
  have hlevel : 1 ≤ f.level a := Nat.le_max_right _ _
  have hpos : 0 < 2 ^ (f.level a - 1) := Nat.pow_pos (by decide)
  unfold highEnd lowEnd
  generalize hcut : (if f.narrow b then 1 else 2 : Nat) = cut
  rcases h with hlt | ⟨heq, hlt⟩
  · have hends := ends_of_level_lt (f.significand_lt a) (Nat.lt_of_le_of_lt hlevel hlt)
    rw [hcut] at hends
    have hgap : 2 * (4 * f.significand b - cut) * 2 ^ (f.level a - 1)
        ≤ (4 * f.significand b - cut) * 2 ^ (f.level b - 1) := by
      rw [Nat.mul_comm 2, Nat.mul_assoc]
      exact Nat.mul_le_mul_left _ (two_mul_pow_le hlevel hlt)
    rcases hends with hless | ⟨hsame, hodd⟩
    · exact .inl (Nat.lt_of_lt_of_le (Nat.mul_lt_mul_of_pos_right hless hpos) hgap)
    · rw [← hsame] at hgap
      exact (Nat.lt_or_eq_of_le hgap).imp_right fun hmeet => ⟨hmeet, .inl hodd⟩
  · have hone : cut = 1 ∨ cut = 2 := by
      rw [← hcut]
      split <;> simp
    rw [← heq]
    rcases ends_of_level_eq hone hlt with hless | ⟨hsame, hodd⟩
    · exact .inl (Nat.mul_lt_mul_of_pos_right hless hpos)
    · exact .inr ⟨by rw [hsame], hodd⟩

/-- No decimal lies in the intervals of two magnitudes. -/
theorem Around.not_below {m n scale scale' : Nat} (ha : f.Around a m scale)
    (hb : f.Around b n scale') (h : m * 10 ^ scale' = n * 10 ^ scale) : ¬ f.Below a b := by
  intro hbelow
  have hpoint : m * f.units * 10 ^ scale' = n * f.units * 10 ^ scale := by
    rw [Nat.mul_right_comm, h, Nat.mul_right_comm]
  have hswap : ∀ x, x * 10 ^ scale' * 10 ^ scale = x * 10 ^ scale * 10 ^ scale' :=
    fun x => Nat.mul_right_comm _ _ _
  have hpos : ∀ k, 0 < 10 ^ k := fun k => Nat.pow_pos (by decide)
  have hupper := Nat.mul_le_mul_right (10 ^ scale') ha.high
  have hlower := Nat.mul_le_mul_right (10 ^ scale) hb.low
  rw [hswap] at hlower
  -- The decimal would be above the one interval or, where they meet, at the end that one of
  -- the two does not have.
  rcases highEnd_le_lowEnd hbelow with hless | ⟨hmeet, hodd | hodd⟩
  · have hends := Nat.mul_lt_mul_of_pos_right
      (Nat.mul_lt_mul_of_pos_right hless (hpos scale)) (hpos scale')
    omega
  · have hupper' := Nat.mul_lt_mul_of_pos_right (ha.high_odd hodd) (hpos scale')
    rw [hmeet] at hupper'
    omega
  · have hlower' := Nat.mul_lt_mul_of_pos_right (hb.low_odd hodd) (hpos scale)
    rw [hswap, ← hmeet] at hlower'
    omega

/-! ## Magnitudes -/

theorem lowEnd_pos (h : 0 < f.significand bits) : 0 < f.lowEnd bits := by
  apply Nat.mul_pos
  · split <;> omega
  · exact Nat.pow_pos (by decide)

/-- A decimal in the interval of a magnitude that is not zero is not zero. -/
theorem Around.pos {n scale : Nat} (h : f.Around bits n scale)
    (hbits : 0 < f.significand bits) : 0 < n := by
  have hlow := Nat.mul_pos (lowEnd_pos hbits) (Nat.pow_pos (by decide) : 0 < 10 ^ scale)
  apply Nat.pos_of_ne_zero
  rintro rfl
  have hle := h.low
  rw [Nat.zero_mul] at hle
  omega

/-- The text of a magnitude is that of a decimal which is zero or lies in the interval. -/
theorem exists_positional (f : Binary) (bits : Nat) :
    ∃ n scale, f.magnitudeText bits = Decimal.positional n scale
      ∧ (f.significand bits = 0 ∧ n = 0 ∨ f.Around bits n scale ∧ 0 < n) := by
  by_cases h : 0 < f.significand bits
  · rcases exists_magnitudeText h with ⟨n, scale, htext, haround⟩
    exact ⟨n, scale, htext, .inr ⟨haround, haround.pos h⟩⟩
  · have hzero : Decimal.positional 0 0 = "0" := by decide +kernel
    exact ⟨0, 0, by rw [magnitudeText, dif_neg h, hzero], .inl ⟨by omega, rfl⟩⟩

/-- Magnitudes with the same text have the same significand at the same level. -/
theorem magnitudeText_inj (h : f.magnitudeText a = f.magnitudeText b) :
    f.significand a = f.significand b ∧ (f.significand a = 0 ∨ f.level a = f.level b) := by
  rcases f.exists_positional a with ⟨m, scale, htext, ha⟩
  rcases f.exists_positional b with ⟨n, scale', htext', hb⟩
  rw [htext, htext'] at h
  have hpoint := Decimal.positional_inj h
  have hpos : ∀ k, 0 < 10 ^ k := fun k => Nat.pow_pos (by decide)
  rcases ha with ⟨hzero, rfl⟩ | ⟨ha, hm⟩
  · rcases hb with ⟨hzero', rfl⟩ | ⟨hb, hn⟩
    · exact ⟨hzero.trans hzero'.symm, .inl hzero⟩
    · have := Nat.mul_pos hn (hpos scale)
      omega
  · rcases hb with ⟨hzero', rfl⟩ | ⟨hb, hn⟩
    · have := Nat.mul_pos hm (hpos scale')
      omega
    · have hab := ha.not_below hb hpoint
      have hba := hb.not_below ha hpoint.symm
      unfold Below at hab hba
      omega

/-- A significand and its level tell the fields of a pattern. -/
theorem fields_of_significand (h : f.significand a = f.significand b)
    (hlevel : f.significand a = 0 ∨ f.level a = f.level b) :
    f.exponent a = f.exponent b ∧ f.fraction a = f.fraction b := by
  have ha := f.fraction_lt a
  have hb := f.fraction_lt b
  unfold level at hlevel
  unfold significand at h hlevel
  split at h <;> split at h <;> split at hlevel <;> omega

/-! ## Texts -/

/-- What is written of a number that is one, but for its sign. -/
def unsignedText (f : Binary) (bits : Nat) : String :=
  if f.IsInfinite bits then "inf" else f.magnitudeText bits

theorem text_of_not_isNaN (h : ¬ f.IsNaN bits) :
    f.text bits = if f.negative bits then "-" ++ f.unsignedText bits else f.unsignedText bits :=
  if_neg h

theorem isDigit_or_eq_of_mem_magnitudeText {c : Char}
    (h : c ∈ (f.magnitudeText bits).toList) : c.isDigit = true ∨ c = '.' := by
  rcases f.exists_positional bits with ⟨n, scale, htext, _⟩
  rw [htext] at h
  exact Decimal.isDigit_or_eq_of_mem_positional h

/-- A letter that is not in the word for infinity, or a sign, is in no unsigned text. -/
theorem not_mem_unsignedText {c : Char} (hdigit : c.isDigit = false) (hpoint : c ≠ '.')
    (hword : c ∉ "inf".toList) : c ∉ (f.unsignedText bits).toList := by
  unfold unsignedText
  split
  · exact hword
  · intro h
    rcases isDigit_or_eq_of_mem_magnitudeText h with h | h
    · rw [hdigit] at h
      cases h
    · exact hpoint h

/-- Only what is no number is written with a capital letter. -/
theorem text_ne_nan (h : ¬ f.IsNaN bits) : f.text bits ≠ "NaN" := by
  intro hnan
  have hmem : 'N' ∈ (f.text bits).toList := by
    rw [hnan]
    decide
  have hbody : 'N' ∉ (f.unsignedText bits).toList :=
    not_mem_unsignedText (by decide) (by decide) (by decide)
  rw [text_of_not_isNaN h] at hmem
  split at hmem
  · rw [String.toList_append, List.mem_append] at hmem
    exact hmem.elim (by decide) hbody
  · exact hbody hmem

/-- A text tells the sign and what is written behind it. -/
theorem negative_eq_of_text_eq (ha : ¬ f.IsNaN a) (hb : ¬ f.IsNaN b) (h : f.text a = f.text b) :
    f.negative a = f.negative b ∧ f.unsignedText a = f.unsignedText b := by
  have hsign : ∀ bits s, "-" ++ s ≠ f.unsignedText bits := by
    intro bits s heq
    have hmem : '-' ∈ (f.unsignedText bits).toList := by
      rw [← heq, String.toList_append]
      exact List.mem_append_left _ (by decide)
    exact not_mem_unsignedText (by decide) (by decide) (by decide) hmem
  rw [text_of_not_isNaN ha, text_of_not_isNaN hb] at h
  cases hna : f.negative a with
  | true =>
      cases hnb : f.negative b with
      | true =>
          rw [hna, hnb, if_pos rfl, if_pos rfl, String.append_right_inj] at h
          exact ⟨rfl, h⟩
      | false =>
          rw [hna, hnb, if_pos rfl, if_neg Bool.false_ne_true] at h
          exact absurd h (hsign b _)
  | false =>
      cases hnb : f.negative b with
      | true =>
          rw [hna, hnb, if_pos rfl, if_neg Bool.false_ne_true] at h
          exact absurd h.symm (hsign a _)
      | false =>
          rw [hna, hnb, if_neg Bool.false_ne_true, if_neg Bool.false_ne_true] at h
          exact ⟨rfl, h⟩

/-- What is written behind the sign tells the fields of a number. -/
theorem fields_of_unsignedText (h : f.unsignedText a = f.unsignedText b) :
    f.exponent a = f.exponent b ∧ f.fraction a = f.fraction b := by
  have hword : ∀ bits, f.magnitudeText bits ≠ "inf" := by
    intro bits heq
    have hmem : 'i' ∈ (f.magnitudeText bits).toList := by
      rw [heq]
      decide
    exact absurd (isDigit_or_eq_of_mem_magnitudeText hmem) (by decide)
  unfold unsignedText at h
  by_cases ha : f.IsInfinite a
  · by_cases hb : f.IsInfinite b
    · exact ⟨ha.1.trans hb.1.symm, ha.2.trans hb.2.symm⟩
    · rw [if_pos ha, if_neg hb] at h
      exact absurd h.symm (hword b)
  · by_cases hb : f.IsInfinite b
    · rw [if_neg ha, if_pos hb] at h
      exact absurd h (hword a)
    · rw [if_neg ha, if_neg hb] at h
      rcases magnitudeText_inj h with ⟨hsignificand, hlevel⟩
      exact fields_of_significand hsignificand hlevel

/-- The sign bit is what is left above the other fields. -/
theorem toNat_negative (h : bits < 2 ^ (f.fractionBits + f.exponentBits + 1)) :
    (f.negative bits).toNat = bits / 2 ^ f.fractionBits / 2 ^ f.exponentBits := by
  have hlt : bits / 2 ^ (f.fractionBits + f.exponentBits) < 2 := by
    rw [Nat.pow_succ] at h
    exact Nat.div_lt_of_lt_mul h
  rw [Nat.div_div_eq_div_mul, ← Nat.pow_add, negative, Nat.mod_eq_of_lt hlt]
  generalize bits / 2 ^ (f.fractionBits + f.exponentBits) = sign at hlt
  have hsign : sign = 0 ∨ sign = 1 := by omega
  rcases hsign with rfl | rfl <;> rfl

/-- The fields of a pattern are all there is of it. -/
theorem eq_of_fields (ha : a < 2 ^ (f.fractionBits + f.exponentBits + 1))
    (hb : b < 2 ^ (f.fractionBits + f.exponentBits + 1))
    (hnegative : f.negative a = f.negative b) (hexponent : f.exponent a = f.exponent b)
    (hfraction : f.fraction a = f.fraction b) : a = b := by
  have hfront : a / 2 ^ f.fractionBits = b / 2 ^ f.fractionBits := by
    rw [← Nat.div_add_mod (a / 2 ^ f.fractionBits) (2 ^ f.exponentBits), ← toNat_negative ha,
      hnegative, toNat_negative hb]
    exact (congrArg _ hexponent).trans (Nat.div_add_mod _ _)
  rw [← Nat.div_add_mod a (2 ^ f.fractionBits), hfront]
  exact (congrArg _ hfraction).trans (Nat.div_add_mod _ _)

/-- Patterns of bits have the same text exactly if they are the same, or both no number. -/
theorem text_eq_iff (ha : a < 2 ^ (f.fractionBits + f.exponentBits + 1))
    (hb : b < 2 ^ (f.fractionBits + f.exponentBits + 1)) :
    f.text a = f.text b ↔ f.IsNaN a ∧ f.IsNaN b ∨ a = b := by
  have hnan : ∀ bits, f.IsNaN bits → f.text bits = "NaN" := fun bits h => if_pos h
  constructor
  · intro h
    by_cases hna : f.IsNaN a
    · by_cases hnb : f.IsNaN b
      · exact .inl ⟨hna, hnb⟩
      · rw [hnan a hna] at h
        exact absurd h.symm (text_ne_nan hnb)
    · by_cases hnb : f.IsNaN b
      · rw [hnan b hnb] at h
        exact absurd h (text_ne_nan hna)
      · rcases negative_eq_of_text_eq hna hnb h with ⟨hnegative, hbody⟩
        rcases fields_of_unsignedText hbody with ⟨hexponent, hfraction⟩
        exact .inr (eq_of_fields ha hb hnegative hexponent hfraction)
  · rintro (⟨hna, hnb⟩ | rfl)
    · rw [hnan a hna, hnan b hnb]
    · rfl

end Binary
end DataBlock
