import DataBlock.Number.Count

/-!
# Binary floating point

The two binary interchange formats, looked at through their bits: the fields of
a number, which patterns are no number, when two patterns are equal numbers, and
the step from the narrow format to the wide one.

Main results:

- `Binary.equal_comm`: equality of floating-point numbers is symmetric.
- `Binary.equal_self_iff`: only a pattern that is no number differs from itself.
- `Binary.equal_trans`: equality of floating-point numbers is transitive.
-/

namespace DataBlock

/-- A binary interchange format, by the widths of its exponent and fraction. -/
structure Binary where
  exponentBits : Nat
  fractionBits : Nat
  deriving DecidableEq, Repr

namespace Binary

/-- The format of 32 bits. -/
def single : Binary :=
  ⟨8, 23⟩

/-- The format of 64 bits. -/
def double : Binary :=
  ⟨11, 52⟩

variable (f : Binary)

/-! ## Fields -/

/-- The fraction field of a pattern. -/
def fraction (bits : Nat) : Nat :=
  bits % 2 ^ f.fractionBits

/-- The exponent field of a pattern. -/
def exponent (bits : Nat) : Nat :=
  bits / 2 ^ f.fractionBits % 2 ^ f.exponentBits

/-- Whether the sign bit of a pattern is set. -/
def negative (bits : Nat) : Bool :=
  bits / 2 ^ (f.fractionBits + f.exponentBits) % 2 == 1

/-- The pattern with the given fields. -/
def pack (negative : Bool) (exponent fraction : Nat) : Nat :=
  (negative.toNat * 2 ^ f.exponentBits + exponent) * 2 ^ f.fractionBits + fraction

/-- The exponent field of infinities and of patterns that are no number. -/
def topExponent : Nat :=
  2 ^ f.exponentBits - 1

/-- What is taken from the exponent field to get the power of two. -/
def bias : Nat :=
  2 ^ (f.exponentBits - 1) - 1

/-! ## Kinds of patterns -/

/-- A pattern that is no number. -/
def IsNaN (bits : Nat) : Prop :=
  f.exponent bits = f.topExponent ∧ f.fraction bits ≠ 0

instance (bits : Nat) : Decidable (f.IsNaN bits) :=
  inferInstanceAs (Decidable (_ ∧ _))

/-- A pattern of an infinity. -/
def IsInfinite (bits : Nat) : Prop :=
  f.exponent bits = f.topExponent ∧ f.fraction bits = 0

instance (bits : Nat) : Decidable (f.IsInfinite bits) :=
  inferInstanceAs (Decidable (_ ∧ _))

/-- A pattern of zero, of either sign. -/
def IsZero (bits : Nat) : Prop :=
  f.exponent bits = 0 ∧ f.fraction bits = 0

instance (bits : Nat) : Decidable (f.IsZero bits) :=
  inferInstanceAs (Decidable (_ ∧ _))

/-! ## Equality of numbers -/

/-- Equality of the numbers behind two patterns: the two zeros are equal, and
what is no number equals nothing. -/
def Equal (a b : Nat) : Prop :=
  ¬ f.IsNaN a ∧ ¬ f.IsNaN b ∧ (a = b ∨ f.IsZero a ∧ f.IsZero b)

instance (a b : Nat) : Decidable (f.Equal a b) :=
  inferInstanceAs (Decidable (_ ∧ _ ∧ (_ ∨ _)))

theorem equal_comm {a b : Nat} : f.Equal a b ↔ f.Equal b a := by
  constructor <;> rintro ⟨ha, hb, h⟩ <;>
    exact ⟨hb, ha, h.elim (fun e => .inl e.symm) (fun z => .inr z.symm)⟩

theorem equal_self_iff {a : Nat} : f.Equal a a ↔ ¬ f.IsNaN a :=
  ⟨fun h => h.1, fun h => ⟨h, h, .inl rfl⟩⟩

variable {f} in
theorem equal_trans {a b c : Nat} (h : f.Equal a b) (h' : f.Equal b c) : f.Equal a c := by
  obtain ⟨ha, _, rfl | ⟨hzero, _⟩⟩ := h
  · exact h'
  · obtain ⟨_, hc, rfl | ⟨_, hzero'⟩⟩ := h'
    · exact ⟨ha, hc, .inr ⟨hzero, ‹_›⟩⟩
    · exact ⟨ha, hc, .inr ⟨hzero, hzero'⟩⟩

/-! ## The magnitude of a number -/

/-- The whole number that, times a power of two, is the magnitude. -/
def significand (bits : Nat) : Nat :=
  if f.exponent bits = 0 then f.fraction bits
  else 2 ^ f.fractionBits + f.fraction bits

/-- The power of two that belongs to the significand. -/
def power (bits : Nat) : Int :=
  (max (f.exponent bits) 1 : Nat) - (f.bias + f.fractionBits : Nat)

/-! ## From the narrow format to the wide one -/

/-- The wide pattern of the number behind a narrow one.  Every number of the
narrow format has one; a number below the normal range gets a leading bit, and
what is no number keeps its fraction and becomes quiet. -/
def widen (bits : Nat) : Nat :=
  let exponent := single.exponent bits
  let fraction := single.fraction bits
  let gap := double.fractionBits - single.fractionBits
  let shift := double.bias - single.bias
  let pack := double.pack (single.negative bits)
  if exponent = single.topExponent then
    if fraction = 0 then pack double.topExponent 0
    else
      let quiet := 2 ^ (single.fractionBits - 1)
      pack double.topExponent ((fraction % quiet + quiet) * 2 ^ gap)
  else if exponent = 0 then
    if fraction = 0 then pack 0 0
    else
      let lead := fraction.log2
      pack (lead + 1 + shift - single.fractionBits)
        ((fraction - 2 ^ lead) * 2 ^ (double.fractionBits - lead))
  else pack (exponent + shift) (fraction * 2 ^ gap)

end Binary
end DataBlock
