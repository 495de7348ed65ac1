import DataBlock.Proofs.Printing

/-!
# Keys are compared as numbers

The comparison of keys looks at two integers in the widest signed kind, and where that kind does
not hold both, in the widest unsigned one.  Whatever the kinds of the two are, it comes to the
same as a comparison of their numbers.  No integer is the key of anything else.  All but the
patterns that are no numbers are equal to themselves as keys, and equality of keys is symmetric
and transitive.

Main results:

- `Value.sameKey_self_iff`: what is the same key as itself.
- `Value.equalKeys_comm`, `Value.equalKeys_trans`: the comparison does not depend on the order
  of two keys, and can be chained.
- `Value.keys_compare_as_numbers`: what the comparison finds out.
-/

namespace DataBlock
namespace Value

/-- Only a pattern that is no number differs from itself as a key. -/
theorem sameKey_self_iff {v : Value} : v.SameKey v ↔ ¬ v.IsNaN := by
  cases v with
  | single bits => exact Binary.single.equal_self_iff
  | double bits => exact Binary.double.equal_self_iff
  | _ => exact ⟨fun _ => id, fun _ => rfl⟩

/-- An integer is the same key as an integer only. -/
theorem isInteger_of_sameKey {m : IntValue} {v : Value} (h : (integer m).SameKey v) :
    v.isInteger = true := by
  cases v with
  | integer n => rfl
  | _ => cases h

/-- An integer and a value that is none are not equal as keys, in either order. -/
theorem equalKeys_of_not_isInteger {m : IntValue} {v : Value} (h : v.isInteger = false) :
    (integer m).equalKeys v = false ∧ v.equalKeys (integer m) = false := by
  have hne : ¬ (integer m).SameKey v := fun hkey => by
    rw [isInteger_of_sameKey hkey] at h
    cases h
  simp only [← Bool.not_eq_true, equalKeys_iff]
  exact ⟨hne, fun hkey => hne hkey.symm⟩

theorem equalKeys_comm (v w : Value) : v.equalKeys w = w.equalKeys v := by
  rw [Bool.eq_iff_iff, equalKeys_iff, equalKeys_iff]
  exact ⟨SameKey.symm, SameKey.symm⟩

theorem equalKeys_trans {u v w : Value} (h : u.equalKeys v = true) (h' : v.equalKeys w = true) :
    u.equalKeys w = true := by
  rw [equalKeys_iff] at h h' ⊢
  exact h.trans h'

/-- Integers of any kinds are equal as keys exactly if they are the same number, and an integer
never equals what is no integer.  Every value but a pattern that is no number equals itself, and
on these values equality of keys is an equivalence. -/
theorem keys_compare_as_numbers :
    (∀ m n : IntValue, (integer m).equalKeys (integer n) = true ↔ m.number = n.number)
    ∧ (∀ (m : IntValue) (v : Value), v.isInteger = false →
      (integer m).equalKeys v = false ∧ v.equalKeys (integer m) = false)
    ∧ (∀ v : Value, v.equalKeys v = true ↔ ¬ v.IsNaN)
    ∧ Equivalence fun v w : {v : Value // ¬ v.IsNaN} => v.1.equalKeys w.1 = true := by
  have hself : ∀ v : Value, v.equalKeys v = true ↔ ¬ v.IsNaN := fun v => by
    rw [equalKeys_iff, sameKey_self_iff]
  refine ⟨fun m n => equalKeys_integer, fun m v => equalKeys_of_not_isInteger, hself, ?_⟩
  exact {
    refl := fun v => (hself v.1).2 v.2
    symm := fun {v w} h => (equalKeys_comm w.1 v.1).trans h
    trans := fun h h' => equalKeys_trans h h' }

/-- A byte with its sign bit set. -/
def minusOne : IntValue :=
  ⟨.i8, -1, by decide⟩

/-- The largest integer of all kinds, which the widest signed kind does not hold. -/
def largest : IntValue :=
  ⟨.u64, 18446744073709551615, by decide⟩

/-- Minus one and the largest integer have the same bits and are different keys.  Neither is equal
to a truth value.  The three integers one of different kinds are equal in a chain. -/
theorem keys_compare_as_numbers_at_largest :
    (integer minusOne).equalKeys (integer largest) = false
    ∧ (integer largest).equalKeys (integer largest) = true
    ∧ (integer largest).equalKeys (bool true) = false
    ∧ (integer ⟨.u8, 1, by decide⟩).equalKeys (integer ⟨.i16, 1, by decide⟩) = true
    ∧ (integer ⟨.i16, 1, by decide⟩).equalKeys (integer ⟨.u64, 1, by decide⟩) = true
    ∧ (integer ⟨.u8, 1, by decide⟩).equalKeys (integer ⟨.u64, 1, by decide⟩) = true := by
  obtain ⟨hnumber, hother, hself, hequivalence⟩ := keys_compare_as_numbers
  have hne : ¬ (integer minusOne).equalKeys (integer largest) = true := fun h =>
    absurd ((hnumber minusOne largest).1 h) (by decide)
  have hbyte := (hnumber ⟨.u8, 1, by decide⟩ ⟨.i16, 1, by decide⟩).2 rfl
  have hword := (hnumber ⟨.i16, 1, by decide⟩ ⟨.u64, 1, by decide⟩).2 rfl
  have hchain := @hequivalence.trans ⟨_, id⟩ ⟨_, id⟩ ⟨_, id⟩ hbyte hword
  exact ⟨Bool.not_eq_true _ ▸ hne, (hself _).2 id, (hother largest (bool true) rfl).1, hbyte, hword,
    hchain⟩

end Value
end DataBlock
