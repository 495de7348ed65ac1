import DataBlock.Number.Binary
import DataBlock.Number.Decimal

/-!
# Shortest decimal digits

The text of a floating-point number has the fewest digits that read back as the
same number.  Every binary number is a decimal with finitely many places, so the
number and the two ends of the interval that rounds to it are whole numbers on
one decimal scale, and the search is exact.

Main result:

- `RoundingInterval.contains_shortest`: the digits that are chosen lie in the
  interval, so they read back as the number.
-/

namespace DataBlock

/-! ## The interval that rounds to a number -/

/-- A positive number with the ends of the interval that rounds to it, all three
in units of `10 ^ -scale`. -/
structure RoundingInterval where
  low : Nat
  value : Nat
  high : Nat
  scale : Nat
  /-- Whether the ends themselves round to the number. -/
  closed : Bool
  low_lt_value : low < value
  value_lt_high : value < high

namespace RoundingInterval

/-- A whole number of units that rounds to the number. -/
def Contains (r : RoundingInterval) (n : Nat) : Prop :=
  if r.closed then r.low ≤ n ∧ n ≤ r.high else r.low < n ∧ n < r.high

instance (r : RoundingInterval) (n : Nat) : Decidable (r.Contains n) :=
  decidable_of_iff (if r.closed then r.low ≤ n ∧ n ≤ r.high else r.low < n ∧ n < r.high)
    Iff.rfl

theorem contains_value (r : RoundingInterval) : r.Contains r.value := by
  have hlow := r.low_lt_value
  have hhigh := r.value_lt_high
  unfold Contains
  split <;> omega

/-! ## Search by count of digits -/

/-- The multiple of `step` that rounds to the number, the nearer one where both
neighbours do, the upper one where they are equally near. -/
def onGrid? (r : RoundingInterval) (step : Nat) : Option Nat :=
  let down := r.value / step * step
  let up := down + step
  if r.Contains down then
    if r.Contains up ∧ up - r.value ≤ r.value - down then some up else some down
  else if r.Contains up then some up else none

theorem contains_of_onGrid? {r : RoundingInterval} {step n : Nat}
    (h : r.onGrid? step = some n) : r.Contains n := by
  simp only [onGrid?] at h
  split at h
  · next hdown =>
      split at h
      · next hup => exact Option.some.inj h ▸ hup.1
      · exact Option.some.inj h ▸ hdown
  · split at h
    · next hup => exact Option.some.inj h ▸ hup
    · exact absurd h (by simp)

/-- The coarsest decimal grid, of at most `most` digits, that has a number which
rounds to the value; the value itself if no grid has one. -/
def shortest (r : RoundingInterval) (most : Nat) : Nat :=
  let places := (Decimal.digits r.value).length
  ((List.range most).findSome? fun i => r.onGrid? (10 ^ (places - (i + 1)))).getD r.value

/-- The digits that are chosen lie in the interval, so they read back. -/
theorem contains_shortest (r : RoundingInterval) (most : Nat) :
    r.Contains (r.shortest most) := by
  simp only [shortest]
  generalize (Decimal.digits r.value).length = places
  cases hfound : (List.range most).findSome? fun i => r.onGrid? (10 ^ (places - (i + 1))) with
  | none => exact r.contains_value
  | some n =>
      obtain ⟨i, _, hi⟩ := List.exists_of_findSome?_eq_some hfound
      exact contains_of_onGrid? hi

end RoundingInterval

/-! ## Floating-point text -/

namespace Binary

variable (f : Binary)

/-- The interval around `significand * 2 ^ power`, where the gap to the next
smaller number is half the usual one if `narrow` holds.  Its ends belong to it if
the significand is even. -/
def interval (significand : Nat) (power : Int) (narrow : Bool)
    (h : 0 < significand) : RoundingInterval :=
  let unit := if 2 ≤ power then 2 ^ (power - 2).toNat else 5 ^ (2 - power).toNat
  have hunit : 0 < unit := by
    dsimp only [unit]
    split
    · exact Nat.pow_pos (by decide)
    · exact Nat.pow_pos (by decide)
  { low := (4 * significand - if narrow then 1 else 2) * unit
    value := 4 * significand * unit
    high := (4 * significand + 2) * unit
    scale := (2 - power).toNat
    closed := significand % 2 == 0
    low_lt_value := Nat.mul_lt_mul_of_pos_right (by split <;> omega) hunit
    value_lt_high := Nat.mul_lt_mul_of_pos_right (by omega) hunit }

/-- More digits than this are never needed to tell two numbers of a format apart. -/
def mostDigits : Nat :=
  17

/-- The text of the magnitude of a finite number: the fewest digits that read
back, written with a point and never with an exponent. -/
def magnitudeText (bits : Nat) : String :=
  if h : 0 < f.significand bits then
    let narrow := f.fraction bits == 0 && decide (1 < f.exponent bits)
    let r := interval (f.significand bits) (f.power bits) narrow h
    Decimal.positional (r.shortest mostDigits) r.scale
  else "0"

/-- The text of a floating-point number. -/
def text (bits : Nat) : String :=
  if f.IsNaN bits then "NaN"
  else
    let magnitude := if f.IsInfinite bits then "inf" else f.magnitudeText bits
    if f.negative bits then "-" ++ magnitude else magnitude

end Binary
end DataBlock
