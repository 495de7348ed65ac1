import DataBlock.Number.Count

/-!
# Decimal numbers

Decimal digits as text: padded naturals, the value of a run of digits, numbers
with a decimal point, and the reading of counts.

Main results:

- `Decimal.value_digits`: the digits of a number have that number as their value.
- `Decimal.readCount_lt`: what is read as a count is one.
-/

namespace DataBlock

namespace Decimal

/-! ## Naturals -/

/-- The decimal digits of a number, without leading zeros. -/
def digits (n : Nat) : List Char :=
  Nat.toDigits 10 n

/-- The number that a run of decimal digits stands for. -/
def value (cs : List Char) : Nat :=
  Nat.ofDigitChars 10 cs 0

@[simp] theorem value_digits (n : Nat) : value (digits n) = n :=
  Nat.ofDigitChars_ten_toDigits

/-- The digits of a number, filled with zeros on the left up to a width. -/
def padded (width n : Nat) : String :=
  String.ofList ((digits n).leftpad width '0')

/-! ## Numbers with a point -/

/-- The text of `n / 10 ^ scale`, without zeros at the end of the fraction and
without a point where nothing follows it. -/
def positional (n scale : Nat) : String :=
  let whole := digits (n / 10 ^ scale)
  let fraction := (digits (n % 10 ^ scale)).leftpad scale '0'
  let shown := (fraction.reverse.dropWhile (· == '0')).reverse
  if n % 10 ^ scale = 0 then String.ofList whole
  else String.ofList (whole ++ '.' :: shown)

/-! ## Reading counts -/

/-- Why a text is not a count. -/
inductive CountFault where
  | empty
  | notADigit
  | tooLarge
  deriving DecidableEq, Repr

/-- The wording of a fault. -/
def CountFault.message : CountFault → String
  | empty => "cannot parse integer from empty string"
  | notADigit => "invalid digit found in string"
  | tooLarge => "number too large to fit in target type"

/-- Reads digits after those worth `n`.  A character is refused before the number
that it would make is looked at. -/
def readDigits (n : Nat) : List Char → Except CountFault Nat
  | [] => .ok n
  | c :: cs =>
      if c.isDigit then
        let m := 10 * n + (c.toNat - '0'.toNat)
        if m < countLimit then readDigits m cs else .error .tooLarge
      else .error .notADigit

/-- Reads a count: digits, with a plus sign in front if need be. -/
def readCount : List Char → Except CountFault Nat
  | [] => .error .empty
  | ['+'] => .error .notADigit
  | '+' :: cs => readDigits 0 cs
  | cs => readDigits 0 cs

/-- What is read after a count is a count. -/
theorem readDigits_lt {cs : List Char} {n m : Nat} (hn : n < countLimit)
    (h : readDigits n cs = .ok m) : m < countLimit := by
  induction cs generalizing n with
  | nil =>
      cases h
      exact hn
  | cons c cs ih =>
      simp only [readDigits] at h
      split at h
      · split at h
        · next hnext => exact ih hnext h
        · cases h
      · cases h

/-- What is read as a count is one. -/
theorem readCount_lt {cs : List Char} {n : Nat} (h : readCount cs = .ok n) : n < countLimit := by
  have hzero : 0 < countLimit := by decide
  unfold readCount at h
  split at h
  · cases h
  · cases h
  · exact readDigits_lt hzero h
  · exact readDigits_lt hzero h

end Decimal
end DataBlock
