import DataBlock.Bytes
import DataBlock.Number.Decimal

/-!
# Byte dumps

Bytes in three aligned lines: the index of every fifth byte, the decimal values,
and the letters and digits among the bytes.

Main results:

- `Dump.length_characters`: the line of characters is as long as that of values.
-/

namespace DataBlock
namespace Dump

/-- The decimal digits of a byte and a comma. -/
def valueCell (b : UInt8) : List Char :=
  Decimal.digits b.toNat ++ [',']

/-- The character of a byte if it is a letter or a digit, else a space. -/
def character (b : UInt8) : Char :=
  let c := Char.ofNat b.toNat
  if c.isAlphanum then c else ' '

/-- The character of a byte, as wide as the decimal digits, and a comma. -/
def characterCell (b : UInt8) : List Char :=
  character b :: (List.replicate ((Decimal.digits b.toNat).length - 1) ' ' ++ [','])

/-- The line of decimal values. -/
def values (bs : Bytes) : List Char :=
  bs.flatMap valueCell

/-- The line of characters. -/
def characters (bs : Bytes) : List Char :=
  bs.flatMap characterCell

/-- The line of indices from byte `i` on, whose value begins at `column`, after
`written` characters of the line. -/
def indicesFrom (i column written : Nat) : Bytes → List Char
  | [] => []
  | b :: bs =>
      let next := column + (valueCell b).length
      if i % 5 = 0 then
        let gap := List.replicate (column - written) ' '
        let label := gap ++ Decimal.digits i
        label ++ indicesFrom (i + 1) next (written + label.length) bs
      else indicesFrom (i + 1) next written bs

/-- The line of indices: that of every fifth byte stands above its value. -/
def indices (bs : Bytes) : List Char :=
  indicesFrom 0 0 0 bs

/-- The three lines of a dump. -/
def lines (bs : Bytes) : List String :=
  [String.ofList (indices bs), String.ofList (values bs), String.ofList (characters bs)]

/-- The three lines in one text. -/
def text (bs : Bytes) : String :=
  "\n".intercalate (lines bs)

theorem length_characterCell (b : UInt8) :
    (characterCell b).length = (valueCell b).length := by
  have hpos : 0 < (Decimal.digits b.toNat).length := Nat.length_toDigits_pos
  simp only [characterCell, valueCell, List.length_cons, List.length_append,
    List.length_replicate, List.length_nil]
  omega

/-- The line of characters is as long as that of values. -/
theorem length_characters (bs : Bytes) : (characters bs).length = (values bs).length := by
  simp only [characters, values, List.length_flatMap, length_characterCell]

end Dump
end DataBlock
