/-!
# Blank characters

The characters of the white-space property, trimming a text at its end, and columns that are
filled with spaces.

Main results:

- `Blank.isBlank_of_isWhitespace`: every white-space character of the ASCII range
  is blank.
- `Blank.trimEnd_concat`: trimming drops a blank at the end and stops at any other
  character.
-/

namespace DataBlock
namespace Blank

/-- The code points with the white-space property, as ranges with both ends. -/
def ranges : List (Nat × Nat) :=
  [(0x09, 0x0d), (0x20, 0x20), (0x85, 0x85), (0xa0, 0xa0), (0x1680, 0x1680),
    (0x2000, 0x200a), (0x2028, 0x2029), (0x202f, 0x202f), (0x205f, 0x205f),
    (0x3000, 0x3000)]

/-- Whether a character has the white-space property. -/
def isBlank (c : Char) : Bool :=
  ranges.any fun r => r.1 ≤ c.toNat && c.toNat ≤ r.2

theorem isBlank_of_isWhitespace {c : Char} (h : c.isWhitespace = true) :
    isBlank c = true := by
  simp only [Char.isWhitespace, Bool.or_eq_true, decide_eq_true_eq] at h
  obtain ((rfl | rfl) | rfl) | rfl := h <;> decide

/-- The characters without the blanks at their end. -/
def trimEnd (cs : List Char) : List Char :=
  (cs.reverse.dropWhile isBlank).reverse

theorem trimEnd_concat (cs : List Char) (c : Char) :
    trimEnd (cs ++ [c]) = if isBlank c then trimEnd cs else cs ++ [c] := by
  simp only [trimEnd, List.reverse_append, List.reverse_singleton, List.singleton_append,
    List.dropWhile_cons]
  split <;> simp

end Blank

/-! ## Columns -/

namespace Column

/-- So many spaces. -/
def spaces (count : Nat) : String :=
  String.ofList (List.replicate count ' ')

/-- The text with spaces behind it, up to a width in characters. -/
def left (width : Nat) (s : String) : String :=
  s ++ spaces (width - s.length)

end Column
end DataBlock
