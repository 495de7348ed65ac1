import DataBlock.Layout.Peg

/-!
# The grammar of layouts

A layout has one entry on a line: an address, a name and a type with blanks between them.
Lines without an entry, and what stands behind a hash sign, are left out.
-/

namespace DataBlock

/-! ## Characters -/

/-- A blank between the parts of an entry. -/
def isGap (c : Char) : Bool :=
  c == ' ' || c == '\t'

/-- A character of a type word after its first. -/
def isWordChar (c : Char) : Bool :=
  c.isAlphanum || c == '_'

namespace Grammar

open Peg

/-- The given character. -/
def one (c : Char) : Peg :=
  char (· == c)

/-- Any character. -/
def any : Peg :=
  char fun _ => true

/-- The end of a line. -/
def newline : Peg :=
  orElse (one '\n') (orElse (seq (one '\r') (one '\n')) (one '\r'))

/-- A blank. -/
def gap : Peg :=
  char isGap

/-- A run of digits. -/
def digits : Peg :=
  plus (char Char.isDigit)

/-- A hash sign and the rest of the line. -/
def comment : Peg :=
  seq (one '#') (star (seq (notAhead newline) any))

/-! ## Entries -/

/-- The index of a byte. -/
def byteIndex : Peg :=
  rule .byteIndex digits

/-- The index of a bit. -/
def bitIndex : Peg :=
  rule .bitIndex digits

/-- The index of a byte, with a bit index behind a point. -/
def offset : Peg :=
  rule .offset <| seq byteIndex (optional (seq (one '.') bitIndex))

/-- A name goes up to a blank, a hash sign or the end of the line. -/
def name : Peg :=
  rule .name <| plus <| seq (notAhead (orElse gap (orElse newline (one '#')))) any

/-- A type word. -/
def typeName : Peg :=
  rule .typeName <| seq (char Char.isAlpha) (star (char isWordChar))

/-- A length. -/
def length : Peg :=
  rule .length digits

/-- A type word, with a length in brackets. -/
def typeSpec : Peg :=
  rule .typeSpec <| seq typeName (optional (seq (one '[') (seq length (one ']'))))

/-- An entry. -/
def entry : Peg :=
  rule .entry <| seq offset <| seq (plus gap) <| seq name <| seq (plus gap) typeSpec

/-! ## Lines -/

/-- A line, which may hold an entry, a comment or both. -/
def line : Peg :=
  seq (star gap) <| seq (optional entry) <| seq (star gap) (optional comment)

/-- Lines, each with a line end in front of it. -/
def moreLines : Peg :=
  star (seq newline line)

/-- One or more lines. -/
def lines : Peg :=
  seq line moreLines

/-- A layout takes a text from its start to its end. -/
def layout : Peg :=
  rule .layout <| seq start <| seq lines (rule .endOfInput done)

end Grammar
end DataBlock
