import DataBlock.Number.Hex
import DataBlock.Text.Printable

/-!
# Quoted text

Characters and texts between quotes.  A few characters have an escape of their
own, hidden ones are written by their code point, and the quote in use is escaped
while the other one is not.
-/

namespace DataBlock
namespace Quoted

/-- The letter that, after a backslash, stands for a character. -/
def letter? (c : Char) : Option Char :=
  if c = '\x00' then some '0'
  else if c = '\t' then some 't'
  else if c = '\r' then some 'r'
  else if c = '\n' then some 'n'
  else if c = '\\' then some '\\'
  else none

/-- The code point of a character between braces, in hexadecimal digits. -/
def codePoint (c : Char) : List Char :=
  '\\' :: 'u' :: '\x7b' :: (Hex.digits c.toNat ++ ['\x7d'])

/-- How a character is written inside the quotes `quote`. -/
def escape (quote c : Char) : List Char :=
  match letter? c with
  | some l => ['\\', l]
  | none =>
      if c = quote then ['\\', c]
      else if Printable.isHidden c then codePoint c
      else [c]

/-- A character between single quotes. -/
def char (c : Char) : String :=
  String.ofList ('\'' :: (escape '\'' c ++ ['\'']))

/-- A text between double quotes. -/
def text (s : String) : String :=
  String.ofList ('"' :: (s.toList.flatMap (escape '"') ++ ['"']))

end Quoted
end DataBlock
