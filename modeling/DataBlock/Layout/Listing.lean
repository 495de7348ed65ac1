import DataBlock.Layout
import DataBlock.Text.Blank

/-!
# Layout listings

A layout printed in its own text format, one line for each field.

Main result:

- `Layout.length_lines`: a listing has as many lines as the layout has fields.
-/

namespace DataBlock

/-- The line of a field: its address, its name and its type in columns. -/
def Field.line (nameWidth : Nat) (f : Field) : String :=
  Column.left 8 f.address ++ Column.left nameWidth f.name ++ "  " ++ f.type.text

namespace Layout

/-- The width of the column of names: the most bytes that a name takes. -/
def nameWidth (l : Layout) : Nat :=
  (l.fields.map fun f => f.name.utf8ByteSize).foldl max 0

/-- The lines of the fields, in order. -/
def lines (l : Layout) : List String :=
  l.fields.map (Field.line l.nameWidth)

theorem length_lines (l : Layout) : l.lines.length = l.fields.length :=
  List.length_map _

/-- The lines of the fields in one text. -/
def listing (l : Layout) : String :=
  "\n".intercalate l.lines

end Layout
end DataBlock
