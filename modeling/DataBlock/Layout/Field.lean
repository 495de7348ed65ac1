import DataBlock.FieldType
import DataBlock.Number.Count

/-!
# Fields

A named, typed place in a data block.

Main result:

- `Field.endOffset_eq_some_iff`: when the address behind a field is a count.
-/

namespace DataBlock

/-- A named, typed place in a data block.  The bit matters for single bits only. -/
structure Field where
  name : String
  offset : Nat
  bit : Option Nat
  type : FieldType
  deriving DecidableEq, Repr

namespace Field

/-- The first address behind the field, whether or not it is a count. -/
def behind (f : Field) : Nat :=
  f.offset + f.type.width

/-- The first address behind the field, if it is a count. -/
def endOffset (f : Field) : Option Nat :=
  Count.add? f.offset f.type.width

theorem endOffset_eq_some_iff {f : Field} {n : Nat} :
    f.endOffset = some n ↔ f.behind < countLimit ∧ f.behind = n :=
  Count.add?_eq_some_iff

theorem endOffset_eq_none_iff {f : Field} : f.endOffset = none ↔ countLimit ≤ f.behind :=
  Count.add?_eq_none_iff

/-- The address of the field: its byte, and its bit after a point. -/
def address (f : Field) : String :=
  match f.bit with
  | some bit => toString f.offset ++ "." ++ toString bit
  | none => toString f.offset

end Field
end DataBlock
