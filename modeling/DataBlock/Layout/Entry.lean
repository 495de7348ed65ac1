import DataBlock.Fault
import DataBlock.Layout.Field
import DataBlock.Layout.Peg

/-!
# Entries

What a line says about a field: an address, a name and a type, as they are written.

Main result:

- `Entry.bit_iff_of_field`: the field of an entry has a bit exactly if it is a
  single bit.
-/

namespace DataBlock

/-- The parts of an entry as they are written. -/
structure Entry where
  byte : List Char
  bit : Option (List Char)
  name : List Char
  word : List Char
  length : Option (List Char)
  deriving DecidableEq

/-- The node of a rule inside another one. -/
def Node.part? (n : Node) (r : GrammarRule) : Option Node :=
  n.inner.find? fun part => part.rule = r

namespace Entry

/-- The entry that a node holds. -/
def ofNode (n : Node) : Except EntryFault Entry :=
  let offset := n.part? .offset
  let typeSpec := n.part? .typeSpec
  match offset.bind (·.part? .byteIndex), n.part? .name, typeSpec.bind (·.part? .typeName) with
  | some byte, some name, some word =>
      .ok ⟨byte.chars, (offset.bind (·.part? .bitIndex)).map Node.chars, name.chars, word.chars,
        (typeSpec.bind (·.part? .length)).map Node.chars⟩
  | none, _, _ => .error (.missing .offset)
  | _, none, _ => .error (.missing .name)
  | _, _, none => .error (.missing .type)

/-- The number of a run of digits, if it is below the limit of addresses. -/
def number (digits : List Char) : Except EntryFault Nat :=
  if Decimal.value digits < countLimit then .ok (Decimal.value digits)
  else .error (.numberTooLarge (String.ofList digits))

/-- The number of a bit index, which goes up to seven. -/
def bitNumber (digits : List Char) : Except EntryFault Nat := do
  let bit ← number digits
  if bit ≤ 7 then .ok bit else .error (.bitIndex bit)

/-- The field that an entry describes. -/
def field (e : Entry) : Except EntryFault Field := do
  let name := String.ofList e.name
  let offset ← number e.byte
  let bit ← e.bit.mapM bitNumber
  let length ← e.length.mapM number
  let type ← (FieldType.ofWord (String.ofList e.word) length).mapError .word
  if type = .bool ∧ bit = none then .error (.missingBit name)
  else if type ≠ .bool ∧ bit ≠ none then .error (.needlessBit type)
  else .ok ⟨name, offset, bit, type⟩

/-- The field of an entry has a bit exactly if it is a single bit. -/
theorem bit_iff_of_field {e : Entry} {f : Field} (h : e.field = .ok f) :
    f.bit ≠ none ↔ f.type = .bool := by
  simp only [field, bind, Except.bind] at h
  repeat' split at h
  all_goals cases h
  grind

end Entry

/-- The field that a node describes. -/
def Node.field (n : Node) : Except EntryFault Field :=
  Entry.ofNode n >>= Entry.field

end DataBlock
