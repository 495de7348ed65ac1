import DataBlock.FieldType.Word
import DataBlock.Text.Quoted

/-!
# Faults of layout text

What can be wrong with one line of a layout, with the wording of each fault.
-/

namespace DataBlock

/-! ## Malformed lines -/

/-- The rules of the grammar of layouts by name, in the order of the grammar. -/
inductive GrammarRule where
  | endOfInput
  | layout
  | entry
  | offset
  | byteIndex
  | bitIndex
  | name
  | typeSpec
  | typeName
  | length
  deriving DecidableEq, Repr

namespace GrammarRule

/-- What a rule is called in a fault. -/
def title : GrammarRule → String
  | byteIndex | offset => "byte offset"
  | bitIndex => "bit index"
  | name => "field name"
  | typeName | typeSpec => "type"
  | length => "length"
  | entry => "layout entry"
  | endOfInput | layout => "end of line"

/-- The rules of which one would have been right. -/
def alternatives : List GrammarRule → String
  | [] => "unknown parsing error"
  | [r] => "expected " ++ r.title
  | [r, r'] => "expected " ++ r.title ++ " or " ++ r'.title
  | r :: rs =>
      "expected " ++ ", ".intercalate ((r :: rs.dropLast).map title) ++ ", or "
        ++ (rs.getLastD r).title

end GrammarRule

/-! ## Faults of entries -/

/-- A part that every entry has. -/
inductive EntryPart where
  | offset
  | name
  | type
  deriving DecidableEq, Repr

/-- The word for a part. -/
def EntryPart.text : EntryPart → String
  | offset => "offset"
  | name => "name"
  | type => "type"

/-- Why a well-formed entry describes no field. -/
inductive EntryFault where
  | numberTooLarge (digits : String)
  | bitIndex (index : Nat)
  | word (cause : WordFault)
  | missingBit (name : String)
  | needlessBit (type : FieldType)
  | missing (part : EntryPart)
  deriving DecidableEq, Repr

/-- The wording of a fault. -/
def EntryFault.message : EntryFault → String
  | numberTooLarge digits => s!"number {digits} is too large"
  | bitIndex index => s!"bit index {index} outside 0..=7"
  | word cause => cause.message
  | missingBit name => s!"BOOL field '{name}' needs a <byte>.<bit> offset"
  | needlessBit type => "bit offset is only allowed for BOOL, not " ++ type.text
  | missing part => "missing " ++ part.text

/-! ## Faults of lines -/

/-- Why a line of a layout is refused.  The text that goes with a fault is the line
as it is shown to the reader. -/
inductive LineFault where
  | malformed (expected : List GrammarRule) (shown : String)
  | entry (cause : EntryFault) (shown : String)
  | duplicateName (name : String) (firstLine : Nat)
  | noLayout
  deriving DecidableEq, Repr

/-- The wording of a fault. -/
def LineFault.message : LineFault → String
  | malformed expected shown =>
      GrammarRule.alternatives expected ++ " in " ++ Quoted.text shown
  | entry cause shown => cause.message ++ " in " ++ Quoted.text shown
  | duplicateName name firstLine =>
      s!"duplicate field name '{name}' (first declared on line {firstLine})"
  | noLayout => "Empty parse"

end DataBlock
