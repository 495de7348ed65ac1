import DataBlock.Fault.Cause
import DataBlock.Fault.LayoutText

/-!
# Faults

Everything that can go wrong between the text of a layout and the bytes of a
device.  A fault is a cause; its wording is a function of the cause.
-/

namespace DataBlock

/-- What went wrong. -/
inductive Fault where
  /-- The text of a layout is refused at a line. -/
  | layoutText (line : Nat) (cause : LineFault)
  | unknownField (name : String)
  | invalid (cause : InvalidCause)
  | outOfRange (cause : RangeCause)
  /-- A half of a byte is not a decimal digit. -/
  | malformedBcd (offset : Nat) (byte : UInt8)
  | typeMismatch (expected : FieldType) (got : Value)
  | tooLarge (cause : SizeCause)
  /-- An access reaches past the end of the bytes. -/
  | bufferTooSmall (offset needed available : Nat)
  | notFound (cause : MissingCause)
  /-- A file cannot be read; the text comes from the system. -/
  | unreadable (text : String)
  /-- A device refused; the text comes from the device. -/
  | device (text : String)
  deriving DecidableEq

/-- The wording of a fault. -/
def Fault.message : Fault → String
  | layoutText line cause => s!"Parse error at line {line}: " ++ cause.message
  | unknownField name => "Unknown field: " ++ name
  | invalid cause => "Invalid argument: " ++ cause.message
  | outOfRange cause => "Out of range: " ++ cause.message
  | malformedBcd offset byte =>
      "Malformed BCD byte 0x" ++ Hex.byte byte ++ s!" at offset {offset}"
  | typeMismatch expected got =>
      "Type mismatch: expected " ++ expected.text ++ ", got " ++ got.kindName
  | tooLarge cause => "Layout too large: " ++ cause.message
  | bufferTooSmall offset needed available =>
      s!"Buffer too small: need {needed} bytes at offset {offset}, have {available}"
  | notFound cause => "Not found: " ++ cause.message
  | unreadable text => "IO: " ++ text
  | device text => "Channel: " ++ text

end DataBlock
