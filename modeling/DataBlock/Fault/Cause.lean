import DataBlock.FieldType
import DataBlock.Value

/-!
# Causes of faults

Why an argument is invalid, why a value is out of range, why a layout is too
large, and what was not found, with the wording of each cause.
-/

namespace DataBlock

/-- Why an argument, or what is stored in a field, is invalid. -/
inductive InvalidCause where
  | missingBit
  | bitIndex (index : Nat)
  | charNotAscii (c : Char)
  | textNotAscii (type : FieldType) (text : String)
  | beyondPlane (c : Char)
  | notACharacter (unit : Nat)
  | capacity (width : CharWidth) (capacity : Nat)
  | overlong (width : CharWidth) (offset length most : Nat)
  | date (year month day : Nat)
  | nanoseconds (nanos : Nat)
  | timeOfDay (hour minute second : Nat)
  | dayCount (days : Nat)
  | dayMillis (ms : Nat)
  | longYear (year : Nat)
  | beforeLayout (name : String) (offset layoutOffset : Nat)
  | duplicateName (name : String)
  | emptyRows
  | noIdField
  deriving DecidableEq

/-- The wording of a cause. -/
def InvalidCause.message : InvalidCause → String
  | missingBit => "BOOL field without bit index"
  | bitIndex index => s!"bit index {index} outside 0..=7"
  | charNotAscii c => "CHAR accepts ASCII only, got " ++ Quoted.char c
  | textNotAscii type text => type.name ++ " accepts ASCII only, got " ++ Quoted.text text
  | beyondPlane c => Quoted.char c ++ " is outside the Basic Multilingual Plane"
  | notACharacter unit => "code unit 0x" ++ Hex.padded 4 unit ++ " is not a UCS-2 character"
  | capacity width count =>
      let name := (FieldType.counted width count).name
      let most := width.maxCapacity
      s!"{name} capacity {count} outside 1..={most}"
  | overlong width offset length most =>
      let name := (FieldType.counted width most).name
      s!"{name} at {offset} holds {length} chars but its maximum is {most}"
  | date year month day =>
      "invalid date " ++ Decimal.padded 4 year ++ "-" ++ Decimal.padded 2 month ++ "-"
        ++ Decimal.padded 2 day
  | nanoseconds nanos => s!"nanoseconds {nanos} out of range"
  | timeOfDay hour minute second =>
      "invalid time " ++ Decimal.padded 2 hour ++ ":" ++ Decimal.padded 2 minute ++ ":"
        ++ Decimal.padded 2 second
  | dayCount days => s!"DATE value {days} is past 2168-12-31"
  | dayMillis ms => s!"TIME_OF_DAY value {ms}ms is not within one day"
  | longYear year => s!"DTL year {year} outside 1970..=2262"
  | beforeLayout name offset layoutOffset =>
      s!"field '{name}' at {offset} lies before layout offset {layoutOffset}"
  | duplicateName name => "Duplicate field name: " ++ name
  | emptyRows => "row size and padding are both zero"
  | noIdField => "table has no id field"

/-- Why a value cannot be stored as a type of its kind. -/
inductive RangeCause where
  | integer (n : IntValue) (type : FieldType)
  | notABit (n : IntValue)
  | tooManyBytes (count length : Nat)
  | span (d : Span) (type : FieldType)
  | date (d : Date)
  | finerThanMillis (v : Value)
  | dateAndTimeYear (t : DateTime)
  | dateTimeLongYear (t : DateTime)
  | leapSecond (t : DateTime)
  deriving DecidableEq

/-- The wording of a cause. -/
def RangeCause.message : RangeCause → String
  | integer n type => toString n.number ++ " does not fit " ++ type.text
  | notABit n => toString n.number ++ " is not 0 or 1"
  | tooManyBytes count length => s!"{count} bytes do not fit BYTES[{length}]"
  | span d type => d.text ++ " is not representable as " ++ type.name
  | date d => d.text ++ " outside 1990-01-01..=2168-12-31"
  | finerThanMillis v => v.text ++ " has sub-millisecond precision"
  | dateAndTimeYear t => t.text ++ " outside the DATE_AND_TIME years 1990..=2089"
  | dateTimeLongYear t => t.text ++ " outside the DTL years 1970..=2262"
  | leapSecond t => t.text ++ " is a leap second"

/-- Why rows do not fit the space there is. -/
inductive SizeCause where
  | row (span rowSize : Nat)
  | countless (rows stride : Nat)
  | block (rows stride offset needed available : Nat)
  deriving DecidableEq

/-- The wording of a cause. -/
def SizeCause.message : SizeCause → String
  | row span rowSize => s!"layout needs {span} bytes per row but row size is {rowSize}"
  | countless rows stride => s!"{rows} rows of {stride} bytes"
  | block rows stride offset needed available =>
      s!"{rows} rows of {stride} bytes from offset {offset} need {needed} bytes, buffer has {available}"

/-- What was looked for in vain. -/
inductive MissingCause where
  | row (index rows : Nat)
  | id (field : String) (value : Value)
  deriving DecidableEq

/-- The wording of a cause. -/
def MissingCause.message : MissingCause → String
  | row index rows => s!"row {index} of a {rows}-row table"
  | id field value => "no row with " ++ field ++ " = " ++ value.text

end DataBlock
