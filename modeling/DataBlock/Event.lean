import DataBlock.Device
import DataBlock.Fault
import DataBlock.Layout.Field

/-!
# Events

What the library tells about its work: which entries a layout has, which rows of
a table cannot be told apart, and what is sent to a device.

Main result:

- `Traced.map_events`: a change of the result leaves the events as they are.
-/

namespace DataBlock

/-- Something that happened. -/
inductive Event where
  | layoutEntry (line : Nat) (field : Field)
  | idNotDecodable (row : Nat) (fault : Fault)
  | duplicateId (id : String) (first duplicate : Nat)
  | tableBound (area : Area) (block rows rowSize stride dbOffset layoutOffset : Nat)
  | rowRead (address : Address) (size : Nat)
  | rowWrite (address : Address) (size : Nat)
  deriving DecidableEq

/-- How much an event matters. -/
inductive Level where
  | trace
  | debug
  | warn
  deriving DecidableEq, Repr

/-- The name of a level. -/
def Level.name : Level → String
  | trace => "TRACE"
  | debug => "DEBUG"
  | warn => "WARN"

namespace Event

/-- How much an event matters. -/
def level : Event → Level
  | layoutEntry .. => .trace
  | duplicateId .. => .warn
  | idNotDecodable .. | tableBound .. | rowRead .. | rowWrite .. => .debug

/-- The wording of an event. -/
def message : Event → String
  | layoutEntry .. => "layout entry"
  | idNotDecodable .. => "row id not decodable"
  | duplicateId .. => "duplicate row id"
  | tableBound .. => "table bound"
  | rowRead .. => "row read"
  | rowWrite .. => "row write"

/-- The text of a bit index that may be missing. -/
def bitText : Option Nat → String
  | some bit => "Some(" ++ toString bit ++ ")"
  | none => "None"

/-- The attributes of a transfer. -/
def transferAttributes (address : Address) (size : Nat) : List (String × String) :=
  [("area", address.area.name), ("db_number", toString address.block),
    ("start", toString address.start), ("size", toString size)]

/-- The named attributes of an event. -/
def attributes : Event → List (String × String)
  | layoutEntry line field =>
      [("line", toString line), ("name", field.name), ("offset", toString field.offset),
        ("bit", bitText field.bit), ("data_type", field.type.text)]
  | idNotDecodable row fault => [("row", toString row), ("error", fault.message)]
  | duplicateId id first duplicate =>
      [("id", id), ("first", toString first), ("duplicate", toString duplicate)]
  | tableBound area block rows rowSize stride dbOffset layoutOffset =>
      [("area", area.name), ("db_number", toString block), ("rows", toString rows),
        ("row_size", toString rowSize), ("stride", toString stride),
        ("db_offset", toString dbOffset), ("layout_offset", toString layoutOffset)]
  | rowRead address size => transferAttributes address size
  | rowWrite address size => transferAttributes address size

end Event

/-- A result with the events on the way to it, in order. -/
structure Traced (α : Type) where
  value : α
  events : List Event
  deriving DecidableEq

/-- The result changed, the events kept. -/
def Traced.map {α β : Type} (f : α → β) (t : Traced α) : Traced β :=
  ⟨f t.value, t.events⟩

@[simp] theorem Traced.map_value {α β : Type} (f : α → β) (t : Traced α) :
    (t.map f).value = f t.value :=
  rfl

@[simp] theorem Traced.map_events {α β : Type} (f : α → β) (t : Traced α) :
    (t.map f).events = t.events :=
  rfl

end DataBlock
