import DataBlock.Bytes

/-!
# Devices

The memory areas of a controller, places in them, and what the library needs of a device: reading
bytes at an address and writing them.  A device may change with every request, refuse it with a text
of its own, or answer with more or fewer bytes than were asked for.

Main result:

- `Area.name_injective`: the short names tell the areas apart.
-/

namespace DataBlock

/-- The memory areas of a controller. -/
inductive Area where
  | inputs
  | outputs
  | markers
  | dataBlock
  | counters
  | timers
  deriving DecidableEq, Repr

namespace Area

/-- The short name of an area. -/
def name : Area → String
  | inputs => "PE"
  | outputs => "PA"
  | markers => "MK"
  | dataBlock => "DB"
  | counters => "CT"
  | timers => "TM"

theorem name_injective {a b : Area} (h : a.name = b.name) : a = b := by
  cases a <;> cases b <;> simp_all [name]

end Area

/-- A place on a device.  The block number matters for data blocks only. -/
structure Address where
  area : Area
  block : Nat
  start : Nat
  deriving DecidableEq, Repr

/-- The place where a row lies if nothing else is said. -/
def Address.origin : Address :=
  ⟨.dataBlock, 0, 0⟩

/-- A device that is read and written at addresses. -/
class Device (δ : Type) where
  /-- Asks for so many bytes from an address on. -/
  read : δ → Address → Nat → Except String Bytes × δ
  /-- Hands over bytes for an address. -/
  write : δ → Address → Bytes → Except String Unit × δ

end DataBlock
