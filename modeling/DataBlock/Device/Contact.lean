import DataBlock.Device
import DataBlock.Event
import DataBlock.Fault.Change

/-!
# Work with a device

Work on something that is held, with a device at hand.  Whatever it does towards the outside is
kept in order: the events that it tells of and the requests that it sends.

Main results:

- `Contact.run_askRead`, `Contact.run_askWrite`: a request is kept, and the device is asked once.
- `Contact.run_holding`: a change of what is held does nothing towards the outside.
-/

namespace DataBlock

/-- A request to a device. -/
inductive Request where
  | read (place : Address) (len : Nat)
  | write (place : Address) (bs : Bytes)
  deriving DecidableEq

/-- Something that is done towards the outside. -/
inductive Act where
  | told (event : Event)
  | sent (request : Request)
  deriving DecidableEq

/-- The event that is told of. -/
def Act.event? : Act → Option Event
  | told event => some event
  | sent _ => none

/-- What is worked on, the device, and what has been done towards the outside so far. -/
structure Contact (σ δ : Type) where
  held : σ
  device : δ
  acts : List Act

namespace Contact

variable {σ δ α : Type}

/-- Tells of an event. -/
def tell (event : Event) : Change (Contact σ δ) Unit :=
  modify fun c => { c with acts := c.acts ++ [.told event] }

/-- Asks the device for so many bytes from an address on. -/
def askRead [Device δ] (place : Address) (len : Nat) :
    Change (Contact σ δ) (Except String Bytes) := fun c =>
  let (answer, after) := Device.read c.device place len
  .ok answer { c with device := after, acts := c.acts ++ [.sent (.read place len)] }

/-- Hands over bytes for an address to the device. -/
def askWrite [Device δ] (place : Address) (bs : Bytes) :
    Change (Contact σ δ) (Except String Unit) := fun c =>
  let (answer, after) := Device.write c.device place bs
  .ok answer { c with device := after, acts := c.acts ++ [.sent (.write place bs)] }

/-- Changes what is held. -/
def holding (change : Change σ α) : Change (Contact σ δ) α := fun c =>
  match change.run c.held with
  | .ok a after => .ok a { c with held := after }
  | .error fault after => .error fault { c with held := after }

@[simp] theorem run_tell (event : Event) (c : Contact σ δ) :
    (tell event).run c = .ok () { c with acts := c.acts ++ [.told event] } :=
  rfl

@[simp] theorem run_askRead [Device δ] (place : Address) (len : Nat) (c : Contact σ δ) :
    (askRead place len).run c = .ok (Device.read c.device place len).1
      { c with
        device := (Device.read c.device place len).2
        acts := c.acts ++ [.sent (.read place len)] } :=
  rfl

@[simp] theorem run_askWrite [Device δ] (place : Address) (bs : Bytes) (c : Contact σ δ) :
    (askWrite place bs).run c = .ok (Device.write c.device place bs).1
      { c with
        device := (Device.write c.device place bs).2
        acts := c.acts ++ [.sent (.write place bs)] } :=
  rfl

@[simp] theorem run_holding (change : Change σ α) (c : Contact σ δ) :
    (holding change).run c =
      match change.run c.held with
      | .ok a after => .ok a { c with held := after }
      | .error fault after => .error fault { c with held := after } :=
  rfl

end Contact
end DataBlock
