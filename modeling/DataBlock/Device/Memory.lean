import DataBlock.Device
import DataBlock.Number.Decimal

/-!
# Memory device

A device that keeps one image of bytes for each area, and for each number of a
data block, and counts what it was asked for with success.

Main results:

- `Memory.image?_insert_self`: an image that was put in is found.
- `Memory.image?_insert_ne`: all other images stay.
- `Memory.read_eq_of_images`: a read is answered from the images alone.
- `Memory.image?_write_of_ne`: a write changes no other image.
-/

namespace DataBlock

/-- Why a memory device refuses a request. -/
inductive MemoryFault where
  | notMapped (area : Area) (block : Nat)
  | outOfBounds (area : Area) (block start stop size : Nat)
  deriving DecidableEq

/-- The wording of a fault. -/
def MemoryFault.message : MemoryFault → String
  | notMapped area block =>
      let name := area.name
      s!"{name} {block} is not mapped"
  | outOfBounds area block start stop size =>
      let name := area.name
      s!"{name} {block}: range {start}..{stop} exceeds image size {size}"

/-- The key of an image.  Outside of data blocks the number plays no part. -/
def imageKey (area : Area) (block : Nat) : Area × Nat :=
  (area, if area = .dataBlock then block else 0)

/-- A device that keeps its bytes in memory. -/
structure Memory where
  images : List ((Area × Nat) × Bytes)
  reads : Nat
  writes : Nat
  deriving DecidableEq

namespace Memory

/-- The device without images. -/
def empty : Memory :=
  ⟨[], 0, 0⟩

/-- The image with a key. -/
def find? (m : Memory) (key : Area × Nat) : Option Bytes :=
  m.images.lookup key

/-- The device with an image put in or replaced. -/
def put (m : Memory) (key : Area × Nat) (image : Bytes) : Memory :=
  { m with images := (key, image) :: m.images.filter fun entry => entry.1 != key }

/-- The image of an area, and of a block in it. -/
def image? (m : Memory) (area : Area) (block : Nat) : Option Bytes :=
  m.find? (imageKey area block)

/-- The device with the image of an area, and of a block in it, put in or
replaced. -/
def insert (m : Memory) (area : Area) (block : Nat) (image : Bytes) : Memory :=
  m.put (imageKey area block) image

@[simp] theorem find?_put_self (m : Memory) (key : Area × Nat) (image : Bytes) :
    (m.put key image).find? key = some image := by
  simp [find?, put]

theorem find?_put_ne (m : Memory) {key other : Area × Nat} (image : Bytes)
    (h : other ≠ key) : (m.put key image).find? other = m.find? other := by
  have hother : (other == key) = false := beq_eq_false_iff_ne.2 h
  simp only [find?, put, List.lookup_cons, hother]
  induction m.images with
  | nil => rfl
  | cons entry entries ih =>
      obtain ⟨k, bs⟩ := entry
      by_cases hk : k = key
      · subst hk
        simp [List.lookup_cons, hother, ih]
      · simp [List.lookup_cons, hk, ih]

/-- An image that was put in is found. -/
theorem image?_insert_self (m : Memory) (area : Area) (block : Nat) (image : Bytes) :
    (m.insert area block image).image? area block = some image :=
  m.find?_put_self _ image

/-- All other images stay. -/
theorem image?_insert_ne (m : Memory) {area area' : Area} {block block' : Nat}
    (image : Bytes) (h : imageKey area' block' ≠ imageKey area block) :
    (m.insert area block image).image? area' block' = m.image? area' block' :=
  m.find?_put_ne image h

/-! ## Requests -/

/-- The image that a request for `len` bytes at an address falls into. -/
def target (m : Memory) (a : Address) (len : Nat) : Except MemoryFault Bytes :=
  match m.image? a.area a.block with
  | none => .error (.notMapped a.area a.block)
  | some image =>
      if a.start + len ≤ image.length then .ok image
      else
        let stop := min (a.start + len) (countLimit - 1)
        .error (.outOfBounds a.area a.block a.start stop image.length)

/-- Reads so many bytes from an address on. -/
def read (m : Memory) (a : Address) (len : Nat) : Except MemoryFault Bytes × Memory :=
  match m.target a len with
  | .ok image => (.ok (image.slice a.start len), { m with reads := m.reads + 1 })
  | .error fault => (.error fault, m)

/-- Writes bytes from an address on. -/
def write (m : Memory) (a : Address) (bs : Bytes) : Except MemoryFault Unit × Memory :=
  match m.target a bs.length with
  | .ok image =>
      let after := m.insert a.area a.block (image.overwrite a.start bs)
      (.ok (), { after with writes := m.writes + 1 })
  | .error fault => (.error fault, m)

/-- A read leaves the images. -/
theorem images_read (m : Memory) (a : Address) (len : Nat) :
    (m.read a len).2.images = m.images := by
  unfold read
  split <;> rfl

/-- A read is answered from the images, whatever the device was asked before. -/
theorem read_eq_of_images {m m' : Memory} (h : m'.images = m.images) (a : Address) (len : Nat) :
    (m'.read a len).1 = (m.read a len).1 := by
  have htarget : m'.target a len = m.target a len := by
    simp only [target, image?, find?, h]
  rw [read, read, htarget]
  cases m.target a len <;> rfl

/-- A write changes no other image. -/
theorem image?_write_of_ne (m : Memory) (a : Address) (bs : Bytes) {area : Area}
    {block : Nat} (h : imageKey area block ≠ imageKey a.area a.block) :
    (m.write a bs).2.image? area block = m.image? area block := by
  unfold write
  split
  · exact m.image?_insert_ne _ h
  · rfl

instance : Device Memory where
  read m a len := ((m.read a len).1.mapError MemoryFault.message, (m.read a len).2)
  write m a bs := ((m.write a bs).1.mapError MemoryFault.message, (m.write a bs).2)

end Memory
end DataBlock
