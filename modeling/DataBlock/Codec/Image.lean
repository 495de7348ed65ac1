import DataBlock.Bytes

/-!
# Images

The bytes that a write puts into the window of a field: some bytes, and one
filler for the rest of the window.

Main result:

- `Image.length_bytes`: an image is as long as its window.
-/

namespace DataBlock

/-- Bytes for a window of a given width, the rest of it filled with one byte. -/
structure Image where
  head : Bytes
  filler : UInt8
  width : Nat
  head_le_width : head.length ≤ width
  deriving DecidableEq

namespace Image

/-- The image that consists of the given bytes alone. -/
def ofBytes (bs : Bytes) : Image :=
  ⟨bs, 0, bs.length, Nat.le_refl _⟩

/-- All bytes of an image. -/
def bytes (i : Image) : Bytes :=
  i.head ++ List.replicate (i.width - i.head.length) i.filler

@[simp] theorem length_bytes (i : Image) : i.bytes.length = i.width := by
  have := i.head_le_width
  simp only [bytes, List.length_append, List.length_replicate]
  omega

@[simp] theorem bytes_ofBytes (bs : Bytes) : (ofBytes bs).bytes = bs := by
  simp [bytes, ofBytes]

end Image
end DataBlock
