import DataBlock.Device.Memory

/-!
# A memory device remembers what was put into it

What a memory device answers is decided by the calls that were made before: an image is as
long as it was when it was last inserted, and a byte of it is the one that was put there
last, by the insert or by a write that succeeded since.

Main results:

- `SameImage`: which areas and block numbers name the same image.
- `Memory.recalls_afterCalls`: the images and the counts are those that the calls say.
- `Memory.Recalls.target_cases`: a request is accepted exactly if it lies within its image.
- `Memory.calls_answered_from_history`: every answer, and every count, from the calls.
-/

namespace DataBlock

/-! ## Calls -/

/-- A call of a memory device. -/
inductive MemoryCall where
  | insert (area : Area) (block : Nat) (image : Bytes)
  | read (a : Address) (len : Nat)
  | write (a : Address) (bs : Bytes)
  deriving DecidableEq

namespace Memory

/-- The device after a call, be it accepted or refused. -/
def afterCall (m : Memory) : MemoryCall → Memory
  | .insert area block image => m.insert area block image
  | .read a len => (m.read a len).2
  | .write a bs => (m.write a bs).2

/-- A new device after some calls, of which the latest is given first. -/
def afterCalls : List MemoryCall → Memory
  | [] => empty
  | c :: past => (afterCalls past).afterCall c

end Memory

/-! ## What the calls say -/

/-- The areas and block numbers name the same image.  The number distinguishes the images
of data blocks only. -/
def SameImage (area : Area) (block : Nat) (area' : Area) (block' : Nat) : Prop :=
  area = area' ∧ (area = .dataBlock → block = block')

instance (area : Area) (block : Nat) (area' : Area) (block' : Nat) :
    Decidable (SameImage area block area' block') :=
  inferInstanceAs (Decidable (_ ∧ (_ → _)))

namespace MemoryCall

/-- The length of an image after some calls: that with which it was last inserted. -/
def imageSize? (area : Area) (block : Nat) : List MemoryCall → Option Nat
  | [] => none
  | insert area' block' image :: past =>
      if SameImage area' block' area block then some image.length
      else imageSize? area block past
  | read _ _ :: past => imageSize? area block past
  | write _ _ :: past => imageSize? area block past

/-- After some calls, a request for `len` bytes at an address lies within its image. -/
def Accepted (past : List MemoryCall) (a : Address) (len : Nat) : Prop :=
  ∃ size, imageSize? a.area a.block past = some size ∧ a.start + len ≤ size

instance (past : List MemoryCall) (a : Address) (len : Nat) : Decidable (Accepted past a len) :=
  decidable_of_iff ((imageSize? a.area a.block past).any fun size => a.start + len ≤ size) (by
    simp [Accepted, Option.any_eq_true])

/-- Why a request is refused that does not lie within its image. -/
def refusal (past : List MemoryCall) (a : Address) (len : Nat) : MemoryFault :=
  (imageSize? a.area a.block past).elim (.notMapped a.area a.block) fun size =>
    .outOfBounds a.area a.block a.start (min (a.start + len) (countLimit - 1)) size

/-- The byte with an index in an image after some calls: the one that was put there last,
by an insert of the image or by an accepted write to it. -/
def lastByte? (area : Area) (block i : Nat) : List MemoryCall → Option UInt8
  | [] => none
  | insert area' block' image :: past =>
      if SameImage area' block' area block then image[i]? else lastByte? area block i past
  | read _ _ :: past => lastByte? area block i past
  | write a bs :: past =>
      if SameImage a.area a.block area block ∧ Accepted past a bs.length
          ∧ a.start ≤ i ∧ i < a.start + bs.length then
        bs[i - a.start]?
      else lastByte? area block i past

/-- The number of reads that were accepted. -/
def acceptedReads : List MemoryCall → Nat
  | [] => 0
  | read a len :: past => acceptedReads past + if Accepted past a len then 1 else 0
  | insert _ _ _ :: past => acceptedReads past
  | write _ _ :: past => acceptedReads past

/-- The number of writes that were accepted. -/
def acceptedWrites : List MemoryCall → Nat
  | [] => 0
  | write a bs :: past => acceptedWrites past + if Accepted past a bs.length then 1 else 0
  | insert _ _ _ :: past => acceptedWrites past
  | read _ _ :: past => acceptedWrites past

end MemoryCall

/-- Images have the same key exactly if they are the same. -/
theorem imageKey_eq_iff {area area' : Area} {block block' : Nat} :
    imageKey area block = imageKey area' block' ↔ SameImage area block area' block' := by
  unfold imageKey SameImage
  rw [Prod.mk.injEq]
  refine and_congr_right fun harea => ?_
  subst harea
  by_cases h : area = .dataBlock <;> simp [h]

namespace Memory

open MemoryCall

/-! ## One call -/

/-- An image after an insert is the one that was inserted, or as it was. -/
theorem image?_insert (m : Memory) (area : Area) (block : Nat) (image : Bytes)
    (area' : Area) (block' : Nat) :
    (m.insert area block image).image? area' block' =
      if SameImage area block area' block' then some image else m.image? area' block' := by
  by_cases h : SameImage area block area' block'
  · have hkey := imageKey_eq_iff.2 h
    rw [if_pos h, image?, insert, ← hkey, find?_put_self]
  · have hkey : imageKey area' block' ≠ imageKey area block := fun heq =>
      h (imageKey_eq_iff.1 heq.symm)
    rw [if_neg h, image?_insert_ne m image hkey]

/-- A write that is accepted puts its bytes over those of its image. -/
theorem image?_write {m : Memory} {a : Address} {bs image : Bytes}
    (h : m.target a bs.length = .ok image) (area : Area) (block : Nat) :
    (m.write a bs).2.image? area block =
      if SameImage a.area a.block area block then some (image.overwrite a.start bs)
      else m.image? area block := by
  rw [← image?_insert, write, h]
  rfl

/-- A read leaves every image. -/
theorem image?_read (m : Memory) (a : Address) (len : Nat) (area : Area) (block : Nat) :
    (m.read a len).2.image? area block = m.image? area block := by
  rw [image?, find?, images_read]
  rfl

/-! ## Runs -/

/-- The images and the counts of a device are those that the calls before say. -/
structure Recalls (m : Memory) (past : List MemoryCall) : Prop where
  size : ∀ area block, (m.image? area block).map List.length = imageSize? area block past
  byte : ∀ area block i,
    ((m.image? area block).bind fun image => image[i]?) = lastByte? area block i past
  reads : m.reads = acceptedReads past
  writes : m.writes = acceptedWrites past

variable {m : Memory} {past : List MemoryCall} {a : Address}

/-- A request is refused, or accepted with an image that it lies within. -/
theorem Recalls.target_cases (h : m.Recalls past) (a : Address) (len : Nat) :
    (¬ Accepted past a len ∧ m.target a len = .error (refusal past a len))
      ∨ ∃ image, Accepted past a len ∧ m.image? a.area a.block = some image
        ∧ a.start + len ≤ image.length ∧ m.target a len = .ok image := by
  have hsize := h.size a.area a.block
  unfold Accepted refusal target
  rw [← hsize]
  cases himage : m.image? a.area a.block with
  | none =>
      left
      simp
  | some image =>
      by_cases hfits : a.start + len ≤ image.length
      · right
        simp [hfits]
      · left
        simp [hfits, countLimit]

theorem Recalls.read (h : m.Recalls past) (a : Address) (len : Nat) :
    (m.read a len).2.Recalls (.read a len :: past) := by
  refine ⟨?_, ?_, ?_, ?_⟩
  · intro area block
    rw [image?_read]
    exact h.size area block
  · intro area block i
    rw [image?_read]
    exact h.byte area block i
  · rcases h.target_cases a len with ⟨hno, htarget⟩ | ⟨image, hyes, _, _, htarget⟩
    · simp only [Memory.read, htarget, acceptedReads, if_neg hno, h.reads, Nat.add_zero]
    · simp only [Memory.read, htarget, acceptedReads, if_pos hyes, h.reads]
  · rcases h.target_cases a len with ⟨hno, htarget⟩ | ⟨image, hyes, _, _, htarget⟩
    · simp only [Memory.read, htarget, acceptedWrites, h.writes]
    · simp only [Memory.read, htarget, acceptedWrites, h.writes]

theorem Recalls.insert (h : m.Recalls past) (area : Area) (block : Nat) (image : Bytes) :
    (m.insert area block image).Recalls (.insert area block image :: past) := by
  refine ⟨?_, ?_, h.reads, h.writes⟩
  · intro area' block'
    rw [image?_insert, imageSize?]
    split
    · rfl
    · exact h.size area' block'
  · intro area' block' i
    rw [image?_insert, lastByte?]
    split
    · rfl
    · exact h.byte area' block' i

/-- A write that is refused changes nothing, and one that is accepted puts its bytes. -/
theorem Recalls.write (h : m.Recalls past) (a : Address) (bs : Bytes) :
    (m.write a bs).2.Recalls (.write a bs :: past) := by
  rcases h.target_cases a bs.length with ⟨hno, htarget⟩ | ⟨image, hyes, himage, hfits, htarget⟩
  · have hkept : (m.write a bs).2 = m := by simp only [Memory.write, htarget]
    rw [hkept]
    refine ⟨h.size, ?_, h.reads, ?_⟩
    · intro area block i
      rw [lastByte?, if_neg fun hput => hno hput.2.1]
      exact h.byte area block i
    · simp only [acceptedWrites, if_neg hno, h.writes, Nat.add_zero]
  · refine ⟨?_, ?_, ?_, ?_⟩
    · intro area block
      rw [image?_write htarget]
      by_cases hsame : SameImage a.area a.block area block
      · have hkey := imageKey_eq_iff.2 hsame
        rw [if_pos hsame, Option.map_some, Bytes.length_overwrite, imageSize?, ← h.size,
          image?, ← hkey, ← image?, himage, Option.map_some]
      · rw [if_neg hsame]
        exact h.size area block
    · intro area block i
      rw [image?_write htarget, lastByte?]
      -- Another key of the same image may be asked for than was written to.
      by_cases hsame : SameImage a.area a.block area block
      · have hbefore : image[i]? = lastByte? area block i past := by
          have hkey := imageKey_eq_iff.2 hsame
          rw [← h.byte, image?, ← hkey, ← image?, himage, Option.bind_some]
        rw [if_pos hsame, Option.bind_some, Bytes.getElem?_overwrite, hbefore]
        by_cases hput : a.start ≤ i ∧ i < a.start + bs.length
        · rw [if_pos ⟨hput.1, hput.2, by omega⟩, if_pos ⟨hsame, hyes, hput⟩]
        · rw [if_neg fun hin => hput ⟨hin.1, hin.2.1⟩, if_neg fun hin => hput hin.2.2]
      · rw [if_neg hsame, if_neg fun hput => hsame hput.1]
        exact h.byte area block i
    · simp only [Memory.write, htarget, acceptedReads]
      exact h.reads
    · simp only [Memory.write, htarget, acceptedWrites, if_pos hyes]
      exact congrArg (· + 1) h.writes

/-- A device recalls the calls that were made to it. -/
theorem recalls_afterCalls (past : List MemoryCall) : (afterCalls past).Recalls past := by
  induction past with
  | nil => exact ⟨fun _ _ => rfl, fun _ _ _ => rfl, rfl, rfl⟩
  | cons c past ih =>
      cases c with
      | insert area block image => exact ih.insert area block image
      | read a len => exact ih.read a len
      | write a bs => exact ih.write a bs

/-! ## Answers -/

/-- The bytes that are read are those that were put there last. -/
theorem Recalls.map_some_slice (h : m.Recalls past) {image : Bytes} {len : Nat}
    (himage : m.image? a.area a.block = some image) (hfits : a.start + len ≤ image.length) :
    (image.slice a.start len).map some
      = (List.range len).map fun i => lastByte? a.area a.block (a.start + i) past := by
  apply List.ext_getElem?
  intro i
  rw [List.getElem?_map, List.getElem?_map, Bytes.getElem?_slice]
  by_cases hi : i < len
  · have hin : a.start + i < image.length := by omega
    rw [if_pos hi, List.getElem?_range hi, Option.map_some, ← h.byte, himage, Option.bind_some,
      List.getElem?_eq_getElem hin, Option.map_some]
  · rw [if_neg hi, List.getElem?_eq_none (by simpa using hi), Option.map_none, Option.map_none]

/-- What a memory device holds and answers after any calls to a new device.  Its images are
as long as they were when they were last inserted, and it counts the reads and the writes
that were accepted.  A read or a write is accepted exactly if its image was inserted and the
request lies within it; otherwise it is told why and nothing changes.  What is read are the
bytes that were put there last. -/
theorem calls_answered_from_history (past : List MemoryCall) :
    (∀ area block,
      ((afterCalls past).image? area block).map List.length = imageSize? area block past)
    ∧ (afterCalls past).reads = acceptedReads past
    ∧ (afterCalls past).writes = acceptedWrites past
    ∧ (∀ a len,
      match ((afterCalls past).read a len).1 with
      | .ok bs => Accepted past a len ∧ bs.map some
          = (List.range len).map fun i => lastByte? a.area a.block (a.start + i) past
      | .error fault => ¬ Accepted past a len ∧ fault = refusal past a len
          ∧ ((afterCalls past).read a len).2 = afterCalls past)
    ∧ ∀ a bs,
      match ((afterCalls past).write a bs).1 with
      | .ok () => Accepted past a bs.length
      | .error fault => ¬ Accepted past a bs.length ∧ fault = refusal past a bs.length
          ∧ ((afterCalls past).write a bs).2 = afterCalls past := by
  have h := recalls_afterCalls past
  refine ⟨h.size, h.reads, h.writes, ?_, ?_⟩
  · intro a len
    rcases h.target_cases a len with ⟨hno, htarget⟩ | ⟨image, hyes, himage, hfits, htarget⟩
    · simp only [Memory.read, htarget]
      exact ⟨hno, trivial, trivial⟩
    · simp only [Memory.read, htarget]
      exact ⟨hyes, h.map_some_slice himage hfits⟩
  · intro a bs
    rcases h.target_cases a bs.length with ⟨hno, htarget⟩ | ⟨image, hyes, _, _, htarget⟩
    · simp only [Memory.write, htarget]
      exact ⟨hno, trivial, trivial⟩
    · simp only [Memory.write, htarget]
      exact hyes

end Memory
end DataBlock
