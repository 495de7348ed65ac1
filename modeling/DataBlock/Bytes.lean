/-!
# Bytes

Stretches of a byte list: reading a slice, putting bytes over a slice, and
cutting a list into pieces of one size.

Main results:

- `Bytes.length_overwrite`: putting bytes over others never changes how many
  there are.
- `Bytes.slice_slice`: a slice of a slice is a slice.
- `Bytes.slice_overwrite`: the bytes that were put in are read back.
- `Bytes.slice_overwrite_of_disjoint`: a slice beside them stays as it was.
- `Bytes.overwrite_overwrite_slice`: bytes that are put over a slice, and the slice put
  back, are bytes put over the list.
- `Bytes.getElem?_pieces`: a piece is the slice at its place.
- `Bytes.flatten_modify_pieces`: a piece that is changed changes the list at its place.
- `Bytes.chunks_eq_pieces`: what a list is cut into.
-/

namespace DataBlock

/-- A run of bytes, first byte first. -/
abbrev Bytes := List UInt8

namespace Bytes

/-! ## Slices -/

/-- The `len` bytes from `start` on; fewer where the list ends before. -/
def slice (bs : Bytes) (start len : Nat) : Bytes :=
  (bs.drop start).take len

/-- The byte at index `i`; beyond the end there are only zeros. -/
def byte (bs : Bytes) (i : Nat) : UInt8 :=
  bs.getD i 0

/-- The list with `new` over the bytes from `start` on.  What would lie past
the end is dropped, so that the length stays. -/
def overwrite (bs : Bytes) (start : Nat) (new : Bytes) : Bytes :=
  bs.take start ++ (new.take (bs.length - start) ++ bs.drop (start + new.length))

@[simp] theorem length_overwrite (bs : Bytes) (start : Nat) (new : Bytes) :
    (bs.overwrite start new).length = bs.length := by
  simp only [overwrite, List.length_append, List.length_take, List.length_drop]
  omega

/-- A slice that lies inside the list has the length asked for. -/
theorem length_slice {bs : Bytes} {start len : Nat} (h : start + len ≤ bs.length) :
    (bs.slice start len).length = len := by
  simp only [slice, List.length_take, List.length_drop]
  omega

/-- The bytes that were put in are read back. -/
theorem slice_overwrite {bs new : Bytes} {start : Nat}
    (h : start + new.length ≤ bs.length) :
    (bs.overwrite start new).slice start new.length = new := by
  have hstart : (bs.take start).length = start := by
    simp only [List.length_take]
    omega
  have hnew : new.take (bs.length - start) = new :=
    List.take_of_length_le (by omega)
  have hdrop : (bs.overwrite start new).drop start
      = new ++ bs.drop (start + new.length) := by
    rw [overwrite, hnew]
    exact List.drop_left' hstart
  rw [slice, hdrop]
  exact List.take_left

theorem getElem?_slice (bs : Bytes) (start len i : Nat) :
    (bs.slice start len)[i]? = if i < len then bs[start + i]? else none := by
  rw [slice, List.getElem?_take, List.getElem?_drop]

/-- A slice of a slice is the slice at the sum of their places. -/
theorem slice_slice {bs : Bytes} {start len start' len' : Nat} (h : start' + len' ≤ len) :
    (bs.slice start len).slice start' len' = bs.slice (start + start') len' := by
  apply List.ext_getElem?
  intro i
  rw [getElem?_slice, getElem?_slice, getElem?_slice]
  by_cases hi : i < len'
  · rw [if_pos hi, if_pos hi, if_pos (by omega), Nat.add_assoc]
  · rw [if_neg hi, if_neg hi]

/-- A byte that nothing was put over stays. -/
theorem getElem?_overwrite_of_outside {bs new : Bytes} {start i : Nat}
    (h : i < start ∨ start + new.length ≤ i) :
    (bs.overwrite start new)[i]? = bs[i]? := by
  by_cases hi : i < bs.length
  · rcases h with hbefore | hafter
    · rw [overwrite, List.getElem?_append_left (by simp only [List.length_take]; omega),
        List.getElem?_take_of_lt hbefore]
    · have htake : (bs.take start).length = start := by
        simp only [List.length_take]
        omega
      have hnew : new.take (bs.length - start) = new :=
        List.take_of_length_le (by omega)
      rw [overwrite, hnew, List.getElem?_append_right (by omega), htake,
        List.getElem?_append_right (by omega), List.getElem?_drop]
      congr 1
      omega
  · have hlength := length_overwrite bs start new
    rw [List.getElem?_eq_none (by omega), List.getElem?_eq_none (by omega)]

/-- After bytes were put in, there are those at their places and the old ones elsewhere. -/
theorem getElem?_overwrite (bs new : Bytes) (start i : Nat) :
    (bs.overwrite start new)[i]? =
      if start ≤ i ∧ i < start + new.length ∧ i < bs.length then new[i - start]?
      else bs[i]? := by
  by_cases hinside : start ≤ i ∧ i < start + new.length
  · by_cases hlength : i < bs.length
    · have htake : (bs.take start).length = start := by
        simp only [List.length_take]
        omega
      have hleft : i - start < (new.take (bs.length - start)).length := by
        simp only [List.length_take]
        omega
      rw [if_pos ⟨hinside.1, hinside.2, hlength⟩, overwrite,
        List.getElem?_append_right (by omega), htake, List.getElem?_append_left hleft,
        List.getElem?_take_of_lt (by omega)]
    · have hend := length_overwrite bs start new
      rw [if_neg (fun h => hlength h.2.2), List.getElem?_eq_none (by omega),
        List.getElem?_eq_none (by omega)]
  · rw [if_neg (fun h => hinside ⟨h.1, h.2.1⟩), getElem?_overwrite_of_outside (by omega)]

/-- Putting a slice back, some of its bytes replaced, replaces those bytes of the list. -/
theorem overwrite_overwrite_slice {bs new : Bytes} {start len start' : Nat}
    (h : start + len ≤ bs.length) (hnew : start' + new.length ≤ len) :
    bs.overwrite start ((bs.slice start len).overwrite start' new)
      = bs.overwrite (start + start') new := by
  apply List.ext_getElem?
  intro i
  have hplace : i - start - start' = i - (start + start') := by omega
  rw [getElem?_overwrite, getElem?_overwrite, getElem?_overwrite, length_overwrite,
    length_slice h, hplace, getElem?_slice]
  by_cases hrow : start ≤ i ∧ i < start + len ∧ i < bs.length
  · rw [if_pos hrow]
    by_cases hinside : start + start' ≤ i ∧ i < start + start' + new.length ∧ i < bs.length
    · rw [if_pos hinside, if_pos (by omega)]
    · have hsame : start + (i - start) = i := by omega
      rw [if_neg hinside, if_neg (by omega), if_pos (by omega), hsame]
  · rw [if_neg hrow, if_neg (by omega)]

/-- Putting a slice back changes nothing. -/
theorem overwrite_slice {bs : Bytes} {start len : Nat} (h : start + len ≤ bs.length) :
    bs.overwrite start (bs.slice start len) = bs := by
  apply List.ext_getElem?
  intro i
  rw [getElem?_overwrite, length_slice h, getElem?_slice]
  by_cases hinside : start ≤ i ∧ i < start + len ∧ i < bs.length
  · have hsame : start + (i - start) = i := by omega
    rw [if_pos hinside, if_pos (by omega), hsame]
  · rw [if_neg hinside]

/-- Of a slice, only the bytes that were put at its beginning change. -/
theorem slice_overwrite_of_le {bs new : Bytes} {start len : Nat} (h : new.length ≤ len) :
    (bs.overwrite start new).slice start len = (bs.slice start len).overwrite 0 new := by
  apply List.ext_getElem?
  intro i
  have hlength : (bs.slice start len).length = min len (bs.length - start) := by
    simp only [slice, List.length_take, List.length_drop]
  rw [getElem?_slice, getElem?_overwrite, getElem?_overwrite, hlength, getElem?_slice]
  by_cases hnew : start + i < bs.length ∧ i < new.length
  · have hplace : start + i - start = i - 0 := by omega
    rw [if_pos (by omega), if_pos (by omega), if_pos (by omega), hplace]
  · rw [if_neg (c := start ≤ start + i ∧ _) (by omega), if_neg (c := 0 ≤ i ∧ _) (by omega)]

/-- A slice beside the bytes that were put in stays. -/
theorem slice_overwrite_of_disjoint {bs new : Bytes} {start start' len : Nat}
    (h : start' + len ≤ start ∨ start + new.length ≤ start') :
    (bs.overwrite start new).slice start' len = bs.slice start' len := by
  apply List.ext_getElem?
  intro i
  rw [getElem?_slice, getElem?_slice]
  split
  · exact getElem?_overwrite_of_outside (by omega)
  · rfl

/-- Bytes that are put within the first of two lists leave the second. -/
theorem overwrite_append_of_le {bs new : Bytes} {start : Nat}
    (h : start + new.length ≤ bs.length) (rest : Bytes) :
    (bs ++ rest).overwrite start new = bs.overwrite start new ++ rest := by
  have hroom : new.length ≤ bs.length - start := by omega
  have hroom' : new.length ≤ (bs ++ rest).length - start := by
    rw [List.length_append]
    omega
  rw [overwrite, overwrite, List.take_append_of_le_length (by omega),
    List.drop_append_of_le_length h, List.take_of_length_le hroom,
    List.take_of_length_le hroom', List.append_assoc, List.append_assoc]

/-- Bytes that are put behind the first of two lists leave it. -/
theorem overwrite_length_add (front bs new : Bytes) (start : Nat) :
    (front ++ bs).overwrite (front.length + start) new = front ++ bs.overwrite start new := by
  rw [overwrite, overwrite, List.take_length_add_append, Nat.add_assoc,
    List.drop_length_add_append, List.length_append, Nat.add_sub_add_left, List.append_assoc]

/-! ## Pieces -/

/-- The first `count` pieces of `size` bytes each, in order. -/
def pieces (size : Nat) : Nat → Bytes → List Bytes
  | 0, _ => []
  | count + 1, bs => bs.take size :: pieces size count (bs.drop size)

@[simp] theorem length_pieces (size count : Nat) (bs : Bytes) :
    (pieces size count bs).length = count := by
  induction count generalizing bs with
  | zero => rfl
  | succ count ih => simp [pieces, ih]

/-- A piece has no more bytes than were asked for. -/
theorem length_le_of_mem_pieces {size count : Nat} {bs piece : Bytes}
    (h : piece ∈ pieces size count bs) : piece.length ≤ size := by
  induction count generalizing bs with
  | zero => cases h
  | succ count ih =>
      rcases List.mem_cons.1 h with rfl | h
      · exact List.length_take_le _ _
      · exact ih h

/-- A piece is the slice at its place. -/
theorem getElem?_pieces (size count : Nat) (bs : Bytes) (i : Nat) :
    (pieces size count bs)[i]? = if i < count then some (bs.slice (i * size) size) else none := by
  induction count generalizing bs i with
  | zero => rfl
  | succ count ih =>
      cases i with
      | zero => simp [pieces, slice]
      | succ i =>
          have hplace : size + i * size = (i + 1) * size := by
            rw [Nat.add_mul, Nat.one_mul, Nat.add_comm]
          simp only [pieces, List.getElem?_cons_succ, ih, slice, List.drop_drop, hplace,
            Nat.add_lt_add_iff_right]

/-- The pieces of a list make it up. -/
theorem flatten_pieces {size count : Nat} {bs : Bytes} (hlength : bs.length = size * count) :
    (pieces size count bs).flatten = bs := by
  induction count generalizing bs with
  | zero => exact (List.eq_nil_of_length_eq_zero hlength).symm
  | succ count ih =>
      have hrest : (bs.drop size).length = size * count := by
        rw [List.length_drop, hlength, Nat.mul_succ, Nat.add_sub_cancel]
      rw [pieces, List.flatten_cons, ih hrest, List.take_append_drop]

/-- A piece that is changed and joined with the others changes the list at its place. -/
theorem flatten_modify_pieces {size count : Nat} {bs : Bytes} (hlength : bs.length = size * count)
    {i : Nat} (hi : i < count) {new : Bytes} (hnew : new.length ≤ size) :
    ((pieces size count bs).modify i fun piece => piece.overwrite 0 new).flatten
      = bs.overwrite (i * size) new := by
  induction count generalizing bs i with
  | zero => cases hi
  | succ count ih =>
      rw [Nat.mul_succ] at hlength
      have hfirst : (bs.take size).length = size := by
        rw [List.length_take]
        omega
      have hrest : (bs.drop size).length = size * count := by
        rw [List.length_drop]
        omega
      conv => rhs; rw [← List.take_append_drop size bs]
      cases i with
      | zero =>
          rw [pieces, List.modify_zero_cons, List.flatten_cons, flatten_pieces hrest,
            Nat.zero_mul, overwrite_append_of_le (by omega)]
      | succ i =>
          have hplace : (i + 1) * size = (bs.take size).length + i * size := by
            rw [hfirst, Nat.succ_mul, Nat.add_comm]
          rw [pieces, List.modify_succ_cons, List.flatten_cons,
            ih hrest (Nat.lt_of_succ_lt_succ hi), hplace, overwrite_length_add]

/-- Cuts a list into pieces until nothing is left of it, or `fuel` pieces are cut off. -/
def chunksWithin (size : Nat) : Nat → Bytes → List Bytes
  | 0, _ => []
  | _ + 1, [] => []
  | fuel + 1, b :: bs => (b :: bs).take size :: chunksWithin size fuel ((b :: bs).drop size)

/-- The pieces of `size` bytes each, one byte at least, that a list is cut into, in order.  The
last one may be shorter. -/
def chunks (size : Nat) (bs : Bytes) : List Bytes :=
  chunksWithin size bs.length bs

/-- A list of some pieces is cut into as many. -/
theorem chunksWithin_eq_pieces {size count fuel : Nat} {bs : Bytes} (hsize : 0 < size)
    (hlength : bs.length = size * count) (hfuel : count ≤ fuel) :
    chunksWithin size fuel bs = pieces size count bs := by
  induction count generalizing fuel bs with
  | zero =>
      obtain rfl : bs = [] := List.eq_nil_of_length_eq_zero hlength
      cases fuel <;> rfl
  | succ count ih =>
      obtain ⟨fuel, rfl⟩ := Nat.exists_eq_succ_of_ne_zero (Nat.ne_of_gt (Nat.lt_of_lt_of_le
        (Nat.succ_pos count) hfuel))
      rw [Nat.mul_succ] at hlength
      cases bs with
      | nil =>
          rw [List.length_nil] at hlength
          omega
      | cons b bs =>
          have hrest : ((b :: bs).drop size).length = size * count := by
            rw [List.length_drop, hlength, Nat.add_sub_cancel]
          rw [chunksWithin, pieces, ih hrest (Nat.le_of_succ_le_succ hfuel)]

/-- A list of some pieces is cut into as many. -/
theorem chunks_eq_pieces {size count : Nat} {bs : Bytes} (hsize : 0 < size)
    (hlength : bs.length = size * count) : chunks size bs = pieces size count bs :=
  chunksWithin_eq_pieces hsize hlength (hlength ▸ Nat.le_mul_of_pos_left count hsize)

end Bytes

end DataBlock
