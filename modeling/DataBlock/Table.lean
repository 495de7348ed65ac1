import DataBlock.Row.Transfer
import DataBlock.Table.Options

/-!
# Tables

A block of bytes that holds equally spaced rows of one layout.  Rows are found by
their index or by the value of a field.  What is changed in a row is changed in
the block and nowhere else.

Main results:

- `Table.rows_length`: a table has as many rows as its options say.
- `Table.reach_eq_rowAt`: both ways of reaching a row lead to the same one.
- `Table.outcome_onRow`: a change of a row ends in the table as it does on the row alone.
- `Table.row_setRow`: the bytes that are put into a row are read back.
- `Table.rowEnd_le`: every row lies within the block.
-/

namespace DataBlock

/-- A block of bytes with rows that fit it. -/
structure Table where
  layout : Layout
  options : TableOptions
  bytes : Bytes
  /-- Bytes of a row. -/
  rowSize : Nat
  /-- Bytes from the beginning of a row to that of the next. -/
  stride : Nat
  fits : options.Fits layout bytes.length rowSize stride
  deriving DecidableEq

namespace Table

/-- The layout and the options say how long the rows are and how far apart they begin. -/
theorem sizes_eq {t t' : Table} (hlayout : t'.layout = t.layout)
    (hoptions : t'.options = t.options) : t'.rowSize = t.rowSize ∧ t'.stride = t.stride := by
  constructor
  · rw [t'.fits.rowSize_eq, t.fits.rowSize_eq, hlayout, hoptions]
  · rw [t'.fits.stride_eq, t.fits.stride_eq, hlayout, hoptions]

theorem rowSize_le_stride (t : Table) : t.rowSize ≤ t.stride := by
  rw [t.fits.rowSize_eq, t.fits.stride_eq]
  exact Nat.le_add_right _ _

/-! ## Rows by index -/

/-- The number of rows. -/
def size (t : Table) : Nat :=
  t.options.rowCount

/-- The index of the first byte of a row. -/
def rowStart (t : Table) (i : Nat) : Nat :=
  t.options.dbOffset + i * t.stride

/-- Where a row lies on a device. -/
def address (t : Table) (i : Nat) : Address :=
  ⟨t.options.area, t.options.block, t.rowStart i⟩

/-- The row of the layout over some bytes that lie at an index. -/
def bound (t : Table) (i : Nat) (bytes : Bytes) : Row :=
  ⟨t.layout, t.options.layoutOffset, t.address i, bytes⟩

/-- The row with an index. -/
def row (t : Table) (i : Nat) : Row :=
  t.bound i (t.bytes.slice (t.rowStart i) t.rowSize)

/-- The row with an index below the number of rows. -/
def rowAt (t : Table) (i : Nat) : Except Fault Row :=
  if i < t.size then .ok (t.row i) else .error (.notFound (.row i t.size))

theorem rowAt_eq_ok_iff {t : Table} {i : Nat} {r : Row} :
    t.rowAt i = .ok r ↔ i < t.size ∧ t.row i = r := by
  by_cases h : i < t.size <;> simp [rowAt, h]

/-- The bytes up to the end of what a row and the room behind it take are among those of all
rows. -/
theorem strideEnd_le (t : Table) {i : Nat} (h : i < t.size) :
    i * t.stride + t.stride ≤ t.stride * t.size := by
  rw [← Nat.succ_mul, Nat.mul_comm]
  exact Nat.mul_le_mul_left _ h

/-- Every row lies within the block. -/
theorem rowEnd_le (t : Table) {i : Nat} (h : i < t.size) :
    t.rowStart i + t.rowSize ≤ t.bytes.length := by
  have hrows := t.fits.rows_le
  have hstart := t.fits.dbOffset_le
  have hstride := t.rowSize_le_stride
  have hlast := t.strideEnd_le h
  rw [size] at hlast
  simp only [rowStart]
  omega

theorem length_row {t : Table} {i : Nat} (h : i < t.size) :
    (t.row i).bytes.length = t.rowSize :=
  Bytes.length_slice (t.rowEnd_le h)

/-! ## All rows -/

/-- The bytes of all rows and of what is between them. -/
def rowBytes (t : Table) : Bytes :=
  t.bytes.slice t.options.dbOffset (t.stride * t.size)

theorem length_rowBytes (t : Table) : t.rowBytes.length = t.stride * t.size := by
  have hrows := t.fits.rows_le
  have hstart := t.fits.dbOffset_le
  exact Bytes.length_slice (by rw [size]; omega)

/-- The bytes are cut into one piece for each row. -/
theorem chunks_rowBytes (t : Table) :
    Bytes.chunks t.stride t.rowBytes = Bytes.pieces t.stride t.size t.rowBytes :=
  Bytes.chunks_eq_pieces t.fits.stride_pos t.length_rowBytes

/-- All rows, in order. -/
def rows (t : Table) : List Row :=
  (Bytes.chunks t.stride t.rowBytes).mapIdx fun i piece => t.bound i (piece.take t.rowSize)

/-- A table has as many rows as its options say. -/
@[simp] theorem rows_length (t : Table) : t.rows.length = t.size := by
  simp [rows, chunks_rowBytes]

/-- How a row is reached: at its index, or as the row that comes up there when all rows
are gone through in order. -/
inductive Way where
  | index
  | order
  deriving DecidableEq, Repr

/-- The row that is reached with an index. -/
def reach (t : Table) (way : Way) (i : Nat) : Except Fault Row :=
  match way with
  | .index => t.rowAt i
  | .order =>
      match t.rows[i]? with
      | some r => .ok r
      | none => .error (.notFound (.row i t.size))

/-- The row that comes up at an index is the row with that index. -/
theorem getElem?_rows (t : Table) (i : Nat) :
    t.rows[i]? = if i < t.size then some (t.row i) else none := by
  rw [rows, List.getElem?_mapIdx, chunks_rowBytes, Bytes.getElem?_pieces]
  by_cases h : i < t.size
  · have hpiece : (t.rowBytes.slice (i * t.stride) t.stride).take t.rowSize
        = t.bytes.slice (t.rowStart i) t.rowSize := by
      rw [rowBytes, Bytes.slice_slice (t.strideEnd_le h), Bytes.slice, List.take_take,
        Nat.min_eq_left t.rowSize_le_stride]
      rfl
    rw [if_pos h, if_pos h, Option.map_some, hpiece, row]
  · rw [if_neg h, if_neg h, Option.map_none]

/-- Both ways lead to the same row. -/
theorem reach_eq_rowAt (t : Table) (way : Way) (i : Nat) : t.reach way i = t.rowAt i := by
  cases way with
  | index => rfl
  | order =>
      rw [reach, getElem?_rows, rowAt]
      by_cases h : i < t.size
      · rw [if_pos h, if_pos h]
      · rw [if_neg h, if_neg h]

/-- The names and values of every row, in order. -/
def values (t : Table) : Except Fault (List (List (String × Value))) :=
  t.rows.mapM Row.values

/-! ## Changes -/

/-- The table with the bytes of a row replaced.  No more is replaced than the row
is long. -/
def setRow (t : Table) (i : Nat) (bs : Bytes) : Table where
  layout := t.layout
  options := t.options
  bytes := t.bytes.overwrite (t.rowStart i) (bs.take t.rowSize)
  rowSize := t.rowSize
  stride := t.stride
  fits := by
    rw [Bytes.length_overwrite]
    exact t.fits

/-- The table with the bytes of the row replaced that comes up at an index.  The others are
put back as they were. -/
def setPiece (t : Table) (i : Nat) (bs : Bytes) : Table where
  layout := t.layout
  options := t.options
  bytes := t.bytes.overwrite t.options.dbOffset
    ((Bytes.chunks t.stride t.rowBytes).modify i fun piece =>
      piece.overwrite 0 (bs.take t.rowSize)).flatten
  rowSize := t.rowSize
  stride := t.stride
  fits := by
    rw [Bytes.length_overwrite]
    exact t.fits

/-- The row that comes up at an index lies where the row with that index does. -/
theorem setPiece_eq_setRow (t : Table) {i : Nat} (h : i < t.size) (bs : Bytes) :
    t.setPiece i bs = t.setRow i bs := by
  have hrows := t.fits.rows_le
  have hstart := t.fits.dbOffset_le
  have hlast := t.strideEnd_le h
  have hnew : (bs.take t.rowSize).length ≤ t.stride :=
    Nat.le_trans (List.length_take_le _ _) t.rowSize_le_stride
  have hbytes : (t.setPiece i bs).bytes = (t.setRow i bs).bytes := by
    simp only [setPiece, setRow, chunks_rowBytes,
      Bytes.flatten_modify_pieces t.length_rowBytes h hnew]
    refine Bytes.overwrite_overwrite_slice ?_ (by omega)
    rw [size]
    omega
  simp only [setPiece, setRow] at hbytes ⊢
  simp only [hbytes]

/-- The table with the bytes of a row replaced that was reached. -/
def putBack (t : Table) : Way → Nat → Bytes → Table
  | .index => t.setRow
  | .order => t.setPiece

/-- Whichever way a row was reached, it is put back at its place. -/
theorem putBack_eq_setRow (t : Table) (way : Way) {i : Nat} (h : i < t.size) (bs : Bytes) :
    t.putBack way i bs = t.setRow i bs := by
  cases way with
  | index => rfl
  | order => exact t.setPiece_eq_setRow h bs

/-- As many bytes as the row is long are put over the row. -/
theorem bytes_setRow (t : Table) (i : Nat) {bs : Bytes} (hlength : bs.length = t.rowSize) :
    (t.setRow i bs).bytes = t.bytes.overwrite (t.rowStart i) bs := by
  have htake : bs.take t.rowSize = bs := List.take_of_length_le (by omega)
  simp only [setRow, htake]

/-- The bytes that are put into a row are read back. -/
theorem row_setRow (t : Table) {i : Nat} {bs : Bytes} (h : i < t.size)
    (hlength : bs.length = t.rowSize) : ((t.setRow i bs).row i).bytes = bs := by
  have hfits : t.rowStart i + bs.length ≤ t.bytes.length := hlength ▸ t.rowEnd_le h
  have hslice := Bytes.slice_overwrite hfits
  rw [← bytes_setRow t i hlength, hlength] at hslice
  exact hslice

/-- Changes a row.  What the change leaves of the row is put into the block, also at a
fault. -/
def onRow {α : Type} (way : Way) (i : Nat) (c : Change Row α) : Change Table α := fun t =>
  match t.reach way i with
  | .error fault => .error fault t
  | .ok row =>
      match c.run row with
      | .ok a after => .ok a (t.putBack way i after.bytes)
      | .error fault after => .error fault (t.putBack way i after.bytes)

theorem run_onRow {α : Type} (way : Way) (i : Nat) (c : Change Row α) (t : Table) :
    (onRow way i c).run t =
      match t.rowAt i with
      | .error fault => .error fault t
      | .ok row =>
          match c.run row with
          | .ok a after => .ok a (t.setRow i after.bytes)
          | .error fault after => .error fault (t.setRow i after.bytes) := by
  rw [EStateM.run, onRow, reach_eq_rowAt]
  cases hrow : t.rowAt i with
  | error fault => rfl
  | ok row =>
      simp only [t.putBack_eq_setRow way (rowAt_eq_ok_iff.1 hrow).1]

/-- A change of a row comes to the same end on the row alone, whichever way the row is
reached. -/
theorem outcome_onRow {α : Type} (way : Way) (i : Nat) (c : Change Row α) (t : Table) :
    (onRow way i c).outcome t =
      match t.rowAt i with
      | .error fault => (.error fault, t)
      | .ok row => ((c.outcome row).1, t.setRow i (c.outcome row).2.bytes) := by
  rw [Change.outcome, run_onRow]
  cases t.rowAt i with
  | error fault => rfl
  | ok row =>
      simp only [Change.outcome]
      cases c.run row <;> rfl

/-- Sets the field of a row to a value. -/
def assign (i : Nat) (name : String) (v : Value) : Change Table Unit :=
  onRow .index i (Row.assign name v)

/-- The table with the field of a row set to a value. -/
def set (t : Table) (i : Nat) (name : String) (v : Value) : Except Fault Table :=
  (assign i name v).result t

/-- The table with some bytes of a row replaced. -/
def overwrite (t : Table) (i start : Nat) (bs : Bytes) : Except Fault Table :=
  (onRow .index i (modify fun r => r.overwrite start bs)).result t

/-- Sets a field of the row that comes up at an index to the first value, of the next row to
the second, and so on, until rows or values end.  A row that refuses its value is left as it
is; for the others, their place is told. -/
def fillFrom (name : String) (i : Nat) : List Value → Table → List (Except Fault Address) × Table
  | [], t => ([], t)
  | v :: vs, t =>
      if i < t.size then
        let place : Change Row Address := do
          Row.assign name v
          return (← EStateM.get).address
        let (told, next) := (onRow .order i place).outcome t
        let (others, last) := fillFrom name (i + 1) vs next
        (told :: others, last)
      else ([], t)

/-- Sets a field of all rows in order. -/
def fill (t : Table) (name : String) (vs : List Value) : List (Except Fault Address) × Table :=
  fillFrom name 0 vs t

/-! ## Rows by id -/

/-- The index of the first row, counted from `i`, whose field has the value, unless
the field of a row before it cannot be read. -/
def indexFrom? (name : String) (id : Value) (i : Nat) : List Row → Except Fault (Option Nat)
  | [] => .ok none
  | row :: rows =>
      match row.get name with
      | .error fault => .error fault
      | .ok v => if v.SameKey id then .ok (some i) else indexFrom? name id (i + 1) rows

/-- The index of the first row with an id. -/
def indexOf (t : Table) (id : Value) : Except Fault Nat := do
  match t.options.idField with
  | none => .error (.invalid .noIdField)
  | some name =>
      match (← indexFrom? name id 0 t.rows) with
      | some i => .ok i
      | none => .error (.notFound (.id name id))

/-- The first row with an id. -/
def rowById (t : Table) (id : Value) : Except Fault Row := do
  t.rowAt (← t.indexOf id)

/-! ## Binding -/

/-- Tells of the rows, counted from `i`, whose id cannot be read or has the text of
an earlier one.  The texts seen before are given with their rows. -/
def idEventsFrom (name : String) (seen : List (String × Nat)) (i : Nat) :
    List Row → List Event
  | [] => []
  | row :: rows =>
      match row.get name with
      | .error fault => .idNotDecodable i fault :: idEventsFrom name seen (i + 1) rows
      | .ok v =>
          match seen.lookup v.text with
          | some first =>
              .duplicateId v.text first i :: idEventsFrom name seen (i + 1) rows
          | none => idEventsFrom name ((v.text, i) :: seen) (i + 1) rows

/-- Tells of the rows that cannot be found by an id of their own. -/
def idEvents (t : Table) : List Event :=
  match t.options.idField with
  | some name => idEventsFrom name [] 0 t.rows
  | none => []

/-- Tells of the table. -/
def boundEvent (t : Table) : Event :=
  .tableBound t.options.area t.options.block t.size t.rowSize t.stride
    t.options.dbOffset t.options.layoutOffset

/-- The table of a layout over a block of bytes, if its rows fit. -/
def ofBytes (l : Layout) (bytes : Bytes) (o : TableOptions) : Traced (Except Stop Table) :=
  match h : o.check l bytes.length with
  | .error stop => ⟨.error stop, []⟩
  | .ok (rowSize, stride) =>
      let t : Table := ⟨l, o, bytes, rowSize, stride, TableOptions.fits_of_check h⟩
      ⟨.ok t, t.idEvents ++ [t.boundEvent]⟩

/-- A table that was made of a layout and of options has these, and was told of last. -/
theorem ofBytes_eq_ok {t : Table} {l : Layout} {bytes : Bytes} {o : TableOptions}
    (h : (ofBytes l bytes o).value = .ok t) :
    t.layout = l ∧ t.options = o ∧ t.bytes = bytes
      ∧ (ofBytes l bytes o).events = t.idEvents ++ [t.boundEvent] := by
  revert h
  unfold ofBytes
  split
  · intro h
    cases h
  · intro h
    cases h
    exact ⟨rfl, rfl, rfl, rfl⟩

end Table
end DataBlock
