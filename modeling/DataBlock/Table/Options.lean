import DataBlock.Device
import DataBlock.Layout

/-!
# Table options

How a block of bytes is cut into rows, and when a layout fits the rows.

Main result:

- `TableOptions.fits_of_check`: options that pass the check fit.
-/

namespace DataBlock

/-- Why no table is made: something is at fault and told of, or the program stops at a sum that is
no count. -/
inductive Stop where
  | fault (cause : Fault)
  | overflow
  deriving DecidableEq

/-- How a block of bytes is cut into rows, and where it lies on a device. -/
structure TableOptions where
  area : Area
  block : Nat
  /-- Bytes of a row; as many as the layout spans if nothing is said. -/
  rowSize? : Option Nat
  /-- Unused bytes between two rows. -/
  rowPadding : Nat
  rowCount : Nat
  /-- The layout address of the first byte of a row. -/
  layoutOffset : Nat
  /-- The index of the first byte of the first row. -/
  dbOffset : Nat
  /-- The field by which rows are looked up. -/
  idField : Option String
  deriving DecidableEq

namespace TableOptions

/-- One row of the data block zero, with no offsets. -/
def usual : TableOptions :=
  ⟨.dataBlock, 0, none, 0, 1, 0, 0, none⟩

/-- Bytes of a row, as many as the fields take if nothing is said. -/
def rowLength (o : TableOptions) (l : Layout) : Nat :=
  o.rowSize?.getD (l.extent o.layoutOffset)

/-- Bytes from the beginning of a row to that of the next, whether or not they are a count. -/
def distance (o : TableOptions) (l : Layout) : Nat :=
  o.rowLength l + o.rowPadding

/-- Rows of a size, at a distance from the beginning of one to that of the next, fit a block of
`size` bytes, and the layout fits the rows. -/
structure Fits (o : TableOptions) (l : Layout) (size rowSize stride : Nat) : Prop where
  layoutOffset_le : ∀ f ∈ l.fields, o.layoutOffset ≤ f.offset
  behind_lt : ∀ f ∈ l.fields, f.behind < countLimit
  rowSize_eq : rowSize = o.rowLength l
  extent_le : l.extent o.layoutOffset ≤ rowSize
  stride_eq : stride = o.distance l
  stride_lt : stride < countLimit
  stride_pos : 0 < stride
  dbOffset_le : o.dbOffset ≤ size
  rows_le : stride * o.rowCount ≤ size - o.dbOffset
  id_found : ∀ name, o.idField = some name → ∃ f, l.find? name = some f

/-- The bytes of a row, and those from the beginning of a row to that of the next; or the first
reason, in a fixed order, why the rows do not fit. -/
def check (o : TableOptions) (l : Layout) (size : Nat) : Except Stop (Nat × Nat) :=
  match l.fields.find? fun f => decide (f.offset < o.layoutOffset) with
  | some f => .error (.fault (.invalid (.beforeLayout f.name f.offset o.layoutOffset)))
  | none =>
      match l.span o.layoutOffset with
      | none => .error .overflow
      | some span =>
          let rowSize := o.rowSize?.getD span
          if rowSize < span then .error (.fault (.tooLarge (.row span rowSize)))
          else
            match Count.add? rowSize o.rowPadding with
            | none => .error .overflow
            | some stride =>
                let needed := stride * o.rowCount
                let available := size - o.dbOffset
                if stride = 0 then .error (.fault (.invalid .emptyRows))
                else if size < o.dbOffset then
                  .error (.fault (.bufferTooSmall o.dbOffset 0 size))
                else if countLimit ≤ needed then
                  .error (.fault (.tooLarge (.countless o.rowCount stride)))
                else if available < needed then
                  .error (.fault (.tooLarge
                    (.block o.rowCount stride o.dbOffset needed available)))
                else
                  match o.idField with
                  | some name => ((l.field name).mapError .fault).map fun _ => (rowSize, stride)
                  | none => .ok (rowSize, stride)

/-- Options that pass the check fit. -/
theorem fits_of_check {o : TableOptions} {l : Layout} {size rowSize stride : Nat}
    (h : o.check l size = .ok (rowSize, stride)) : o.Fits l size rowSize stride := by
  simp only [check] at h
  split at h
  · cases h
  next hfields =>
  split at h
  · cases h
  next span hspan =>
  split at h
  · cases h
  next hextent =>
  split at h
  · cases h
  next sum hsum =>
  split at h
  · cases h
  next hpos =>
  split at h
  · cases h
  next hstart =>
  split at h
  · cases h
  next hlimit =>
  split at h
  · cases h
  next hrows =>
  obtain ⟨hbehind, rfl⟩ := Layout.span_eq_some_iff.1 hspan
  obtain ⟨hlt, rfl⟩ := Count.add?_eq_some_iff.1 hsum
  have hoffset : ∀ f ∈ l.fields, o.layoutOffset ≤ f.offset := fun f hf => by
    simpa using List.find?_eq_none.1 hfields f hf
  have hmade : (o.rowLength l, o.distance l) = (rowSize, stride)
      ∧ ∀ name, o.idField = some name → ∃ f, l.find? name = some f := by
    cases hid : o.idField with
    | none =>
        rw [hid] at h
        exact ⟨Except.ok.inj h, fun name hname => by cases hname⟩
    | some name =>
        simp only [hid, Layout.field] at h
        cases hfind : l.find? name with
        | none =>
            rw [hfind] at h
            cases h
        | some f =>
            rw [hfind] at h
            exact ⟨Except.ok.inj h, fun name' hname => by cases hname; exact ⟨f, hfind⟩⟩
  obtain ⟨hsizes, hid⟩ := hmade
  cases hsizes
  exact ⟨hoffset, hbehind, rfl, Nat.not_lt.1 hextent, rfl, hlt, Nat.pos_of_ne_zero hpos,
    Nat.not_lt.1 hstart, Nat.not_lt.1 hrows, hid⟩

end TableOptions
end DataBlock
