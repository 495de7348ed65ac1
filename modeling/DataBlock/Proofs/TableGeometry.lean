import DataBlock.Layout.Parse
import DataBlock.Proofs.Displacement
import DataBlock.Proofs.RowIsolation
import DataBlock.Proofs.TableAccess

/-!
# How a table lies in its bytes

A table is made if its options, its layout and its bytes meet eight requirements.  The first of
them that is not met decides what happens instead: the table is refused with a fault of the kind
of the requirement, or the program stops, since the requirement is that a sum is a count.  The
rows of a table are stretches of the block at equal distances, the same whichever way they are
reached, within the block and apart from each other.

Main results:

- `TableOptions.Requirement`: what is required, in the order in which it is looked at.
- `TableOptions.exists_check_eq_error`: the first requirement that is not met decides.
- `Table.HasGeometry`: how the rows of a table lie in the block.
- `Table.ofBytes_geometry`: when a table is made, what happens otherwise, and where its rows lie.
- `Table.ofBytes_stops_at_end`: a field behind which there is no address is not told of.
-/

namespace DataBlock

/-- The kind of the fault that is told of, if one is. -/
def Stop.kind? : Stop → Option FaultKind
  | fault cause => some cause.kind
  | overflow => none

namespace TableOptions

/-! ## Requirements -/

/-- What is required of the options of a table. -/
inductive Requirement where
  /-- No field lies before the first byte of a row. -/
  | fieldsBehind
  /-- There is an address behind every field. -/
  | endsCounted
  /-- The layout is no longer than a row. -/
  | layoutFits
  /-- The bytes from the beginning of a row to that of the next are a count. -/
  | distanceCounted
  /-- A row begins after the one before it. -/
  | rowsAdvance
  /-- The first row begins within the block. -/
  | startWithin
  /-- The block has room for all rows. -/
  | rowsWithin
  /-- The field of the ids is one of the layout. -/
  | idFound
  deriving DecidableEq, Repr

namespace Requirement

/-- The options meet the requirement for a layout and a block of `size` bytes. -/
def MetBy (o : TableOptions) (l : Layout) (size : Nat) : Requirement → Prop
  | fieldsBehind => ∀ f ∈ l.fields, o.layoutOffset ≤ f.offset
  | endsCounted => ∀ f ∈ l.fields, f.behind < countLimit
  | layoutFits => l.extent o.layoutOffset ≤ o.rowLength l
  | distanceCounted => o.distance l < countLimit
  | rowsAdvance => 0 < o.distance l
  | startWithin => o.dbOffset ≤ size
  | rowsWithin => o.distance l * o.rowCount ≤ size - o.dbOffset
  | idFound => ∀ name ∈ o.idField, name ∈ l.fields.map Field.name

instance (o : TableOptions) (l : Layout) (size : Nat) (r : Requirement) :
    Decidable (r.MetBy o l size) :=
  match r with
  | fieldsBehind => inferInstanceAs (Decidable (∀ f ∈ l.fields, _))
  | endsCounted => inferInstanceAs (Decidable (∀ f ∈ l.fields, _))
  | layoutFits => Nat.decLe _ _
  | distanceCounted => Nat.decLt _ _
  | rowsAdvance => Nat.decLt _ _
  | startWithin => Nat.decLe _ _
  | rowsWithin => Nat.decLe _ _
  | idFound => inferInstanceAs (Decidable (∀ name ∈ o.idField, _))

/-- The kind of fault with which options are refused that do not meet the requirement; none where
the program stops. -/
def refusal : Requirement → Option FaultKind
  | fieldsBehind | rowsAdvance => some .invalid
  | layoutFits | rowsWithin => some .tooLarge
  | startWithin => some .bufferTooSmall
  | idFound => some .unknownField
  | endsCounted | distanceCounted => none

/-- What is found wrong when the requirement is looked at. -/
def stop? (o : TableOptions) (l : Layout) (size : Nat) : Requirement → Option Stop
  | fieldsBehind =>
      (l.fields.find? fun f => decide (f.offset < o.layoutOffset)).map fun f =>
        .fault (.invalid (.beforeLayout f.name f.offset o.layoutOffset))
  | endsCounted => if ∀ f ∈ l.fields, f.behind < countLimit then none else some .overflow
  | layoutFits =>
      if o.rowLength l < l.extent o.layoutOffset then
        some (.fault (.tooLarge (.row (l.extent o.layoutOffset) (o.rowLength l))))
      else none
  | distanceCounted => if o.distance l < countLimit then none else some .overflow
  | rowsAdvance => if o.distance l = 0 then some (.fault (.invalid .emptyRows)) else none
  | startWithin =>
      if size < o.dbOffset then some (.fault (.bufferTooSmall o.dbOffset 0 size)) else none
  | rowsWithin =>
      if countLimit ≤ o.distance l * o.rowCount then
        some (.fault (.tooLarge (.countless o.rowCount (o.distance l))))
      else if size - o.dbOffset < o.distance l * o.rowCount then
        some (.fault (.tooLarge (.block o.rowCount (o.distance l) o.dbOffset
          (o.distance l * o.rowCount) (size - o.dbOffset))))
      else none
  | idFound =>
      match o.idField with
      | some name => if (l.find? name).isSome then none else some (.fault (.unknownField name))
      | none => none

variable {o : TableOptions} {l : Layout} {size : Nat} {r : Requirement}

/-- What is found wrong is of the kind of the requirement. -/
theorem kind?_of_stop? {stop : Stop} (h : r.stop? o l size = some stop) :
    stop.kind? = r.refusal := by
  cases r with
  | fieldsBehind =>
      rcases Option.map_eq_some_iff.1 h with ⟨f, _, rfl⟩
      rfl
  | _ =>
      simp only [stop?] at h
      repeat' split at h
      all_goals cases h
      all_goals rfl

/-- Nothing is found wrong exactly if the requirement is met.  A block is no larger than can
be counted, so that rows which are more are too many for it. -/
theorem stop?_eq_none_iff (hsize : size < countLimit) :
    r.stop? o l size = none ↔ r.MetBy o l size := by
  cases r with
  | fieldsBehind => simp [stop?, MetBy]
  | endsCounted => simp [stop?, MetBy]
  | layoutFits => simp [stop?, MetBy]
  | distanceCounted => simp [stop?, MetBy]
  | rowsAdvance =>
      simp only [stop?, MetBy, ite_eq_right_iff, reduceCtorEq, imp_false]
      exact Nat.pos_iff_ne_zero.symm
  | startWithin => simp [stop?, MetBy]
  | rowsWithin =>
      simp only [stop?, MetBy]
      split
      · simp only [reduceCtorEq, false_iff]
        omega
      · simp
  | idFound =>
      cases hid : o.idField with
      | none => simp [stop?, MetBy, hid]
      | some name => simp [stop?, MetBy, hid, Option.isSome_iff_exists, Layout.find?_eq_some_iff]

end Requirement

open Requirement

/-- All requirements, in the order in which they are looked at. -/
def requirements : List Requirement :=
  [fieldsBehind, endsCounted, layoutFits, distanceCounted, rowsAdvance, startWithin, rowsWithin,
    idFound]

theorem mem_requirements (r : Requirement) : r ∈ requirements := by
  cases r <;> decide

variable {o : TableOptions} {l : Layout} {size : Nat}

/-- The first thing that is found wrong decides. -/
theorem check_eq : o.check l size =
    match requirements.findSome? (stop? o l size) with
    | some stop => .error stop
    | none => .ok (o.rowLength l, o.distance l) := by
  simp only [check, requirements, List.findSome?_cons, List.findSome?_nil, stop?]
  cases l.fields.find? fun f => decide (f.offset < o.layoutOffset) with
  | some f => rfl
  | none =>
      dsimp only [Option.map_none]
      by_cases hends : ∀ f ∈ l.fields, f.behind < countLimit
      · have hlength : o.rowSize?.getD (l.extent o.layoutOffset) = o.rowLength l := rfl
        rw [Layout.span_eq_some_iff.2 ⟨hends, rfl⟩, if_pos hends]
        dsimp only
        rw [hlength]
        by_cases hdistance : o.distance l < countLimit
        · have hsum : Count.add? (o.rowLength l) o.rowPadding = some (o.distance l) :=
            Count.add?_eq_some_iff.2 ⟨hdistance, rfl⟩
          rw [hsum, if_pos hdistance]
          dsimp only
          split
          · rfl
          split
          · rfl
          split
          · rfl
          split
          · rfl
          split
          · rfl
          cases o.idField with
          | none => rfl
          | some name =>
              dsimp only [Layout.field]
              cases l.find? name <;> rfl
        · have hsum : Count.add? (o.rowLength l) o.rowPadding = none :=
            Count.add?_eq_none_iff.2 (Nat.not_lt.1 hdistance)
          rw [hsum, if_neg hdistance]
          split <;> rfl
      · rw [Layout.span_eq_none_iff.2 hends, if_neg hends]

/-- The first requirement that is not met. -/
def firstUnmet? (o : TableOptions) (l : Layout) (size : Nat) : Option Requirement :=
  requirements.find? fun r => ¬ r.MetBy o l size

/-- Options pass if they meet all requirements. -/
theorem check_eq_ok_iff (hsize : size < countLimit) :
    o.check l size = .ok (o.rowLength l, o.distance l)
      ↔ ∀ r : Requirement, r.MetBy o l size := by
  have hnone : requirements.findSome? (stop? o l size) = none
      ↔ ∀ r : Requirement, r.MetBy o l size := by
    simp [List.findSome?_eq_none_iff, mem_requirements, stop?_eq_none_iff hsize]
  rw [← hnone, check_eq]
  cases requirements.findSome? (stop? o l size) <;> simp

/-- The first requirement that is not met decides: options are refused with a fault of its kind,
or the program stops. -/
theorem exists_check_eq_error (hsize : size < countLimit) {r : Requirement}
    (h : o.firstUnmet? l size = some r) :
    ∃ stop, o.check l size = .error stop ∧ stop.kind? = r.refusal := by
  rcases List.find?_eq_some_iff_append.1 h with ⟨hunmet, before, after, hsplit, hmet⟩
  have hwrong : r.stop? o l size ≠ none := by
    rw [ne_eq, stop?_eq_none_iff hsize]
    simpa using hunmet
  rcases Option.ne_none_iff_exists'.1 hwrong with ⟨stop, hstop⟩
  have hfirst : requirements.findSome? (stop? o l size) = some stop := by
    refine List.findSome?_eq_some_iff.2 ⟨before, r, after, hsplit, hstop, ?_⟩
    intro q hq
    rw [stop?_eq_none_iff hsize]
    simpa using hmet q hq
  exact ⟨stop, by rw [check_eq, hfirst], kind?_of_stop? hstop⟩

/-! ## Rows of a block -/

/-- Where the options have a row begin. -/
def rowOffset (o : TableOptions) (l : Layout) (i : Nat) : Nat :=
  o.dbOffset + i * o.distance l

/-- The row that the options cut out of a block. -/
def cutRow (o : TableOptions) (l : Layout) (bytes : Bytes) (i : Nat) : Row :=
  ⟨l, o.layoutOffset, ⟨o.area, o.block, o.rowOffset l i⟩,
    bytes.slice (o.rowOffset l i) (o.rowLength l)⟩

end TableOptions

namespace Table

/-- How the rows of a table lie in a block: as the options cut them out of it, within it and
apart from each other. -/
structure HasGeometry (t : Table) (l : Layout) (bytes : Bytes) (o : TableOptions) : Prop where
  /-- In order, there are as many rows as the options say. -/
  rows : t.rows = (List.range o.rowCount).map (o.cutRow l bytes)
  /-- Either way to a row leads to the one that is cut out. -/
  reach : ∀ way i, i < o.rowCount → t.reach way i = .ok (o.cutRow l bytes i)
  /-- A row is lent for changes as the one that is cut out. -/
  lent : ∀ way i, i < o.rowCount → ∀ {α : Type} (c : Change Row α),
    ((onRow way i c).outcome t).1 = (c.outcome (o.cutRow l bytes i)).1
  /-- What a change leaves of a row that was lent is put where the row is cut out, and nothing
  else of the table changes. -/
  returned : ∀ way i, i < o.rowCount → ∀ {α : Type} (c : Change Row α),
    ((onRow way i c).outcome t).2.bytes
        = bytes.overwrite (o.rowOffset l i)
          ((c.outcome (o.cutRow l bytes i)).2.bytes.take (o.rowLength l))
      ∧ ((onRow way i c).outcome t).2.layout = l ∧ ((onRow way i c).outcome t).2.options = o
  /-- Neither way leads to a row beyond the last. -/
  missing : ∀ way i, o.rowCount ≤ i → t.reach way i = .error (.notFound (.row i o.rowCount))
    ∧ ∀ {α : Type} (c : Change Row α),
      (onRow way i c).outcome t = (.error (.notFound (.row i o.rowCount)), t)
  within : ∀ i < o.rowCount, o.rowOffset l i + o.rowLength l ≤ bytes.length
  length_bytes : ∀ i < o.rowCount, (o.cutRow l bytes i).bytes.length = o.rowLength l
  apart : ∀ i j, i < j → o.rowOffset l i + o.rowLength l ≤ o.rowOffset l j

/-- A row begins where the options have it begin. -/
theorem rowStart_eq_rowOffset (t : Table) (i : Nat) :
    t.rowStart i = t.options.rowOffset t.layout i := by
  rw [rowStart, t.fits.stride_eq, TableOptions.rowOffset]

/-- The row with an index is the one that the options cut out. -/
theorem row_eq_cutRow (t : Table) (i : Nat) :
    t.row i = t.options.cutRow t.layout t.bytes i := by
  rw [row, bound, address, t.rowStart_eq_rowOffset, t.fits.rowSize_eq, TableOptions.cutRow]

/-- The rows of a table lie in its bytes as its options say. -/
theorem hasGeometry (t : Table) : t.HasGeometry t.layout t.bytes t.options := by
  have hrow : ∀ i < t.options.rowCount,
      t.rowAt i = .ok (t.options.cutRow t.layout t.bytes i) :=
    fun i hi => rowAt_eq_ok_iff.2 ⟨hi, t.row_eq_cutRow i⟩
  have hnone : ∀ i, t.options.rowCount ≤ i →
      t.rowAt i = .error (.notFound (.row i t.options.rowCount)) :=
    fun i hi => if_neg (Nat.not_lt.2 hi)
  exact {
    rows := by
      apply List.ext_getElem?
      intro i
      rw [getElem?_rows, List.getElem?_map]
      by_cases hi : i < t.options.rowCount
      · rw [List.getElem?_range hi, Option.map_some, ← t.row_eq_cutRow i]
        exact if_pos hi
      · have hlength : (List.range t.options.rowCount).length ≤ i := by
          rw [List.length_range]
          exact Nat.not_lt.1 hi
        rw [List.getElem?_eq_none hlength]
        exact if_neg hi
    reach := fun way i hi => by rw [reach_eq_rowAt, hrow i hi]
    lent := fun way i hi α c => by rw [outcome_onRow, hrow i hi]
    returned := fun way i hi α c => by
      rw [outcome_onRow, hrow i hi]
      refine ⟨?_, rfl, rfl⟩
      simp only [setRow, t.rowStart_eq_rowOffset, t.fits.rowSize_eq]
    missing := fun way i hi => by
      refine ⟨by rw [reach_eq_rowAt, hnone i hi], fun c => ?_⟩
      rw [outcome_onRow, hnone i hi]
    within := fun i hi => by
      rw [← t.rowStart_eq_rowOffset, ← t.fits.rowSize_eq]
      exact t.rowEnd_le hi
    length_bytes := fun i hi => by
      rw [← t.row_eq_cutRow, ← t.fits.rowSize_eq]
      exact length_row hi
    apart := fun i j h => by
      rw [← t.rowStart_eq_rowOffset, ← t.rowStart_eq_rowOffset, ← t.fits.rowSize_eq]
      exact t.rowEnd_le_rowStart h }

/-- A table is made or not as the check of its options says. -/
theorem value_ofBytes (l : Layout) (bytes : Bytes) (o : TableOptions) :
    (ofBytes l bytes o).value.map (fun t => (t.rowSize, t.stride)) = o.check l bytes.length := by
  unfold ofBytes
  split
  · next hcheck =>
      rw [hcheck]
      rfl
  · next hcheck => exact hcheck.symm

/-- A table is made exactly if its options meet all requirements for the layout and the block.
Otherwise the first one that is not met decides: the table is refused with a fault of its kind, or
the program stops, where it is that a sum is a count.  The rows of a table that was made lie in
the block as the options say. -/
theorem ofBytes_geometry (l : Layout) (bytes : Bytes) (o : TableOptions)
    (hsize : bytes.length < countLimit) :
    ((∃ t, (ofBytes l bytes o).value = .ok t)
      ↔ ∀ r : TableOptions.Requirement, r.MetBy o l bytes.length)
    ∧ (∀ r, o.firstUnmet? l bytes.length = some r →
      ∃ stop, (ofBytes l bytes o).value = .error stop ∧ stop.kind? = r.refusal)
    ∧ ∀ t, (ofBytes l bytes o).value = .ok t → t.HasGeometry l bytes o := by
  refine ⟨?_, ?_, ?_⟩
  · rw [← TableOptions.check_eq_ok_iff hsize, ← value_ofBytes, Outcome.map_eq_ok_iff]
    constructor
    · rintro ⟨t, ht⟩
      rcases ofBytes_eq_ok ht with ⟨rfl, rfl, _, _⟩
      exact ⟨t, ht, by rw [t.fits.rowSize_eq, t.fits.stride_eq]⟩
    · rintro ⟨t, ht, _⟩
      exact ⟨t, ht⟩
  · intro r hr
    rcases TableOptions.exists_check_eq_error hsize hr with ⟨stop, hcheck, hkind⟩
    rw [← value_ofBytes, Outcome.map_eq_error_iff] at hcheck
    exact ⟨stop, hcheck, hkind⟩
  · intro t ht
    rcases ofBytes_eq_ok ht with ⟨rfl, rfl, rfl, _⟩
    exact t.hasGeometry

/-- As many rows of eight bytes that all of them together take 2 ^ 64. -/
def countlessOptions : TableOptions :=
  { pauseTable.options with rowSize? := some 7, rowCount := 2 ^ (61 : Nat) }

/-- Two rows are cut out of thirteen bytes.  With rows that would take as many bytes as cannot
be counted, the table is too large. -/
theorem ofBytes_geometry_of_pause :
    pauseTable.bytes.length < countLimit
    ∧ (∀ r : TableOptions.Requirement, r.MetBy pauseTable.options pauseTable.layout 13)
    ∧ (∃ t, (ofBytes pauseTable.layout pauseTable.bytes pauseTable.options).value = .ok t
      ∧ t.HasGeometry pauseTable.layout pauseTable.bytes pauseTable.options)
    ∧ countlessOptions.firstUnmet? pauseTable.layout 13 = some .rowsWithin
    ∧ ∃ stop, (ofBytes pauseTable.layout pauseTable.bytes countlessOptions).value = .error stop
      ∧ stop.kind? = some .tooLarge := by
  have hsize : pauseTable.bytes.length < countLimit := by decide +kernel
  have hmet : ∀ r : TableOptions.Requirement,
      r.MetBy pauseTable.options pauseTable.layout 13 := by
    intro r
    cases r <;> decide +kernel
  have hunmet : countlessOptions.firstUnmet? pauseTable.layout 13 = some .rowsWithin := by
    decide +kernel
  rcases ofBytes_geometry pauseTable.layout pauseTable.bytes pauseTable.options hsize with
    ⟨hmade, _, hplaced⟩
  rcases hmade.2 hmet with ⟨t, ht⟩
  rcases ofBytes_geometry pauseTable.layout pauseTable.bytes countlessOptions hsize with
    ⟨_, hrefused, _⟩
  exact ⟨hsize, hmet, ⟨t, ht, hplaced t ht⟩, hunmet, hrefused _ hunmet⟩

/-- A byte at the last address that is a count. -/
def lastLayout : Layout :=
  ⟨[⟨"x", 2 ^ (64 : Nat) - 1, none, .integer .byte⟩], by decide⟩

/-- Rows of one byte. -/
def byteOptions : TableOptions :=
  { TableOptions.usual with rowSize? := some 1 }

/-- A layout that is longer than its rows by far is not refused as too large: the program stops,
since there is no address behind its field. -/
theorem ofBytes_stops_at_end :
    (Layout.parse "18446744073709551615 x BYTE\n").value = .ok lastLayout
    ∧ byteOptions.distance lastLayout < countLimit
    ∧ (∀ f ∈ lastLayout.fields, byteOptions.layoutOffset ≤ f.offset)
    ∧ byteOptions.rowLength lastLayout < lastLayout.extent byteOptions.layoutOffset
    ∧ (ofBytes lastLayout [0] byteOptions).value = .error .overflow
    ∧ Stop.kind? .overflow ≠ some .tooLarge := by
  decide +kernel

end Table
end DataBlock
