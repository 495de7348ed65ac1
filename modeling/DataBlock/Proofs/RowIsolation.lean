import DataBlock.Table.Session

/-!
# Rows do not interfere

However requests to the rows of a table are interleaved, each row is left, and answers, as
if it had been asked alone; and no byte outside the rows ever changes.

Main results:

- `Table.rowEnd_le_rowStart`: a row ends before the next one begins.
- `Table.row_setRow_of_ne`: what is put into a row leaves the other rows.
- `Session.AgreeAt`: two sessions in which a row is the same.
- `Session.AgreeAt.step`: the row answers a request in both alike, and stays the same.
- `Session.agreeAt_step_of_ne`: a request to another row leaves the row.
- `Session.rows_isolated`: a row in a run is the row in the run of its own requests.
-/

namespace DataBlock

namespace Table

variable {t : Table} {i j k : Nat}

/-! ## The places of rows -/

/-- A row ends before the next one begins. -/
theorem rowEnd_le_rowStart (t : Table) (h : i < j) :
    t.rowStart i + t.rowSize ≤ t.rowStart j := by
  have hstride := t.rowSize_le_stride
  have hnext : (i + 1) * t.stride ≤ j * t.stride := Nat.mul_le_mul_right _ h
  rw [Nat.add_mul, Nat.one_mul] at hnext
  simp only [rowStart]
  omega

/-- The byte with an index in the block belongs to a row. -/
def InRow (t : Table) (i k : Nat) : Prop :=
  t.rowStart i ≤ k ∧ k < t.rowStart i + t.rowSize

instance (t : Table) (i k : Nat) : Decidable (t.InRow i k) :=
  inferInstanceAs (Decidable (_ ∧ _))

/-- What is put into a row leaves every byte that does not belong to it. -/
theorem getElem?_setRow (bs : Bytes) (h : ¬ t.InRow i k) :
    (t.setRow i bs).bytes[k]? = t.bytes[k]? := by
  have htake : (bs.take t.rowSize).length ≤ t.rowSize := List.length_take_le _ _
  apply Bytes.getElem?_overwrite_of_outside
  unfold InRow at h
  omega

/-- What is put into a row leaves the other rows. -/
theorem row_setRow_of_ne (bs : Bytes) (h : i ≠ j) : (t.setRow j bs).row i = t.row i := by
  have htake : (bs.take t.rowSize).length ≤ t.rowSize := List.length_take_le _ _
  have hapart : t.rowStart i + t.rowSize ≤ t.rowStart j
      ∨ t.rowStart j + (bs.take t.rowSize).length ≤ t.rowStart i := by
    rcases Nat.lt_or_gt_of_ne h with hlt | hgt
    · exact Or.inl (t.rowEnd_le_rowStart hlt)
    · exact Or.inr (Nat.le_trans (Nat.add_le_add_left htake _) (t.rowEnd_le_rowStart hgt))
  exact congrArg (t.bound i) (Bytes.slice_overwrite_of_disjoint hapart)

/-- What is put into a row is put over its bytes. -/
theorem row_setRow_self (t : Table) (i : Nat) (bs : Bytes) :
    (t.setRow i bs).row i = t.bound i ((t.row i).bytes.overwrite 0 (bs.take t.rowSize)) :=
  congrArg (t.bound i) (Bytes.slice_overwrite_of_le (List.length_take_le _ _))

end Table

namespace Session

/-! ## Sessions that agree at a row -/

/-- Two sessions with the same row at an index, in tables of one shape, and with the same
images on their devices. -/
structure AgreeAt (i : Nat) (s s' : Session) : Prop where
  layout : s'.table.layout = s.table.layout
  options : s'.table.options = s.table.options
  row : s'.table.row i = s.table.row i
  images : s'.device.images = s.device.images

theorem AgreeAt.refl (i : Nat) (s : Session) : AgreeAt i s s :=
  ⟨rfl, rfl, rfl, rfl⟩

theorem AgreeAt.rowAt {i : Nat} {s s' : Session} (h : AgreeAt i s s') :
    s'.table.rowAt i = s.table.rowAt i := by
  rw [Table.rowAt, Table.rowAt, Table.size, Table.size, h.options, h.row]

/-- The row answers a request in both sessions alike, and stays the same in both. -/
theorem AgreeAt.step {q : RowRequest} {s s' : Session} (h : AgreeAt q.index s s') :
    (s'.step q).1 = (s.step q).1 ∧ AgreeAt q.index (s.step q).2 (s'.step q).2 := by
  rw [step_eq, step_eq, h.rowAt, RowAction.change_eq_of_images h.images]
  cases hrow : s.table.rowAt q.index with
  | error fault => exact ⟨rfl, h⟩
  | ok row =>
      obtain ⟨hsize, hstride⟩ := Table.sizes_eq h.layout h.options
      refine ⟨rfl, h.layout, h.options, ?_, ?_⟩
      · simp only [Table.row_setRow_self, Table.bound, Table.address, Table.rowStart, hsize,
          hstride, h.layout, h.options, h.row]
      · simp only [RowAction.images_device, h.images]

/-- A request to another row leaves the row. -/
theorem agreeAt_step_of_ne {i : Nat} {q : RowRequest} (s : Session) (h : q.index ≠ i) :
    AgreeAt i s (s.step q).2 := by
  rw [step_eq]
  cases s.table.rowAt q.index with
  | error fault => exact .refl i s
  | ok row => exact ⟨rfl, rfl, Table.row_setRow_of_ne _ h.symm, RowAction.images_device _ _ _⟩

/-- A request to another row of the first session leaves the agreement. -/
theorem AgreeAt.step_left {i : Nat} {q : RowRequest} {s s' : Session} (h : AgreeAt i s s')
    (hne : q.index ≠ i) : AgreeAt i (s.step q).2 s' := by
  have hkept := agreeAt_step_of_ne s hne
  exact ⟨h.layout.trans hkept.layout.symm, h.options.trans hkept.options.symm,
    h.row.trans hkept.row.symm, h.images.trans hkept.images.symm⟩

/-! ## Runs -/

/-- The row goes through a run as through the run of its own requests, and answers the
same. -/
theorem AgreeAt.run {i : Nat} {s s' : Session} (h : AgreeAt i s s') (qs : List RowRequest) :
    (s.run qs).1.filter (fun answered => answered.1.index == i)
        = (s'.run (qs.filter fun q => q.index == i)).1
      ∧ AgreeAt i (s.run qs).2 (s'.run (qs.filter fun q => q.index == i)).2 := by
  induction qs generalizing s s' with
  | nil => exact ⟨rfl, h⟩
  | cons q qs ih =>
      by_cases hq : q.index = i
      · subst hq
        rcases h.step with ⟨hanswer, hnext⟩
        rcases ih hnext with ⟨hanswers, hlast⟩
        simp only [run_cons, List.filter_cons, beq_self_eq_true, if_true, hanswer, hanswers]
        exact ⟨trivial, hlast⟩
      · have hother : (q.index == i) = false := beq_eq_false_iff_ne.2 hq
        simp only [run_cons, List.filter_cons, hother, Bool.false_eq_true, if_false]
        exact ih (h.step_left hq)

/-! ## Bytes outside the rows -/

/-- What a run keeps of a table whatever is asked: its shape, its length, and the bytes
that belong to no row. -/
structure Keeps (t t' : Table) : Prop where
  layout : t'.layout = t.layout
  options : t'.options = t.options
  length : t'.bytes.length = t.bytes.length
  outside : ∀ k, (∀ j < t.size, ¬ t.InRow j k) → t'.bytes[k]? = t.bytes[k]?

theorem Keeps.refl (t : Table) : Keeps t t :=
  ⟨rfl, rfl, rfl, fun _ _ => rfl⟩

theorem Keeps.trans {t t' t'' : Table} (h : Keeps t t') (h' : Keeps t' t'') : Keeps t t'' := by
  refine ⟨h'.layout.trans h.layout, h'.options.trans h.options, h'.length.trans h.length, ?_⟩
  intro k hk
  obtain ⟨hsize, hstride⟩ := Table.sizes_eq h.layout h.options
  have hk' : ∀ j < t'.size, ¬ t'.InRow j k := by
    simpa only [Table.size, Table.InRow, Table.rowStart, hsize, hstride, h.options] using hk
  rw [h'.outside k hk', h.outside k hk]

/-- A request keeps what a run keeps. -/
theorem keeps_step (s : Session) (q : RowRequest) : Keeps s.table (s.step q).2.table := by
  rw [step_eq]
  cases hrow : s.table.rowAt q.index with
  | error fault => exact .refl s.table
  | ok row =>
      refine ⟨rfl, rfl, Bytes.length_overwrite _ _ _, ?_⟩
      intro k hk
      exact Table.getElem?_setRow _ (hk q.index (Table.rowAt_eq_ok_iff.1 hrow).1)

theorem keeps_run (s : Session) (qs : List RowRequest) : Keeps s.table (s.run qs).2.table := by
  induction qs generalizing s with
  | nil => exact .refl s.table
  | cons q qs ih => exact (keeps_step s q).trans (ih (s.step q).2)

/-! ## Isolation -/

/-- After any run of requests each row has the bytes, and has given the answers, of the run
of its own requests alone; the block is as long as before, and its bytes that belong to no
row are the same. -/
theorem rows_isolated (s : Session) (qs : List RowRequest) :
    (∀ i, ((s.run qs).2.table.row i).bytes
          = ((s.run (qs.filter fun q => q.index == i)).2.table.row i).bytes
        ∧ (s.run qs).1.filter (fun answered => answered.1.index == i)
          = (s.run (qs.filter fun q => q.index == i)).1)
      ∧ (s.run qs).2.table.bytes.length = s.table.bytes.length
      ∧ ∀ k, (∀ i < s.table.size, ¬ s.table.InRow i k) →
        (s.run qs).2.table.bytes[k]? = s.table.bytes[k]? := by
  have hkeeps := keeps_run s qs
  refine ⟨?_, hkeeps.length, hkeeps.outside⟩
  intro i
  rcases (AgreeAt.refl i s).run qs with ⟨hanswers, hlast⟩
  exact ⟨congrArg Row.bytes hlast.row.symm, hanswers⟩

/-- Two rows of three bytes each, two bytes apart, behind a first byte, and a device with an
image for the second row alone. -/
def countingSession : Session where
  table := {
    layout := ⟨[⟨"count", 6, none, .integer .byte⟩, ⟨"limit", 7, none, .integer .int⟩],
      by decide⟩
    options := ⟨.dataBlock, 1, none, 2, 2, 6, 1, none⟩
    bytes := [9, 1, 0, 5, 9, 9, 2, 0, 7, 9, 9]
    rowSize := 3
    stride := 5
    fits := TableOptions.fits_of_check rfl }
  device := Memory.empty.insert .dataBlock 1 [0, 0, 0, 0, 0, 0, 4, 0, 8]

/-- Requests to both rows and to a third one, which there is not. -/
def countingRequests : List RowRequest :=
  [⟨.index, 0, .set "count" (.integer ⟨.u8, 8, by decide⟩)⟩, ⟨.order, 1, .fetch⟩,
    ⟨.index, 0, .overwrite 1 [255, 255, 255]⟩, ⟨.index, 2, .fetch⟩,
    ⟨.order, 1, .set "limit" (.char 'x')⟩, ⟨.order, 0, .get "limit"⟩, ⟨.index, 1, .values⟩]

/-- The second row is fetched and answers as if it were alone, and the byte before the rows
stays. -/
theorem rows_isolated_of_counting :
    (∀ i < countingSession.table.size, ¬ countingSession.table.InRow i 0)
    ∧ ((countingSession.run countingRequests).2.table.row 1).bytes = [4, 0, 8]
    ∧ ((countingSession.run countingRequests).2.table.row 1).bytes
      = ((countingSession.run
        (countingRequests.filter fun q => q.index == 1)).2.table.row 1).bytes
    ∧ (countingSession.run countingRequests).1.filter (fun answered => answered.1.index == 1)
      = (countingSession.run (countingRequests.filter fun q => q.index == 1)).1
    ∧ (countingSession.run countingRequests).2.table.bytes[0]?
      = countingSession.table.bytes[0]? := by
  have hfirst : ∀ i < countingSession.table.size, ¬ countingSession.table.InRow i 0 := by
    decide
  rcases rows_isolated countingSession countingRequests with ⟨hrows, _, houtside⟩
  exact ⟨hfirst, by decide +kernel, (hrows 1).1, (hrows 1).2, houtside 0 hfirst⟩

end Session
end DataBlock
