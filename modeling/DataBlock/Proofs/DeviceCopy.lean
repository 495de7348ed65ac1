import DataBlock.Proofs.RowIsolation
import DataBlock.Table.Exchange

/-!
# The device keeps the last copy of every row

The rows of a table are changed, fetched and stored in any order, with a device that has an
image which reaches to the end of the last row.  No transfer fails; the image has of each row
the bytes with which the row was stored last, and a row that is fetched gets those; nothing
else of the image, of the other images or of the table changes.

Main results:

- `Session.Mapped`: the device has an image with room for all rows.
- `Session.Mapped.image?_exchange`: an exchange changes the image of the table alone, and
  `Session.Mapped.slice_imageAfter` there the row alone that is stored.
- `Session.Mapped.exchange_fetch`: a row that is fetched gets the bytes of the image.
- `Session.lastStored?`: the bytes with which a row was stored last.
- `Session.transfers_lose_no_update`: what the image has after any run of exchanges.
-/

namespace DataBlock

namespace Exchange

/-- The row that is stored by an exchange. -/
def stored? : Exchange → Option Nat
  | store _ i => some i
  | request _ => none

/-- The exchange fetches or stores the row with an index. -/
inductive IsTransfer (i : Nat) : Exchange → Prop where
  | fetch (way : Table.Way) : IsTransfer i (.request ⟨way, i, .fetch⟩)
  | store (way : Table.Way) : IsTransfer i (.store way i)

end Exchange

/-! ## Rows and images -/

/-- A row that lies within an image gets its bytes when it is fetched. -/
theorem RowAction.outcome_fetch {m : Memory} {r : Row} {image : Bytes}
    (htarget : m.target r.address r.bytes.length = .ok image)
    (hlength : (image.slice r.address.start r.bytes.length).length = r.bytes.length) :
    (RowAction.fetch.change m).outcome r
      = (.ok .done, { r with bytes := image.slice r.address.start r.bytes.length }) := by
  have hget : (EStateM.get : Change Row Row).run r = .ok r r := rfl
  have hread : (Device.read m r.address r.bytes.length).1
      = .ok (image.slice r.address.start r.bytes.length) := by
    simp only [Device.read, Memory.read, htarget, Outcome.mapError_ok]
  simp only [Change.outcome, RowAction.change, EStateM.run_bind, hget, hread, Row.run_receive,
    if_pos hlength]
  rfl

/-- Devices with the same images have the same image of each area and block. -/
theorem Memory.image?_eq_of_images {m m' : Memory} (h : m'.images = m.images) (area : Area)
    (block : Nat) : m'.image? area block = m.image? area block := by
  rw [image?, image?, find?, find?, h]

namespace Session

variable {s : Session} {image : Bytes}

/-! ## Tables of the same shape -/

theorem Keeps.rowStart {t t' : Table} (h : Keeps t t') (i : Nat) :
    t'.rowStart i = t.rowStart i := by
  simp only [Table.rowStart, (Table.sizes_eq h.layout h.options).2, h.options]

theorem Keeps.rowSize {t t' : Table} (h : Keeps t t') : t'.rowSize = t.rowSize :=
  (Table.sizes_eq h.layout h.options).1

theorem Keeps.size {t t' : Table} (h : Keeps t t') : t'.size = t.size := by
  simp only [Table.size, h.options]

theorem Keeps.inRow {t t' : Table} (h : Keeps t t') (i k : Nat) :
    t'.InRow i k ↔ t.InRow i k := by
  simp only [Table.InRow, h.rowStart, h.rowSize]

/-- An exchange keeps what a run of requests keeps of the table. -/
theorem keeps_exchange (s : Session) (e : Exchange) : Keeps s.table (s.exchange e).2.table := by
  cases e with
  | request q => exact keeps_step s q
  | store way i =>
      rw [exchange_store]
      cases s.table.rowAt i with
      | error fault => exact .refl s.table
      | ok row => exact .refl s.table

/-! ## The image of a table -/

/-- The device has an image for the table, which reaches to the end of the last row. -/
structure Mapped (s : Session) (image : Bytes) : Prop where
  found : s.device.image? s.table.options.area s.table.options.block = some image
  rowEnd_le : ∀ i < s.table.size, s.table.rowStart i + s.table.rowSize ≤ image.length

/-- The image after an exchange: the bytes of a row that is stored are put over its place. -/
def imageAfter (s : Session) (image : Bytes) : Exchange → Bytes
  | .request _ => image
  | .store _ i =>
      if i < s.table.size then image.overwrite (s.table.rowStart i) (s.table.row i).bytes
      else image

theorem length_imageAfter (s : Session) (image : Bytes) (e : Exchange) :
    (s.imageAfter image e).length = image.length := by
  cases e with
  | request q => rfl
  | store way i =>
      rw [imageAfter]
      split
      · exact Bytes.length_overwrite _ _ _
      · rfl

/-- The place of a row has the bytes of the row when it is stored, and stays otherwise. -/
theorem Mapped.slice_imageAfter (h : s.Mapped image) (e : Exchange) {i : Nat}
    (hi : i < s.table.size) :
    (s.imageAfter image e).slice (s.table.rowStart i) s.table.rowSize =
      if e.stored? = some i then (s.table.row i).bytes
      else image.slice (s.table.rowStart i) s.table.rowSize := by
  cases e with
  | request q => rfl
  | store way j =>
      rw [imageAfter, Exchange.stored?]
      by_cases hj : j < s.table.size
      · rw [if_pos hj]
        by_cases hsame : j = i
        · subst hsame
          have hfits : s.table.rowStart j + (s.table.row j).bytes.length ≤ image.length := by
            rw [Table.length_row hj]
            exact h.rowEnd_le j hj
          have hread := Bytes.slice_overwrite hfits
          rw [Table.length_row hj] at hread
          rw [if_pos rfl, hread]
        · rw [if_neg (by simpa using hsame)]
          apply Bytes.slice_overwrite_of_disjoint
          rw [Table.length_row hj]
          rcases Nat.lt_or_gt_of_ne hsame with hlt | hgt
          · exact Or.inr (s.table.rowEnd_le_rowStart hlt)
          · exact Or.inl (s.table.rowEnd_le_rowStart hgt)
      · have hne : j ≠ i := fun heq => hj (heq ▸ hi)
        rw [if_neg hj, if_neg (by simpa using hne)]

/-- A byte of the image that belongs to no row stays. -/
theorem getElem?_imageAfter {k : Nat} (hk : ∀ i < s.table.size, ¬ s.table.InRow i k)
    (image : Bytes) (e : Exchange) : (s.imageAfter image e)[k]? = image[k]? := by
  cases e with
  | request q => rfl
  | store way i =>
      rw [imageAfter]
      by_cases hi : i < s.table.size
      · have hlength := Table.length_row hi
        have houtside := hk i hi
        rw [if_pos hi]
        apply Bytes.getElem?_overwrite_of_outside
        unfold Table.InRow at houtside
        omega
      · rw [if_neg hi]

/-! ## One exchange -/

/-- A request for a row lies within the image. -/
theorem Mapped.target (h : s.Mapped image) {i : Nat} (hi : i < s.table.size) :
    s.device.target (s.table.row i).address (s.table.row i).bytes.length = .ok image := by
  have hlength := Table.length_row hi
  have hfits := h.rowEnd_le i hi
  rw [Memory.target, hlength]
  simp only [Table.row, Table.bound, Table.address, h.found]
  exact if_pos hfits

/-- A row that is stored is written to its place in the image. -/
theorem Mapped.exchange_store (h : s.Mapped image) {i : Nat} (hi : i < s.table.size)
    (way : Table.Way) :
    (s.exchange (.store way i)).1 = .ok .done
      ∧ (s.exchange (.store way i)).2.device.images
        = (s.device.insert s.table.options.area s.table.options.block
          (s.imageAfter image (.store way i))).images := by
  have hrow : s.table.rowAt i = .ok (s.table.row i) := Table.rowAt_eq_ok_iff.2 ⟨hi, rfl⟩
  rw [Session.exchange_store, hrow]
  simp only [Memory.write, h.target hi, imageAfter, if_pos hi]
  exact ⟨rfl, rfl⟩

/-- A row that is fetched gets the bytes of its place in the image, and no byte beside the
row changes. -/
theorem Mapped.exchange_fetch (h : s.Mapped image) {i : Nat} (hi : i < s.table.size)
    (way : Table.Way) :
    (s.exchange (.request ⟨way, i, .fetch⟩)).1 = .ok .done
      ∧ ((s.exchange (.request ⟨way, i, .fetch⟩)).2.table.row i).bytes
        = image.slice (s.table.rowStart i) s.table.rowSize
      ∧ ∀ k, ¬ s.table.InRow i k →
        (s.exchange (.request ⟨way, i, .fetch⟩)).2.table.bytes[k]? = s.table.bytes[k]? := by
  have hrow : s.table.rowAt i = .ok (s.table.row i) := Table.rowAt_eq_ok_iff.2 ⟨hi, rfl⟩
  have hlength := Table.length_row hi
  have hfresh : (image.slice (s.table.rowStart i) s.table.rowSize).length = s.table.rowSize :=
    Bytes.length_slice (h.rowEnd_le i hi)
  have houtcome := RowAction.outcome_fetch (h.target hi) (by rw [hlength]; exact hfresh)
  rw [hlength] at houtcome
  rw [exchange, step_eq, hrow]
  simp only [houtcome]
  refine ⟨trivial, Table.row_setRow _ hi hfresh, ?_⟩
  intro k hk
  exact Table.getElem?_setRow _ hk

/-- An exchange keeps every image but that of the table, which becomes the image after the
exchange. -/
theorem Mapped.image?_exchange (h : s.Mapped image) (e : Exchange) :
    (s.exchange e).2.device.image? s.table.options.area s.table.options.block
        = some (s.imageAfter image e)
      ∧ ∀ area block, imageKey area block
          ≠ imageKey s.table.options.area s.table.options.block →
        (s.exchange e).2.device.image? area block = s.device.image? area block := by
  cases e with
  | request q =>
      have himages : (s.exchange (.request q)).2.device.images = s.device.images := by
        rw [exchange, step_eq]
        cases s.table.rowAt q.index with
        | error fault => rfl
        | ok row => exact RowAction.images_device _ _ _
      exact ⟨(Memory.image?_eq_of_images himages _ _).trans h.found,
        fun area block _ => Memory.image?_eq_of_images himages area block⟩
  | store way i =>
      by_cases hi : i < s.table.size
      · have himages := (h.exchange_store hi way).2
        refine ⟨(Memory.image?_eq_of_images himages _ _).trans
          (Memory.image?_insert_self _ _ _ _), ?_⟩
        intro area block hne
        rw [Memory.image?_eq_of_images himages, Memory.image?_insert_ne _ _ hne]
      · have hrow : s.table.rowAt i = .error (.notFound (.row i s.table.size)) := if_neg hi
        rw [Session.exchange_store, hrow, imageAfter, if_neg hi]
        exact ⟨h.found, fun _ _ _ => rfl⟩

/-- A fetch or a store of a row of the table succeeds. -/
theorem Mapped.answer_of_isTransfer (h : s.Mapped image) {e : Exchange} {i : Nat}
    (hi : i < s.table.size) (he : e.IsTransfer i) : (s.exchange e).1 = .ok .done := by
  cases he with
  | fetch way => exact (h.exchange_fetch hi way).1
  | store way => exact (h.exchange_store hi way).1

/-- The device has an image for the table after an exchange, too. -/
theorem Mapped.exchange (h : s.Mapped image) (e : Exchange) :
    (s.exchange e).2.Mapped (s.imageAfter image e) := by
  have hkeeps := keeps_exchange s e
  constructor
  · rw [hkeeps.options]
    exact (h.image?_exchange e).1
  · intro i hi
    rw [hkeeps.size] at hi
    rw [hkeeps.rowStart, hkeeps.rowSize, length_imageAfter]
    exact h.rowEnd_le i hi

/-! ## Runs of exchanges -/

/-- The bytes with which a row was stored last in a run of exchanges. -/
def lastStored? (s : Session) (i : Nat) : List Exchange → Option Bytes
  | [] => none
  | e :: es =>
      (lastStored? (s.exchange e).2 i es).or
        (if e.stored? = some i then some (s.table.row i).bytes else none)

/-- After a run of exchanges, the image of the table has the rows as they were stored last,
and all else is as it was; every transfer of a row succeeded. -/
structure Copies (s : Session) (image : Bytes) (es : List Exchange) (image' : Bytes) :
    Prop where
  keeps : Keeps s.table (s.exchanges es).2.table
  mapped : (s.exchanges es).2.Mapped image'
  answers : ∀ answered ∈ (s.exchanges es).1, ∀ i < s.table.size,
    answered.1.IsTransfer i → answered.2 = .ok .done
  rows : ∀ i < s.table.size, image'.slice (s.table.rowStart i) s.table.rowSize
    = (s.lastStored? i es).getD (image.slice (s.table.rowStart i) s.table.rowSize)
  length : image'.length = image.length
  outside : ∀ k, (∀ i < s.table.size, ¬ s.table.InRow i k) → image'[k]? = image[k]?
  others : ∀ area block, imageKey area block
      ≠ imageKey s.table.options.area s.table.options.block →
    (s.exchanges es).2.device.image? area block = s.device.image? area block

theorem Mapped.copies_nil (h : s.Mapped image) : Copies s image [] image :=
  ⟨.refl s.table, h, fun _ hmem => (List.not_mem_nil hmem).elim, fun _ _ => rfl, rfl,
    fun _ _ => rfl, fun _ _ _ => rfl⟩

/-- An exchange goes before a run: where the run does not store a row, the exchange may have
stored it. -/
theorem Mapped.copies_cons (h : s.Mapped image) {e : Exchange} {es : List Exchange}
    {image' : Bytes} (hrest : Copies (s.exchange e).2 (s.imageAfter image e) es image') :
    Copies s image (e :: es) image' := by
  have hkeeps := keeps_exchange s e
  refine ⟨hkeeps.trans hrest.keeps, hrest.mapped, ?_, ?_, ?_, ?_, ?_⟩
  · intro answered hmem i hi htransfer
    rw [exchanges_cons, List.mem_cons] at hmem
    rcases hmem with rfl | hmem
    · exact h.answer_of_isTransfer hi htransfer
    · exact hrest.answers answered hmem i (by rwa [hkeeps.size]) htransfer
  · intro i hi
    have hrow := hrest.rows i (by rwa [hkeeps.size])
    rw [hkeeps.rowStart, hkeeps.rowSize, h.slice_imageAfter e hi] at hrow
    rw [hrow, lastStored?]
    cases (s.exchange e).2.lastStored? i es with
    | some bytes => rfl
    | none => by_cases hstored : e.stored? = some i <;> simp [hstored]
  · exact hrest.length.trans (length_imageAfter s image e)
  · intro k hk
    rw [hrest.outside k, getElem?_imageAfter hk]
    intro i hi
    rw [hkeeps.inRow]
    exact hk i (by rwa [hkeeps.size] at hi)
  · intro area block hne
    have hothers := hrest.others area block (by rwa [hkeeps.options])
    exact hothers.trans ((h.image?_exchange e).2 area block hne)

theorem Mapped.exists_copies (h : s.Mapped image) (es : List Exchange) :
    ∃ image', Copies s image es image' := by
  -- The image is that after the first exchange in the rest of the run, so both may vary.
  induction es generalizing s image with
  | nil => exact ⟨image, h.copies_nil⟩
  | cons e es ih =>
      rcases ih (h.exchange e) with ⟨image', hrest⟩
      exact ⟨image', h.copies_cons hrest⟩

/-! ## No update is lost -/

/-- After any run of exchanges, every fetch and every store of a row has succeeded.  The
image of the table has at the place of each row the bytes with which the row was stored last,
or the bytes from before the run; a row that is fetched then gets those, and no other byte of
the table changes.  The rest of the image, its length and all other images are as before. -/
theorem transfers_lose_no_update (s : Session) (image : Bytes) (h : s.Mapped image)
    (es : List Exchange) :
    (∀ answered ∈ (s.exchanges es).1, ∀ i < s.table.size,
      answered.1.IsTransfer i → answered.2 = .ok .done)
    ∧ ∃ image',
      (s.exchanges es).2.device.image? s.table.options.area s.table.options.block = some image'
      ∧ (∀ i < s.table.size, image'.slice (s.table.rowStart i) s.table.rowSize
          = (s.lastStored? i es).getD (image.slice (s.table.rowStart i) s.table.rowSize))
      ∧ (∀ i < s.table.size, ∀ way,
        let fetched := ((s.exchanges es).2.exchange (.request ⟨way, i, .fetch⟩)).2.table
        (fetched.row i).bytes
            = (s.lastStored? i es).getD (image.slice (s.table.rowStart i) s.table.rowSize)
          ∧ ∀ k, ¬ s.table.InRow i k →
            fetched.bytes[k]? = (s.exchanges es).2.table.bytes[k]?)
      ∧ image'.length = image.length
      ∧ (∀ k, (∀ i < s.table.size, ¬ s.table.InRow i k) → image'[k]? = image[k]?)
      ∧ ∀ area block, imageKey area block
          ≠ imageKey s.table.options.area s.table.options.block →
        (s.exchanges es).2.device.image? area block = s.device.image? area block := by
  rcases h.exists_copies es with ⟨image', hcopies⟩
  have hkeeps := hcopies.keeps
  have hfound := hcopies.mapped.found
  rw [hkeeps.options] at hfound
  refine ⟨hcopies.answers, image', hfound, hcopies.rows, ?_, hcopies.length, hcopies.outside,
    hcopies.others⟩
  intro i hi way
  have hfetch := hcopies.mapped.exchange_fetch (i := i) (by rwa [hkeeps.size]) way
  rw [hkeeps.rowStart, hkeeps.rowSize, hcopies.rows i hi] at hfetch
  refine ⟨hfetch.2.1, ?_⟩
  intro k hk
  exact hfetch.2.2 k (by rwa [hkeeps.inRow])

/-- Both rows are stored, changed and fetched, and a third one is asked for, which there is
not. -/
def countingExchanges : List Exchange :=
  [.store .index 0, .request ⟨.index, 0, .overwrite 1 [255, 255, 255]⟩,
    .request ⟨.order, 1, .fetch⟩,
    .request ⟨.index, 1, .set "limit" (.integer ⟨.i16, -2, by decide⟩)⟩,
    .store .order 1, .store .index 2, .request ⟨.index, 1, .set "count" (.char 'x')⟩]

/-- The first row is as it was stored, the second as it was fetched and changed before it was
stored; the first row, changed since, is fetched as it was stored. -/
theorem transfers_lose_no_update_of_counting :
    countingSession.Mapped [0, 0, 0, 0, 0, 0, 4, 0, 8]
    ∧ countingSession.lastStored? 0 countingExchanges = some [1, 0, 5]
    ∧ countingSession.lastStored? 1 countingExchanges = some [4, 255, 254]
    ∧ (((countingSession.exchanges countingExchanges).2.table.row 0).bytes = [1, 255, 255])
    ∧ ∃ image', (countingSession.exchanges countingExchanges).2.device.image? .dataBlock 1
        = some image'
      ∧ image'.slice 1 3 = [1, 0, 5] ∧ image'.slice 6 3 = [4, 255, 254]
      ∧ ((((countingSession.exchanges countingExchanges).2.exchange
        (.request ⟨.index, 0, .fetch⟩)).2.table.row 0).bytes = [1, 0, 5])
      ∧ image'.length = 9 := by
  have hmapped : countingSession.Mapped [0, 0, 0, 0, 0, 0, 4, 0, 8] :=
    ⟨by decide +kernel, by decide +kernel⟩
  have hfirst : countingSession.lastStored? 0 countingExchanges = some [1, 0, 5] := by
    decide +kernel
  have hsecond : countingSession.lastStored? 1 countingExchanges = some [4, 255, 254] := by
    decide +kernel
  rcases transfers_lose_no_update countingSession _ hmapped countingExchanges
    with ⟨_, image', hfound, hrows, hfetch, hlength, _⟩
  have hrow := hrows 0 (by decide)
  have hrow' := hrows 1 (by decide)
  have hfetched := (hfetch 0 (by decide) .index).1
  rw [hfirst] at hrow hfetched
  rw [hsecond] at hrow'
  exact ⟨hmapped, hfirst, hsecond, by decide +kernel, image', hfound, hrow, hrow', hfetched,
    hlength⟩

end Session
end DataBlock
