import DataBlock.Proofs.RowIsolation
import DataBlock.Proofs.TableAccess
import DataBlock.Table.Lookup

/-!
# Transfers are atomic

A row is fetched from a device, or stored on it, with one request, which is told of before it is
sent.  However the device answers, the row either takes the whole reply or stays as it is, and so
does the table around it.

Main results:

- `IsFetch`, `IsStore`: how a row is fetched and stored, whatever the device says.
- `Table.setRow_row`: a row that is put back as it was leaves the table.
- `Table.Refilled`: a table in which a row, and nothing else, has other bytes.
- `Table.isFetch_lend`, `Table.isStore_lend`: transfers of a row in a table are those of the row.
- `transfers_atomic`: rows, alone or in a table, are fetched and stored so from any device.
-/

namespace DataBlock

section

variable {σ δ : Type} [Device δ]

/-- The outcome is that of fetching the row, where `before` is held before, and `filled` with a
reply that the row has taken. -/
structure IsFetch (row : Row) (d : δ) (acts : List Act) (before : σ) (filled : Bytes → σ)
    (outcome : Except Fault Unit × Contact σ δ) : Prop where
  /-- The fetch is told of, and then one request is sent. -/
  acts : outcome.2.acts = acts ++ [.told (.rowRead row.address row.bytes.length),
    .sent (.read row.address row.bytes.length)]
  device : outcome.2.device = (Device.read d row.address row.bytes.length).2
  refused : ∀ text, (Device.read d row.address row.bytes.length).1 = .error text →
    outcome.1 = .error (.device text) ∧ outcome.2.held = before
  misfit : ∀ reply, (Device.read d row.address row.bytes.length).1 = .ok reply →
    reply.length ≠ row.bytes.length →
    outcome.1 = .error (.bufferTooSmall row.address.start row.bytes.length reply.length)
      ∧ outcome.2.held = before
  taken : ∀ reply, (Device.read d row.address row.bytes.length).1 = .ok reply →
    reply.length = row.bytes.length → outcome.1 = .ok () ∧ outcome.2.held = filled reply

/-- The outcome is that of storing the row, where `before` is held. -/
structure IsStore (row : Row) (d : δ) (acts : List Act) (before : σ)
    (outcome : Except Fault Unit × Contact σ δ) : Prop where
  /-- The store is told of, and then one request is sent. -/
  acts : outcome.2.acts = acts ++ [.told (.rowWrite row.address row.bytes.length),
    .sent (.write row.address row.bytes)]
  device : outcome.2.device = (Device.write d row.address row.bytes).2
  held : outcome.2.held = before
  refused : ∀ text, (Device.write d row.address row.bytes).1 = .error text →
    outcome.1 = .error (.device text)
  accepted : (Device.write d row.address row.bytes).1 = .ok () → outcome.1 = .ok ()

variable {τ : Type} {row : Row} {d : δ} {acts : List Act} {before : σ} {filled : Bytes → σ}
  {outcome : Except Fault Unit × Contact σ δ}

/-- What is fetched may be put into something larger that is held. -/
theorem IsFetch.map (h : IsFetch row d acts before filled outcome) (f : σ → τ) :
    IsFetch row d acts (f before) (fun reply => f (filled reply))
      (outcome.1, { outcome.2 with held := f outcome.2.held }) where
  acts := h.acts
  device := h.device
  refused text htext := ⟨(h.refused text htext).1, congrArg f (h.refused text htext).2⟩
  misfit reply hreply hlength :=
    ⟨(h.misfit reply hreply hlength).1, congrArg f (h.misfit reply hreply hlength).2⟩
  taken reply hreply hlength :=
    ⟨(h.taken reply hreply hlength).1, congrArg f (h.taken reply hreply hlength).2⟩

/-- What is stored may be a part of something larger that is held. -/
theorem IsStore.map (h : IsStore row d acts before outcome) (f : σ → τ) :
    IsStore row d acts (f before) (outcome.1, { outcome.2 with held := f outcome.2.held }) where
  acts := h.acts
  device := h.device
  held := congrArg f h.held
  refused := h.refused
  accepted := h.accepted

/-! ## Rows on their own -/

namespace Row

/-- A row is fetched with its bytes replaced by the whole reply, or by nothing. -/
theorem isFetch_refresh (r : Row) (d : δ) (acts : List Act) :
    IsFetch r d acts r (fun reply => { r with bytes := reply })
      (refresh.outcome ⟨r, d, acts⟩) := by
  rw [outcome_refresh]
  exact {
    acts := rfl
    device := rfl
    refused := by
      intro text htext
      simp only [outcome_receive, htext, and_self]
    misfit := by
      intro reply hreply hlength
      simp only [outcome_receive, hreply, if_neg hlength, and_self]
    taken := by
      intro reply hreply hlength
      simp only [outcome_receive, hreply, if_pos hlength, and_self] }

/-- A row is stored as it is. -/
theorem isStore_persist (r : Row) (d : δ) (acts : List Act) :
    IsStore r d acts r (persist.outcome ⟨r, d, acts⟩) := by
  rw [outcome_persist]
  exact {
    acts := rfl
    device := rfl
    held := rfl
    refused := by
      intro text htext
      simp only [htext, Outcome.mapError_error]
    accepted := by
      intro haccepted
      simp only [haccepted, Outcome.mapError_ok] }

end Row

/-! ## Rows in a table -/

namespace Table

variable {t : Table} {i : Nat} {choice : RowChoice}

/-- A row that is put back as it was leaves the table. -/
theorem setRow_row (hi : i < t.size) : t.setRow i (t.row i).bytes = t := by
  have hbytes := bytes_setRow_row hi
  cases t
  simp only [setRow] at hbytes ⊢
  simp only [hbytes]

/-- The table with other bytes in a row, and no other change. -/
structure Refilled (t : Table) (i : Nat) (reply : Bytes) (after : Table) : Prop where
  layout : after.layout = t.layout
  options : after.options = t.options
  row : after.row i = { t.row i with bytes := reply }
  outside : ∀ k, ¬ t.InRow i k → after.bytes[k]? = t.bytes[k]?

/-- As many bytes as a row has are put into the row and nowhere else. -/
theorem refilled_setRow (hi : i < t.size) {reply : Bytes}
    (hlength : reply.length = (t.row i).bytes.length) : t.Refilled i reply (t.setRow i reply) where
  layout := rfl
  options := rfl
  row := congrArg (t.bound i) (row_setRow t hi (hlength.trans (length_row hi)))
  outside _ hk := getElem?_setRow reply hk

/-- A row of a table is fetched as the row alone, with the reply in the block. -/
theorem isFetch_lend (h : t.chosen choice = .ok (i, row)) (d : δ) (acts : List Act) :
    IsFetch row d acts t (t.setRow i) ((lend choice Row.refresh).outcome ⟨t, d, acts⟩) := by
  rcases chosen_eq_ok h with ⟨hi, hrow⟩
  have hback : t.setRow i row.bytes = t := by rw [← hrow, setRow_row hi]
  have hmap := (row.isFetch_refresh d acts).map fun r => t.setRow i r.bytes
  rw [hback] at hmap
  rw [outcome_lend, h]
  exact hmap

/-- A row of a table is stored as the row alone. -/
theorem isStore_lend (h : t.chosen choice = .ok (i, row)) (d : δ) (acts : List Act) :
    IsStore row d acts t ((lend choice Row.persist).outcome ⟨t, d, acts⟩) := by
  rcases chosen_eq_ok h with ⟨hi, hrow⟩
  have hback : t.setRow i row.bytes = t := by rw [← hrow, setRow_row hi]
  have hmap := (row.isStore_persist d acts).map fun r => t.setRow i r.bytes
  rw [hback] at hmap
  rw [outcome_lend, h]
  exact hmap

end Table

/-- From any device, however it answers, a row is fetched with one request, told of before, and
with the whole reply or not at all, and a row is stored with one request, told of before, and
stays as it is.  A row of a table, however it is reached, is fetched and stored as the row on its
own; the whole table stays if the row does, and else no byte beside those of the row changes. -/
theorem transfers_atomic (d : δ) (acts : List Act) :
    (∀ r : Row,
      IsFetch r d acts r (fun reply => { r with bytes := reply }) (Row.refresh.outcome ⟨r, d, acts⟩)
      ∧ IsStore r d acts r (Row.persist.outcome ⟨r, d, acts⟩))
    ∧ ∀ (t : Table) (choice : RowChoice) (i : Nat) (row : Row),
      t.chosen choice = .ok (i, row) →
        IsFetch row d acts t (t.setRow i) ((Table.lend choice Row.refresh).outcome ⟨t, d, acts⟩)
        ∧ IsStore row d acts t ((Table.lend choice Row.persist).outcome ⟨t, d, acts⟩)
        ∧ ∀ reply, reply.length = row.bytes.length → t.Refilled i reply (t.setRow i reply) := by
  refine ⟨fun r => ⟨r.isFetch_refresh d acts, r.isStore_persist d acts⟩, ?_⟩
  intro t choice i row h
  refine ⟨Table.isFetch_lend h d acts, Table.isStore_lend h d acts, ?_⟩
  intro reply hlength
  rcases Table.chosen_eq_ok h with ⟨hi, rfl⟩
  exact Table.refilled_setRow hi hlength

end

/-- A device that answers every read with the same reply, and takes no bytes. -/
structure ReadOnly where
  reply : Bytes

instance : Device ReadOnly where
  read d _ _ := (.ok d.reply, d)
  write d _ _ := (.error "locked", d)

/-- The second row of a table is asked for.  A reply that is too short leaves the table, one of
the right length goes into the row, and a store that is refused leaves the table. -/
theorem transfers_atomic_of_readOnly :
    let t := Session.countingSession.table
    let second : RowChoice := .reached .order 1
    let place : Address := ⟨.dataBlock, 1, 6⟩
    t.chosen second = .ok (1, t.row 1)
    ∧ ((Table.lend second Row.refresh).outcome ⟨t, ReadOnly.mk [7, 7], []⟩).1
      = .error (.bufferTooSmall 6 3 2)
    ∧ ((Table.lend second Row.refresh).outcome ⟨t, ReadOnly.mk [7, 7], []⟩).2.held = t
    ∧ ((Table.lend second Row.refresh).outcome ⟨t, ReadOnly.mk [7, 7], []⟩).2.acts
      = [.told (.rowRead place 3), .sent (.read place 3)]
    ∧ ((Table.lend second Row.refresh).outcome ⟨t, ReadOnly.mk [7, 7, 7], []⟩).2.held.bytes
      = [9, 1, 0, 5, 9, 9, 7, 7, 7, 9, 9]
    ∧ ((Table.lend second Row.persist).outcome ⟨t, ReadOnly.mk [], []⟩).1
      = .error (.device "locked")
    ∧ ((Table.lend second Row.persist).outcome ⟨t, ReadOnly.mk [], []⟩).2.acts
      = [.told (.rowWrite place 3), .sent (.write place [2, 0, 7])] := by
  intro t second place
  have hchosen : t.chosen second = .ok (1, t.row 1) := by decide +kernel
  have hshort := ((transfers_atomic (ReadOnly.mk [7, 7]) []).2 t second 1 _ hchosen).1
  have hfull := ((transfers_atomic (ReadOnly.mk [7, 7, 7]) []).2 t second 1 _ hchosen).1
  have hstore := ((transfers_atomic (ReadOnly.mk []) []).2 t second 1 _ hchosen).2.1
  have hmisfit := hshort.misfit [7, 7] rfl (by decide)
  have hheld := (hfull.taken [7, 7, 7] rfl (by decide)).2
  refine ⟨hchosen, hmisfit.1, hmisfit.2, hshort.acts, ?_, hstore.refused "locked" rfl, hstore.acts⟩
  rw [hheld]
  decide +kernel

end DataBlock
