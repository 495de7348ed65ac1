import DataBlock.Table.Session

/-!
# Exchanges

Steps of a session in which rows are also stored on the device: a request to a row, which may
fetch it, or the transfer of the row's bytes to the device.

Main result:

- `Session.exchange_store`: a row that is stored is written to the device at its address.
-/

namespace DataBlock

/-- A request to a row, or the transfer of a row to the device. -/
inductive Exchange where
  | request (q : RowRequest)
  | store (way : Table.Way) (index : Nat)
  deriving DecidableEq

namespace Session

/-- Makes an exchange. -/
def exchange (s : Session) : Exchange → Except Fault RowAnswer × Session
  | .request q => s.step q
  | .store way i =>
      match s.table.reach way i with
      | .error fault => (.error fault, s)
      | .ok row =>
          let transfer := row.store s.device
          (transfer.result.map fun _ => .done, ⟨s.table, transfer.device⟩)

/-- The exchanges with their answers, and the session after them. -/
def exchanges (s : Session) : List Exchange → List (Exchange × Except Fault RowAnswer) × Session
  | [] => ([], s)
  | e :: es =>
      let (answer, next) := s.exchange e
      let (answers, last) := next.exchanges es
      ((e, answer) :: answers, last)

theorem exchanges_cons (s : Session) (e : Exchange) (es : List Exchange) :
    s.exchanges (e :: es)
      = ((e, (s.exchange e).1) :: ((s.exchange e).2.exchanges es).1,
        ((s.exchange e).2.exchanges es).2) :=
  rfl

/-- A row that is stored is written to the device at its address. -/
theorem exchange_store (s : Session) (way : Table.Way) (i : Nat) :
    s.exchange (.store way i) =
      match s.table.rowAt i with
      | .error fault => (.error fault, s)
      | .ok row =>
          (((s.device.write row.address row.bytes).1.mapError MemoryFault.message).mapError
              Fault.device |>.map fun _ => .done,
            ⟨s.table, (s.device.write row.address row.bytes).2⟩) := by
  rw [exchange, Table.reach_eq_rowAt]
  cases s.table.rowAt i with
  | error fault => rfl
  | ok row =>
      simp only [Row.store_eq]
      rfl

end Session
end DataBlock
