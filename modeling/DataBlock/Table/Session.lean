import DataBlock.Device.Memory
import DataBlock.Table

/-!
# Sessions

Requests to the rows of a table, one after the other.  A request names a row by its index
and says what is done with the row: a field is set or read, bytes are replaced, all values
are read, or the row is fetched from a device.

Main results:

- `Session.step_eq`: a request acts on its row alone.
- `RowAction.change_eq_of_images`: what an action does depends on the images of the device.
-/

namespace DataBlock

/-! ## Actions -/

/-- What is done with a row. -/
inductive RowAction where
  | set (name : String) (v : Value)
  | overwrite (start : Nat) (bs : Bytes)
  | get (name : String)
  | values
  | fetch
  deriving DecidableEq

/-- What is answered when an action succeeds. -/
inductive RowAnswer where
  | done
  | value (v : Value)
  | values (vs : List (String × Value))
  deriving DecidableEq

namespace RowAction

/-- The change of a row that an action makes, with a device to fetch from. -/
def change (m : Memory) : RowAction → Change Row RowAnswer
  | set name v => do
      Row.assign name v
      return .done
  | overwrite start bs => do
      modify fun r => r.overwrite start bs
      return .done
  | get name => do
      let r ← EStateM.get
      return .value (← Change.check (r.get name))
  | values => do
      let r ← EStateM.get
      return .values (← Change.check r.values)
  | fetch => do
      let r ← EStateM.get
      Row.receive (Device.read m r.address r.bytes.length).1
      return .done

/-- The device after an action on a row. -/
def device (m : Memory) (r : Row) : RowAction → Memory
  | fetch => (Device.read m r.address r.bytes.length).2
  | _ => m

/-- What an action does depends on the images of the device, not on what the device was
asked before. -/
theorem change_eq_of_images {m m' : Memory} (h : m'.images = m.images) (a : RowAction) :
    a.change m' = a.change m := by
  cases a with
  | fetch =>
      have hread : ∀ (place : Address) (len : Nat),
          (Device.read m' place len).1 = (Device.read m place len).1 := by
        intro place len
        exact congrArg (Except.mapError MemoryFault.message)
          (Memory.read_eq_of_images h place len)
      simp only [change, hread]
  | _ => rfl

/-- No action changes an image. -/
theorem images_device (m : Memory) (r : Row) (a : RowAction) :
    (a.device m r).images = m.images := by
  cases a with
  | fetch => exact Memory.images_read m r.address r.bytes.length
  | _ => rfl

end RowAction

/-! ## Requests -/

/-- An action on the row with an index, and how the row is reached. -/
structure RowRequest where
  way : Table.Way
  index : Nat
  action : RowAction
  deriving DecidableEq

/-- A table and the device that its rows are fetched from. -/
structure Session where
  table : Table
  device : Memory
  deriving DecidableEq

namespace Session

/-- Answers a request. -/
def step (s : Session) (q : RowRequest) : Except Fault RowAnswer × Session :=
  let device :=
    match s.table.reach q.way q.index with
    | .ok row => q.action.device s.device row
    | .error _ => s.device
  let (answer, table) := (Table.onRow q.way q.index (q.action.change s.device)).outcome s.table
  (answer, ⟨table, device⟩)

/-- The requests with their answers, and the session after them. -/
def run (s : Session) : List RowRequest → List (RowRequest × Except Fault RowAnswer) × Session
  | [] => ([], s)
  | q :: qs =>
      let (answer, next) := s.step q
      let (answers, last) := next.run qs
      ((q, answer) :: answers, last)

theorem run_cons (s : Session) (q : RowRequest) (qs : List RowRequest) :
    s.run (q :: qs)
      = ((q, (s.step q).1) :: ((s.step q).2.run qs).1, ((s.step q).2.run qs).2) :=
  rfl

/-- A request is refused, or answered by its row, which alone is put back. -/
theorem step_eq (s : Session) (q : RowRequest) :
    s.step q =
      match s.table.rowAt q.index with
      | .error fault => (.error fault, s)
      | .ok row =>
          (((q.action.change s.device).outcome row).1,
            ⟨s.table.setRow q.index ((q.action.change s.device).outcome row).2.bytes,
              q.action.device s.device row⟩) := by
  rw [step, Table.outcome_onRow, Table.reach_eq_rowAt]
  cases s.table.rowAt q.index <;> rfl

end Session
end DataBlock
