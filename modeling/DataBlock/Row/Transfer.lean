import DataBlock.Device.Contact
import DataBlock.Fault.Outcome
import DataBlock.Row

/-!
# Transfers of rows

A row is fetched from a device or stored on it with a single request, which is told
of before it is sent.  The bytes that are fetched replace those of the row only if there
are exactly as many.

Main results:

- `Row.outcome_refresh`, `Row.outcome_persist`: what is done with the device, and what
  comes of it.
- `Row.length_fetch`: a row keeps its length when it is fetched.
- `Row.fetch_events`: fetching a row is told of once, with its address and length.
-/

namespace DataBlock

/-- The outcome of a request: its result, the device afterwards, and the events. -/
structure Transfer (δ α : Type) where
  result : Except Fault α
  device : δ
  events : List Event

/-- The result changed, device and events kept. -/
def Transfer.map {δ α β : Type} (f : α → β) (t : Transfer δ α) : Transfer δ β :=
  ⟨t.result.map f, t.device, t.events⟩

namespace Row

variable {δ : Type} [Device δ]

/-- Puts the bytes that a device answered with into a row, if there are as many as the
row is long. -/
def receive (answer : Except String Bytes) : Change Row Unit := do
  let fresh ← Change.check (answer.mapError .device)
  let r ← EStateM.get
  if fresh.length = r.bytes.length then EStateM.set { r with bytes := fresh }
  else throw (.bufferTooSmall r.address.start r.bytes.length fresh.length)

/-- The row with the bytes that a device answered with. -/
def accept (r : Row) (answer : Except String Bytes) : Except Fault Row :=
  (receive answer).result r

/-- An answer is looked at, and measured, before a row is changed. -/
theorem run_receive (answer : Except String Bytes) (r : Row) :
    (receive answer).run r =
      match answer with
      | .error text => .error (.device text) r
      | .ok fresh =>
          if fresh.length = r.bytes.length then .ok () { r with bytes := fresh }
          else .error (.bufferTooSmall r.address.start r.bytes.length fresh.length) r := by
  have hget : (EStateM.get : Change Row Row).run r = .ok r r := rfl
  cases answer with
  | error text => simp only [receive, EStateM.run_bind, Change.run_check, Outcome.mapError_error]
  | ok fresh =>
      simp only [receive, EStateM.run_bind, Change.run_check, Outcome.mapError_ok, hget]
      split <;> rfl

/-- A row is changed by an answer with as many bytes, and by no other. -/
theorem outcome_receive (answer : Except String Bytes) (r : Row) :
    (receive answer).outcome r =
      match answer with
      | .error text => (.error (.device text), r)
      | .ok fresh =>
          if fresh.length = r.bytes.length then (.ok (), { r with bytes := fresh })
          else (.error (.bufferTooSmall r.address.start r.bytes.length fresh.length), r) := by
  rw [Change.outcome, run_receive]
  cases answer with
  | error text => rfl
  | ok fresh => by_cases h : fresh.length = r.bytes.length <;> simp only [h, if_true, if_false]

/-- A row takes an answer exactly if it has as many bytes. -/
theorem accept_eq_ok_iff {r r' : Row} {answer : Except String Bytes} :
    r.accept answer = .ok r' ↔
      ∃ fresh, answer = .ok fresh ∧ fresh.length = r.bytes.length
        ∧ { r with bytes := fresh } = r' := by
  rw [accept, Change.result_eq_ok_iff, run_receive]
  cases answer with
  | error text => simp
  | ok fresh => by_cases h : fresh.length = r.bytes.length <;> simp [h]

/-! ## Requests for rows -/

/-- Fetches the bytes of the row that is held. -/
def refresh : Change (Contact Row δ) Unit := do
  let r := (← EStateM.get).held
  Contact.tell (.rowRead r.address r.bytes.length)
  let answer ← Contact.askRead r.address r.bytes.length
  Contact.holding (receive answer)

/-- Stores the bytes of the row that is held. -/
def persist : Change (Contact Row δ) Unit := do
  let r := (← EStateM.get).held
  Contact.tell (.rowWrite r.address r.bytes.length)
  let answer ← Contact.askWrite r.address r.bytes
  Change.check (answer.mapError .device)

/-- A row is fetched with one request, told of before; then it is as it takes the answer. -/
theorem outcome_refresh (r : Row) (d : δ) (acts : List Act) :
    refresh.outcome ⟨r, d, acts⟩
      = (((receive (Device.read d r.address r.bytes.length).1).outcome r).1,
        ⟨((receive (Device.read d r.address r.bytes.length).1).outcome r).2,
          (Device.read d r.address r.bytes.length).2,
          acts ++ [.told (.rowRead r.address r.bytes.length),
            .sent (.read r.address r.bytes.length)]⟩) := by
  have hget : (EStateM.get : Change (Contact Row δ) (Contact Row δ)).run ⟨r, d, acts⟩
      = .ok ⟨r, d, acts⟩ ⟨r, d, acts⟩ := rfl
  simp only [Change.outcome, refresh, EStateM.run_bind, hget, Contact.run_tell,
    Contact.run_askRead, Contact.run_holding, List.append_assoc, List.cons_append,
    List.nil_append]
  cases (receive (Device.read d r.address r.bytes.length).1).run r <;> rfl

/-- A row is stored with one request, told of before; the row stays. -/
theorem outcome_persist (r : Row) (d : δ) (acts : List Act) :
    persist.outcome ⟨r, d, acts⟩
      = ((Device.write d r.address r.bytes).1.mapError .device,
        ⟨r, (Device.write d r.address r.bytes).2,
          acts ++ [.told (.rowWrite r.address r.bytes.length),
            .sent (.write r.address r.bytes)]⟩) := by
  have hget : (EStateM.get : Change (Contact Row δ) (Contact Row δ)).run ⟨r, d, acts⟩
      = .ok ⟨r, d, acts⟩ ⟨r, d, acts⟩ := rfl
  simp only [Change.outcome, persist, EStateM.run_bind, hget, Contact.run_tell,
    Contact.run_askWrite, Change.run_check, List.append_assoc, List.cons_append,
    List.nil_append]
  cases (Device.write d r.address r.bytes).1 <;> rfl

/-! ## Transfers -/

/-- What comes of work on a row with a device. -/
def transfer {α : Type} (work : Change (Contact Row δ) α) (r : Row) (d : δ) :
    Transfer δ (α × Row) :=
  let (answer, after) := work.outcome ⟨r, d, []⟩
  ⟨answer.map fun a => (a, after.held), after.device, after.acts.filterMap Act.event?⟩

/-- Fetches the bytes of a row from a device. -/
def fetch (r : Row) (d : δ) : Transfer δ Row :=
  (transfer refresh r d).map Prod.snd

/-- Stores the bytes of a row on a device. -/
def store (r : Row) (d : δ) : Transfer δ Unit :=
  (transfer persist r d).map Prod.fst

/-- A row that is fetched is as it takes the answer of the device. -/
theorem fetch_eq (r : Row) (d : δ) :
    r.fetch d = ⟨r.accept (Device.read d r.address r.bytes.length).1,
      (Device.read d r.address r.bytes.length).2, [.rowRead r.address r.bytes.length]⟩ := by
  rw [fetch, transfer, outcome_refresh, accept, Change.result, Change.outcome]
  cases (receive (Device.read d r.address r.bytes.length).1).run r <;> rfl

/-- A row that is stored is written to the device at its address. -/
theorem store_eq (r : Row) (d : δ) :
    r.store d = ⟨(Device.write d r.address r.bytes).1.mapError .device,
      (Device.write d r.address r.bytes).2, [.rowWrite r.address r.bytes.length]⟩ := by
  rw [store, transfer, outcome_persist]
  cases (Device.write d r.address r.bytes).1 <;> rfl

/-- Fetching a row is told of once, with its address and length. -/
theorem fetch_events (r : Row) (d : δ) :
    (r.fetch d).events = [.rowRead r.address r.bytes.length] := by
  rw [fetch_eq]

/-- A row keeps its length when it is fetched. -/
theorem length_fetch {r r' : Row} {d : δ} (h : (r.fetch d).result = .ok r') :
    r'.bytes.length = r.bytes.length := by
  rw [fetch_eq] at h
  rcases accept_eq_ok_iff.1 h with ⟨fresh, _, hlength, rfl⟩
  exact hlength

end Row
end DataBlock
