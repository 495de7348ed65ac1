import DataBlock.Fault

/-!
# Changes that may fail

A change of a state in steps, each of which may fail.  What the steps before a fault
have changed stays changed, so that it has to be shown where a fault changes nothing.

Main results:

- `Change.run_check`: a check leaves the state as it is.
- `Change.result_eq_ok_iff`: a change has a result exactly if it runs to its end.
- `Change.left_of_result`: the result of a change is what it leaves.
-/

namespace DataBlock

/-- A change of a state that may fail on the way. -/
abbrev Change (σ α : Type) : Type :=
  EStateM Fault σ α

namespace Change

variable {σ α : Type}

/-- A step that looks at something which may be at fault, and changes nothing. -/
def check (e : Except Fault α) : Change σ α := fun s =>
  match e with
  | .ok a => .ok a s
  | .error fault => .error fault s

@[simp] theorem run_check (e : Except Fault α) (s : σ) :
    (check e : Change σ α).run s =
      match e with
      | .ok a => .ok a s
      | .error fault => .error fault s :=
  rfl

/-- The answer of a change, or the fault at which it ended, and the state that it leaves. -/
def outcome (c : Change σ α) (s : σ) : Except Fault α × σ :=
  match c.run s with
  | .ok a after => (.ok a, after)
  | .error fault after => (.error fault, after)

/-- The state after a change, or the fault at which it ended. -/
def result (c : Change σ Unit) (s : σ) : Except Fault σ :=
  match c.run s with
  | .ok () after => .ok after
  | .error fault _ => .error fault

/-- The state that a change leaves, be it at its end or at a fault. -/
def left (c : Change σ Unit) (s : σ) : σ :=
  match c.run s with
  | .ok () after => after
  | .error _ after => after

/-- A change has a result exactly if it runs to its end. -/
theorem result_eq_ok_iff {c : Change σ Unit} {s after : σ} :
    c.result s = .ok after ↔ c.run s = .ok () after := by
  unfold result
  cases c.run s <;> simp

/-- A change fails exactly if it ends at a fault. -/
theorem result_eq_error_iff {c : Change σ Unit} {s : σ} {fault : Fault} :
    c.result s = .error fault ↔ ∃ after, c.run s = .error fault after := by
  unfold result
  cases c.run s <;> simp

/-- The result of a change is what it leaves. -/
theorem left_of_result {c : Change σ Unit} {s after : σ} (h : c.result s = .ok after) :
    c.left s = after := by
  rw [left, result_eq_ok_iff.1 h]

/-- What there is at a fault is what a change leaves. -/
theorem left_of_fault {c : Change σ Unit} {s after : σ} {fault : Fault}
    (h : c.run s = .error fault after) : c.left s = after := by
  rw [left, h]

end Change
end DataBlock
