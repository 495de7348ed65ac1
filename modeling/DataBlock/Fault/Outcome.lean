/-!
# Outcomes

How a computation of several steps comes to its result when each of them may fail.

Main results:

- `Outcome.bind_eq_ok_iff`: two steps have a result exactly if the first has one and
  the second has one from there.
- `Outcome.map_eq_ok_iff`: a change of the result needs a result.
- `Outcome.exists_of_mapM_eq_error`: a traversal fails at one of its members.
- `Outcome.faults_bind`: two steps fail only for reasons of one of them.
-/

namespace DataBlock
namespace Outcome

variable {ε ε' α β : Type}

@[simp] theorem ok_bind (a : α) (next : α → Except ε β) : (Except.ok a >>= next) = next a :=
  rfl

@[simp] theorem error_bind (e : ε) (next : α → Except ε β) :
    (Except.error e >>= next) = Except.error e :=
  rfl

theorem bind_eq_ok_iff {x : Except ε α} {next : α → Except ε β} {b : β} :
    (x >>= next) = .ok b ↔ ∃ a, x = .ok a ∧ next a = .ok b := by
  cases x <;> simp

theorem bind_eq_error_iff {x : Except ε α} {next : α → Except ε β} {e : ε} :
    (x >>= next) = .error e ↔ x = .error e ∨ ∃ a, x = .ok a ∧ next a = .error e := by
  cases x <;> simp

@[simp] theorem map_ok (f : α → β) (a : α) : (Except.ok a : Except ε α).map f = .ok (f a) :=
  rfl

theorem map_eq_ok_iff {x : Except ε α} {f : α → β} {b : β} :
    x.map f = .ok b ↔ ∃ a, x = .ok a ∧ f a = b := by
  cases x <;> simp [Except.map]

theorem map_eq_error_iff {x : Except ε α} {f : α → β} {e : ε} :
    x.map f = .error e ↔ x = .error e := by
  cases x <;> simp [Except.map]

theorem mapError_ok (f : ε → ε') (a : α) : (Except.ok a : Except ε α).mapError f = .ok a :=
  rfl

theorem mapError_error (f : ε → ε') (e : ε) :
    (Except.error e : Except ε α).mapError f = .error (f e) :=
  rfl

theorem bind_eq (x : Except ε α) (next : α → Except ε β) : x.bind next = (x >>= next) :=
  rfl

theorem mapError_bind (f : ε → ε') (x : Except ε α) (next : α → Except ε β) :
    (x >>= next).mapError f = x.mapError f >>= fun a => (next a).mapError f := by
  cases x <;> rfl

theorem mapError_map (f : ε → ε') (g : α → β) (x : Except ε α) :
    (x.map g).mapError f = (x.mapError f).map g := by
  cases x <;> rfl

theorem mapError_mapError {ε'' : Type} (f : ε → ε') (g : ε' → ε'') (x : Except ε α) :
    (x.mapError f).mapError g = x.mapError (g ∘ f) := by
  cases x <;> rfl

theorem mapError_eq_ok_iff {x : Except ε α} {f : ε → ε'} {a : α} :
    x.mapError f = .ok a ↔ x = .ok a := by
  cases x with
  | ok b => rw [mapError_ok, Except.ok.injEq, Except.ok.injEq]
  | error e => simp [mapError_error]

theorem mapError_eq_error_iff {x : Except ε α} {f : ε → ε'} {e' : ε'} :
    x.mapError f = .error e' ↔ ∃ e, x = .error e ∧ f e = e' := by
  cases x with
  | ok a => simp [mapError_ok]
  | error e => simp [mapError_error]

/-- Where a traversal fails, one of its members does. -/
theorem exists_of_mapM_eq_error {f : α → Except ε β} {xs : List α} {e : ε}
    (h : xs.mapM f = .error e) : ∃ x ∈ xs, f x = .error e := by
  induction xs with
  | nil => cases h
  | cons x xs ih =>
      rw [List.mapM_cons] at h
      cases hx : f x with
      | error fault =>
          rw [hx, error_bind] at h
          cases h
          exact ⟨x, List.mem_cons_self, hx⟩
      | ok b =>
          rw [hx, ok_bind] at h
          cases hrest : xs.mapM f with
          | error fault =>
              rw [hrest, error_bind] at h
              cases h
              rcases ih hrest with ⟨y, hy, hfault⟩
              exact ⟨y, List.mem_cons_of_mem x hy, hfault⟩
          | ok bs =>
              rw [hrest, ok_bind] at h
              cases h

/-- The members of the result of a traversal are the results of its members. -/
theorem exists_of_mapM_eq_ok {f : α → Except ε β} {xs : List α} {ys : List β}
    (h : xs.mapM f = .ok ys) : ∀ y ∈ ys, ∃ x ∈ xs, f x = .ok y := by
  induction xs generalizing ys with
  | nil =>
      cases h
      intro y hy
      cases hy
  | cons x xs ih =>
      rw [List.mapM_cons] at h
      rcases bind_eq_ok_iff.1 h with ⟨b, hb, h⟩
      rcases bind_eq_ok_iff.1 h with ⟨bs, hbs, hpure⟩
      cases hpure
      intro y hy
      rcases List.mem_cons.1 hy with rfl | hy
      · exact ⟨x, List.mem_cons_self, hb⟩
      · rcases ih hbs y hy with ⟨x', hx', hfx'⟩
        exact ⟨x', List.mem_cons_of_mem x hx', hfx'⟩

/-! ## Reasons to fail -/

/-- Every fault at which a computation can end has a property. -/
def Faults (P : ε → Prop) (x : Except ε α) : Prop :=
  ∀ e, x = .error e → P e

variable {P : ε → Prop}

theorem faults_ok (a : α) : Faults P (.ok a : Except ε α) := by
  intro e h
  cases h

theorem faults_error {e : ε} (h : P e) : Faults P (.error e : Except ε α) := by
  intro e' he
  cases he
  exact h

theorem Faults.mono {Q : ε → Prop} {x : Except ε α} (hx : Faults P x) (h : ∀ {e}, P e → Q e) :
    Faults Q x :=
  fun e he => h (hx e he)

/-- Two steps fail only for reasons of one of them. -/
theorem faults_bind {x : Except ε α} {next : α → Except ε β} (hx : Faults P x)
    (hnext : ∀ a, x = .ok a → Faults P (next a)) : Faults P (x >>= next) := by
  cases x with
  | error e => exact faults_error (hx e rfl)
  | ok a => exact hnext a rfl

theorem faults_map {x : Except ε α} (hx : Faults P x) (f : α → β) : Faults P (x.map f) := by
  cases x with
  | error e => exact faults_error (hx e rfl)
  | ok a => exact faults_ok (f a)

theorem faults_mapM {f : α → Except ε β} {xs : List α} (hf : ∀ x ∈ xs, Faults P (f x)) :
    Faults P (xs.mapM f) := by
  intro e h
  rcases exists_of_mapM_eq_error h with ⟨x, hx, hfault⟩
  exact hf x hx e hfault

/-! ## Checks -/

theorem check_bind_eq_ok_iff {x : Except ε Unit} {y : Except ε β} {b : β} :
    (x >>= fun _ => y) = .ok b ↔ x = .ok () ∧ y = .ok b := by
  cases x <;> simp

theorem check_map_eq_ok_iff {x : Except ε Unit} {a b : α} :
    (x.map fun _ => a) = .ok b ↔ x = .ok () ∧ a = b := by
  cases x <;> simp [Except.map]

end Outcome
end DataBlock
