import DataBlock.Table.Edit

/-!
# Rows reached by their id

The first row with an id is lent for a change as the row with an index is.  A revision of a
table is an edit of a row that is chosen either way, and work with a device on a row of a table
is work on a row that is chosen either way.

Main results:

- `Table.run_onRowById`: a row is looked for before anything is changed.
- `Table.outcome_lend`: work on a row with a device comes to the same end on the row alone.
- `Table.lend_holding`: work without a device is a change of the row that is meant.
- `Table.exists_edited_of_revised`: what revisions leave could be left by edits.
-/

namespace DataBlock

/-- Which row is meant: one that is reached with an index, or the first with an id. -/
inductive RowChoice where
  | reached (way : Table.Way) (index : Nat)
  | withId (id : Value)

/-- How the row that is meant is reached; by its index, when that was found by its id. -/
def RowChoice.way : RowChoice → Table.Way
  | .reached way _ => way
  | .withId _ => .index

/-- An edit of the row that is meant. -/
structure Revision where
  choice : RowChoice
  edit : RowEdit

namespace Table

variable {α : Type}

/-! ## Changes -/

/-- Changes the first row with an id.  What the change leaves of the row is put into the
block, also at a fault. -/
def onRowById (id : Value) (c : Change Row α) : Change Table α := do
  let t ← EStateM.get
  let i ← Change.check (t.indexOf id)
  onRow .index i c

/-- A row is looked for by its id before anything is changed. -/
theorem run_onRowById (id : Value) (c : Change Row α) (t : Table) :
    (onRowById id c).run t =
      match t.indexOf id with
      | .error fault => .error fault t
      | .ok i => (onRow .index i c).run t := by
  have hget : (EStateM.get : Change Table Table).run t = .ok t t := rfl
  simp only [onRowById, EStateM.run_bind, hget, Change.run_check]
  cases t.indexOf id <;> rfl

/-- Changes the row that is meant. -/
def onChosen (choice : RowChoice) (c : Change Row α) : Change Table α :=
  match choice with
  | .reached way i => onRow way i c
  | .withId id => onRowById id c

/-! ## Work with a device -/

/-- The row that is meant, with its index. -/
def chosen (t : Table) : RowChoice → Except Fault (Nat × Row)
  | .reached way i => (t.reach way i).map fun row => (i, row)
  | .withId id => do
      let i ← t.indexOf id
      return (i, ← t.rowAt i)

/-- The row that is meant is a row of the table. -/
theorem chosen_eq_ok {t : Table} {choice : RowChoice} {i : Nat} {row : Row}
    (h : t.chosen choice = .ok (i, row)) : i < t.size ∧ t.row i = row := by
  cases choice with
  | reached way j =>
      rcases Outcome.map_eq_ok_iff.1 h with ⟨row', hrow, hpair⟩
      cases hpair
      rw [reach_eq_rowAt] at hrow
      exact rowAt_eq_ok_iff.1 hrow
  | withId id =>
      rcases Outcome.bind_eq_ok_iff.1 h with ⟨j, _, h⟩
      rcases Outcome.bind_eq_ok_iff.1 h with ⟨row', hrow, hpair⟩
      cases hpair
      exact rowAt_eq_ok_iff.1 hrow

/-- Works with a device on the row that is meant, of the table that is held.  What the work
leaves of the row is put into the block, also at a fault. -/
def lend {δ : Type} (choice : RowChoice) (work : Change (Contact Row δ) α) :
    Change (Contact Table δ) α := fun c =>
  match c.held.chosen choice with
  | .error fault => .error fault c
  | .ok (i, row) =>
      match work.run { c with held := row } with
      | .ok a after => .ok a { after with held := c.held.putBack choice.way i after.held.bytes }
      | .error fault after =>
          .error fault { after with held := c.held.putBack choice.way i after.held.bytes }

theorem run_lend {δ : Type} (choice : RowChoice) (work : Change (Contact Row δ) α)
    (c : Contact Table δ) :
    (lend choice work).run c =
      match c.held.chosen choice with
      | .error fault => .error fault c
      | .ok (i, row) =>
          match work.run { c with held := row } with
          | .ok a after => .ok a { after with held := c.held.setRow i after.held.bytes }
          | .error fault after =>
              .error fault { after with held := c.held.setRow i after.held.bytes } := by
  rw [EStateM.run, lend]
  cases hrow : c.held.chosen choice with
  | error fault => rfl
  | ok pair =>
      simp only [c.held.putBack_eq_setRow choice.way (chosen_eq_ok hrow).1]

/-- Work on a row with a device comes to the same end on the row alone. -/
theorem outcome_lend {δ : Type} (choice : RowChoice) (work : Change (Contact Row δ) α)
    (c : Contact Table δ) :
    (lend choice work).outcome c =
      match c.held.chosen choice with
      | .error fault => (.error fault, c)
      | .ok (i, row) =>
          ((work.outcome { c with held := row }).1,
            { (work.outcome { c with held := row }).2 with
              held := c.held.setRow i (work.outcome { c with held := row }).2.held.bytes }) := by
  rw [Change.outcome, run_lend]
  cases c.held.chosen choice with
  | error fault => rfl
  | ok pair =>
      rcases pair with ⟨i, row⟩
      simp only [Change.outcome]
      cases work.run { c with held := row } <;> rfl

/-- Work without a device is a change of the row that is meant. -/
theorem lend_holding {δ : Type} (choice : RowChoice) (change : Change Row α) :
    (lend choice (Contact.holding change) : Change (Contact Table δ) α)
      = Contact.holding (onChosen choice change) := by
  funext c
  change (lend choice (Contact.holding change)).run c = (Contact.holding _).run c
  rw [run_lend, Contact.run_holding]
  cases choice with
  | reached way i =>
      rw [chosen, onChosen, run_onRow, reach_eq_rowAt]
      cases c.held.rowAt i with
      | error fault => rfl
      | ok row =>
          simp only [Outcome.map_ok, Contact.run_holding]
          cases change.run row <;> rfl
  | withId id =>
      rw [chosen, onChosen, run_onRowById]
      cases c.held.indexOf id with
      | error fault => rfl
      | ok i =>
          simp only [Outcome.ok_bind, run_onRow]
          cases c.held.rowAt i with
          | error fault => rfl
          | ok row =>
              simp only [Outcome.ok_bind, Contact.run_holding, pure, Except.pure]
              cases change.run row <;> rfl

/-! ## Revisions -/

/-- The table after a revision, which may have failed. -/
def revise (t : Table) (r : Revision) : Table :=
  (onChosen r.choice r.edit.change).left t

/-- The table after revisions, the first of which is given first. -/
def revised (t : Table) (rs : List Revision) : Table :=
  rs.foldl revise t

/-- A revision finds no row and changes nothing, or is an edit. -/
theorem revise_cases (t : Table) (r : Revision) :
    t.revise r = t ∨ ∃ e, t.revise r = t.edit e := by
  rcases r with ⟨choice, edit⟩
  cases choice with
  | reached way i => exact .inr ⟨⟨way, i, edit⟩, rfl⟩
  | withId id =>
      rw [revise, onChosen, Change.left, run_onRowById]
      cases t.indexOf id with
      | error fault => exact .inl rfl
      | ok i => exact .inr ⟨⟨.index, i, edit⟩, rfl⟩

/-- What revisions leave could be left by edits. -/
theorem exists_edited_of_revised (t : Table) (rs : List Revision) :
    ∃ es, t.revised rs = t.edited es := by
  induction rs generalizing t with
  | nil => exact ⟨[], rfl⟩
  | cons r rs ih =>
      rcases ih (t.revise r) with ⟨es, hes⟩
      rcases revise_cases t r with hsame | ⟨e, he⟩
      · rw [hsame] at hes
        exact ⟨es, (congrArg (fun u => revised u rs) hsame).trans hes⟩
      · rw [he] at hes
        exact ⟨e :: es, (congrArg (fun u => revised u rs) he).trans hes⟩

/-- Revisions leave the options of a table. -/
theorem options_revised (t : Table) (rs : List Revision) :
    (t.revised rs).options = t.options := by
  rcases exists_edited_of_revised t rs with ⟨es, hes⟩
  rw [hes]
  exact (shape_edited t es).2.1

end Table
end DataBlock
