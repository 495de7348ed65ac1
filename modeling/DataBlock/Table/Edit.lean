import DataBlock.Table

/-!
# Edits of tables

Changes of the rows of a table, one after the other: a field is set, some bytes are replaced,
or a device has answered a request for the row, whatever it answers.

Main result:

- `Table.shape_edited`: edits leave the layout, the options and the length of a table.
-/

namespace DataBlock

/-- A change of a row. -/
inductive RowEdit where
  | set (name : String) (v : Value)
  | overwrite (start : Nat) (bs : Bytes)
  | receive (answer : Except String Bytes)

/-- The change that an edit makes. -/
def RowEdit.change : RowEdit → Change Row Unit
  | set name v => Row.assign name v
  | overwrite start bs => modify fun r => r.overwrite start bs
  | receive answer => Row.receive answer

/-- A change of the row with an index, and how the row is reached. -/
structure TableEdit where
  way : Table.Way
  index : Nat
  edit : RowEdit

namespace Table

/-- The table after an edit, which may have failed. -/
def edit (t : Table) (e : TableEdit) : Table :=
  (onRow e.way e.index e.edit.change).left t

/-- The table after edits, the first of which is given first. -/
def edited (t : Table) (es : List TableEdit) : Table :=
  es.foldl edit t

/-- An edit leaves the layout, the options and the length of a table. -/
theorem shape_edit (t : Table) (e : TableEdit) :
    (t.edit e).layout = t.layout ∧ (t.edit e).options = t.options
      ∧ (t.edit e).bytes.length = t.bytes.length := by
  rw [edit, Change.left, run_onRow]
  cases t.rowAt e.index with
  | error fault => exact ⟨rfl, rfl, rfl⟩
  | ok row =>
      simp only
      cases e.edit.change.run row with
      | ok u after => exact ⟨rfl, rfl, Bytes.length_overwrite _ _ _⟩
      | error fault after => exact ⟨rfl, rfl, Bytes.length_overwrite _ _ _⟩

/-- Edits leave the layout, the options and the length of a table. -/
theorem shape_edited (t : Table) (es : List TableEdit) :
    (t.edited es).layout = t.layout ∧ (t.edited es).options = t.options
      ∧ (t.edited es).bytes.length = t.bytes.length := by
  induction es generalizing t with
  | nil => exact ⟨rfl, rfl, rfl⟩
  | cons e es ih =>
      rcases shape_edit t e with ⟨hlayout, hoptions, hlength⟩
      rcases ih (t.edit e) with ⟨hlayout', hoptions', hlength'⟩
      exact ⟨hlayout'.trans hlayout, hoptions'.trans hoptions, hlength'.trans hlength⟩

end Table
end DataBlock
