import DataBlock.Codec
import DataBlock.Device
import DataBlock.Layout.Listing

/-!
# Rows

A layout bound to some bytes.  The addresses of the layout count from an offset,
which is that of the first byte of the row.

Main results:

- `Row.get_name`: a field of the layout is found under its name.
- `Row.set_eq_ok_iff`: a field is set exactly if it is found, placed and written.
- `Row.length_set`: writing a field never changes how many bytes a row has.
-/

namespace DataBlock

/-- Bytes with the layout of their fields. -/
structure Row where
  layout : Layout
  /-- The layout address of the first byte. -/
  layoutOffset : Nat
  /-- Where the bytes lie on a device. -/
  address : Address
  bytes : Bytes
  deriving DecidableEq

namespace Row

/-! ## Fields -/

/-- The place of a field within the row. -/
def place (r : Row) (f : Field) : Except Fault Nat :=
  if r.layoutOffset ≤ f.offset then .ok (f.offset - r.layoutOffset)
  else .error (.invalid (.beforeLayout f.name f.offset r.layoutOffset))

/-- The value of a field. -/
def read (r : Row) (f : Field) : Except Fault Value := do
  f.type.decode r.bytes (← r.place f) f.bit

/-- The value of the field with a name. -/
def get (r : Row) (name : String) : Except Fault Value := do
  r.read (← r.layout.field name)

/-- Changes the bytes of a row. -/
def onBytes (c : Change Bytes Unit) : Change Row Unit := fun r =>
  match c.run r.bytes with
  | .ok u bytes => .ok u { r with bytes := bytes }
  | .error fault bytes => .error fault { r with bytes := bytes }

/-- Sets the field with a name to a value. -/
def assign (name : String) (v : Value) : Change Row Unit := do
  let r ← EStateM.get
  let f ← Change.check (r.layout.field name)
  let offset ← Change.check (r.place f)
  onBytes (f.type.write offset f.bit v)

/-- The row with the field of a name set to a value. -/
def set (r : Row) (name : String) (v : Value) : Except Fault Row :=
  (assign name v).result r

/-- The row with some of its bytes replaced. -/
def overwrite (r : Row) (start : Nat) (bs : Bytes) : Row :=
  { r with bytes := r.bytes.overwrite start bs }

/-- The names of all fields with their values. -/
def values (r : Row) : Except Fault (List (String × Value)) :=
  r.layout.fields.mapM fun f => (r.get f.name).map fun v => (f.name, v)

/-- A field of the layout is found under its name. -/
theorem get_name {r : Row} {f : Field} (h : f ∈ r.layout.fields) :
    r.get f.name = r.read f := by
  have hfind : r.layout.find? f.name = some f := Layout.find?_eq_some_iff.2 ⟨h, rfl⟩
  simp [get, Layout.field, hfind, bind, Except.bind]

/-- A field has a place in the row if it does not lie before the first byte. -/
theorem place_eq_ok_iff {r : Row} {f : Field} {offset : Nat} :
    r.place f = .ok offset ↔ r.layoutOffset + offset = f.offset := by
  unfold place
  split
  · rw [Except.ok.injEq]
    omega
  · simp only [reduceCtorEq, false_iff]
    omega

/-- A set looks for the field and its place before it changes the bytes. -/
theorem run_assign (r : Row) (name : String) (v : Value) :
    (assign name v).run r =
      match r.layout.field name with
      | .error fault => .error fault r
      | .ok f =>
          match r.place f with
          | .error fault => .error fault r
          | .ok offset => (onBytes (f.type.write offset f.bit v)).run r := by
  have hget : (EStateM.get : Change Row Row).run r = .ok r r := rfl
  simp only [assign, EStateM.run_bind, hget, Change.run_check]
  cases r.layout.field name with
  | error fault => rfl
  | ok f =>
      simp only
      cases r.place f <;> rfl

theorem run_onBytes (c : Change Bytes Unit) (r : Row) :
    (onBytes c).run r =
      match c.run r.bytes with
      | .ok u bytes => .ok u { r with bytes := bytes }
      | .error fault bytes => .error fault { r with bytes := bytes } :=
  rfl

/-- A change of the bytes runs to its end in the row exactly if it does on the bytes. -/
theorem run_onBytes_eq_ok_iff {c : Change Bytes Unit} {r r' : Row} :
    (onBytes c).run r = .ok () r' ↔
      ∃ bytes, c.result r.bytes = .ok bytes ∧ { r with bytes := bytes } = r' := by
  rw [run_onBytes, Change.result]
  cases c.run r.bytes <;> simp

/-- A field is set exactly if it is found, has a place in the row and can be written
there. -/
theorem set_eq_ok_iff {r r' : Row} {name : String} {v : Value} :
    r.set name v = .ok r' ↔ ∃ f offset bytes, r.layout.field name = .ok f
      ∧ r.place f = .ok offset ∧ f.type.encode r.bytes offset f.bit v = .ok bytes
      ∧ { r with bytes := bytes } = r' := by
  rw [set, Change.result_eq_ok_iff, run_assign]
  cases r.layout.field name with
  | error fault => simp
  | ok f =>
      cases hplace : r.place f with
      | error fault => simp [hplace]
      | ok offset => simp [run_onBytes_eq_ok_iff, FieldType.encode, hplace]

/-- Writing a field never changes how many bytes a row has. -/
theorem length_set {r r' : Row} {name : String} {v : Value} (h : r.set name v = .ok r') :
    r'.bytes.length = r.bytes.length := by
  rcases set_eq_ok_iff.1 h with ⟨f, offset, bytes, _, _, hencode, rfl⟩
  exact FieldType.length_encode hencode

/-! ## Text -/

/-- The text of the value of a field; in angle brackets the fault, if there is one. -/
def shown (r : Row) (name : String) : String :=
  match r.get name with
  | .ok v => v.text
  | .error fault => "<" ++ fault.message ++ ">"

/-- A line with name and value for each field. -/
def text (r : Row) : String :=
  String.join (r.layout.fields.map fun f => f.name ++ " = " ++ r.shown f.name ++ "\n")

/-- The line of a field: two spaces for each level of indentation, its address and its name in
columns, its type, and what is shown of it. -/
def fieldLine (r : Row) (indent nameWidth : Nat) (f : Field) : String :=
  String.join (List.replicate indent "  ") ++ Column.left 8 f.address
    ++ Column.left nameWidth f.name ++ "  " ++ f.type.text ++ " = " ++ r.shown f.name

/-- The lines of the fields, in order. -/
def lines (r : Row) (indent : Nat) : List String :=
  let nameWidth := (r.layout.fields.map fun f => f.name.utf8ByteSize).foldl max 0
  r.layout.fields.map (r.fieldLine indent nameWidth)

/-- The lines with the values in one text. -/
def listing (r : Row) (indent : Nat) : String :=
  "\n".intercalate (r.lines indent)

theorem length_lines (r : Row) (indent : Nat) :
    (r.lines indent).length = r.layout.fields.length :=
  List.length_map _

end Row

/-- The name of an area with one capital letter. -/
def Area.title : Area → String
  | inputs => "Pe"
  | outputs => "Pa"
  | markers => "Mk"
  | dataBlock => "Db"
  | counters => "Ct"
  | timers => "Tm"

/-- A summary of where a row lies and how long it is. -/
def Row.summary (r : Row) : String :=
  "Row \x7b address: RowAddress \x7b area: " ++ r.address.area.title ++ ", db_number: "
    ++ toString r.address.block ++ ", start: " ++ toString r.address.start
    ++ " \x7d, layout_offset: " ++ toString r.layoutOffset ++ ", len: "
    ++ toString r.bytes.length ++ ", .. \x7d"

end DataBlock
