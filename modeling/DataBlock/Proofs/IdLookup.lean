import DataBlock.Proofs.DuplicateIds
import DataBlock.Proofs.RowIsolation
import DataBlock.Proofs.RowStore
import DataBlock.Proofs.TableAccess
import DataBlock.Table.Lookup
import Mathlib.Order.Nat

/-!
# Looking up a row by its id

A look-up of an id goes through the rows in order, as their bytes are at that time, and ends
at the first row whose id is the same key or cannot be read.  A row that was set to an id is
found by it, unless an earlier row is, or the value was converted into one of another kind.

Main results:

- `Row.EndsLookup`: a row at which a look-up ends.
- `Table.indexFrom?_of_isLeast`: a look-up ends at the first such row.
- `Table.lookup_after_revisions`: what a look-up comes to, after any revisions.
- `FieldType.sameKey_of_stored`: what is stored of a value that is not converted is the same
  key.
- `Table.found_after_set`: a row is found by the id that it was set to.
-/

namespace DataBlock

/-! ## Where a look-up ends -/

/-- A look-up of an id ends at a row whose id is the same key or cannot be read. -/
inductive Row.EndsLookup (r : Row) (name : String) (id : Value) : Prop where
  | found {v : Value} (hget : r.get name = .ok v) (hkey : v.SameKey id)
  | unreadable {fault : Fault} (hget : r.get name = .error fault)

/-- At any other row the id is read, and is another key. -/
theorem Row.get_of_not_endsLookup {r : Row} {name : String} {id : Value}
    (h : ¬ r.EndsLookup name id) : ∃ v, r.get name = .ok v ∧ ¬ v.SameKey id := by
  cases hget : r.get name with
  | error fault => exact absurd (.unreadable hget) h
  | ok v => exact ⟨v, rfl, fun hkey => h (.found hget hkey)⟩

namespace Table

variable {t : Table} {name : String} {id : Value} {k : Nat}

/-- A look-up goes past rows at which it does not end. -/
theorem indexFrom?_append (i : Nat) {front : List Row}
    (h : ∀ r ∈ front, ¬ r.EndsLookup name id) (rest : List Row) :
    indexFrom? name id i (front ++ rest) = indexFrom? name id (i + front.length) rest := by
  induction front generalizing i with
  | nil => rfl
  | cons r front ih =>
      rcases Row.get_of_not_endsLookup (h r List.mem_cons_self) with ⟨v, hget, hkey⟩
      have hnext := ih (i + 1) fun r' hr' => h r' (List.mem_cons_of_mem r hr')
      rw [List.cons_append, indexFrom?, hget]
      simp only [if_neg hkey]
      rw [hnext, List.length_cons, Nat.add_assoc, Nat.add_comm 1]

/-- The rows of which none before `k` ends a look-up. -/
theorem not_endsLookup_of_mem {n : Nat} (h : ∀ j < n, ¬ (t.row j).EndsLookup name id) :
    ∀ r ∈ (List.range n).map t.row, ¬ r.EndsLookup name id := by
  intro r hr
  rcases List.mem_map.1 hr with ⟨j, hj, rfl⟩
  exact h j (List.mem_range.1 hj)

/-- The rows before a row, the row, and the rows after it. -/
theorem exists_rows_eq (h : k < t.size) :
    ∃ back, t.rows = (List.range k).map t.row ++ t.row k :: back := by
  obtain ⟨n, hn⟩ : ∃ n, t.size = k + (n + 1) := ⟨t.size - k - 1, by omega⟩
  refine ⟨(List.range' (k + 1) n).map t.row, ?_⟩
  rw [rows_eq_map, hn, List.range_add, List.map_append, ← List.range'_eq_map_range,
    List.range'_succ, List.map_cons]

/-- Where no row ends a look-up, nothing is found. -/
theorem indexFrom?_of_forall_not (h : ∀ k < t.size, ¬ (t.row k).EndsLookup name id) :
    indexFrom? name id 0 t.rows = .ok none := by
  have hpast := indexFrom?_append 0 (not_endsLookup_of_mem h) []
  rwa [List.append_nil, ← rows_eq_map] at hpast

/-- A look-up ends at the first row at which it can. -/
theorem indexFrom?_of_isLeast
    (h : IsLeast {k | k < t.size ∧ (t.row k).EndsLookup name id} k) :
    indexFrom? name id 0 t.rows = ((t.row k).get name).map fun _ => some k := by
  rcases h with ⟨⟨hk, hends⟩, hleast⟩
  have hbefore : ∀ j < k, ¬ (t.row j).EndsLookup name id := fun j hj hj' =>
    absurd (hleast ⟨Nat.lt_trans hj hk, hj'⟩) (Nat.not_le.2 hj)
  rcases exists_rows_eq hk with ⟨back, hrows⟩
  rw [hrows, indexFrom?_append 0 (not_endsLookup_of_mem hbefore), indexFrom?, List.length_map,
    List.length_range, Nat.zero_add]
  cases hends with
  | found hget hkey =>
      rw [hget]
      exact if_pos hkey
  | unreadable hget =>
      rw [hget]
      rfl

/-! ## What a look-up comes to -/

/-- A look-up of an id fails, be the row meant to be read or to be changed, and changes
nothing. -/
structure LookupFails (t : Table) (id : Value) (fault : Fault) : Prop where
  read : t.rowById id = .error fault
  change : ∀ {α : Type} (c : Change Row α), (onRowById id c).outcome t = (.error fault, t)

/-- A look-up of an id gives the row with an index, to be read or to be changed. -/
structure LookupGives (t : Table) (id : Value) (k : Nat) : Prop where
  read : t.rowById id = .ok (t.row k)
  /-- The row is the one that is reached with the index. -/
  reach : ∀ way, t.reach way k = .ok (t.row k)
  /-- The row that is lent is changed in the block. -/
  change : ∀ {α : Type} (c : Change Row α), (onRowById id c).outcome t
    = ((c.outcome (t.row k)).1, t.setRow k (c.outcome (t.row k)).2.bytes)

theorem lookupFails_of_indexOf {fault : Fault} (h : t.indexOf id = .error fault) :
    t.LookupFails id fault where
  read := by
    rw [rowById, h]
    rfl
  change c := by
    rw [Change.outcome, run_onRowById, h]

theorem lookupGives_of_indexOf (h : t.indexOf id = .ok k) (hk : k < t.size) :
    t.LookupGives id k := by
  have hrow : t.rowAt k = .ok (t.row k) := rowAt_eq_ok_iff.2 ⟨hk, rfl⟩
  refine ⟨?_, ?_, ?_⟩
  · rw [rowById, h]
    exact hrow
  · intro way
    rw [reach_eq_rowAt, hrow]
  · intro α c
    have houtcome := outcome_onRow .index k c t
    rw [hrow] at houtcome
    rw [Change.outcome, run_onRowById, h]
    exact houtcome

/-- Without an id field every look-up fails. -/
theorem lookupFails_of_no_field (h : t.options.idField = none) (id : Value) :
    t.LookupFails id (.invalid .noIdField) := by
  apply lookupFails_of_indexOf
  rw [indexOf, h]

/-- A look-up that goes past all rows has found nothing. -/
theorem lookupFails_of_forall_not (h : t.options.idField = some name)
    (hnone : ∀ k < t.size, ¬ (t.row k).EndsLookup name id) :
    t.LookupFails id (.notFound (.id name id)) := by
  apply lookupFails_of_indexOf
  rw [indexOf, h]
  simp only [indexFrom?_of_forall_not hnone, Outcome.ok_bind]

/-- A look-up that ends at a row whose id cannot be read fails for that reason. -/
theorem lookupFails_of_isLeast (h : t.options.idField = some name)
    (hleast : IsLeast {k | k < t.size ∧ (t.row k).EndsLookup name id} k) {fault : Fault}
    (hget : (t.row k).get name = .error fault) : t.LookupFails id fault := by
  apply lookupFails_of_indexOf
  rw [indexOf, h]
  simp only [indexFrom?_of_isLeast hleast, hget]
  rfl

/-- A look-up that ends at a row whose id is read gives the row. -/
theorem lookupGives_of_isLeast (h : t.options.idField = some name)
    (hleast : IsLeast {k | k < t.size ∧ (t.row k).EndsLookup name id} k) {v : Value}
    (hget : (t.row k).get name = .ok v) : t.LookupGives id k := by
  refine lookupGives_of_indexOf ?_ hleast.1.1
  rw [indexOf, h]
  simp only [indexFrom?_of_isLeast hleast, hget, Outcome.map_ok, Outcome.ok_bind]

/-- After any revisions, a look-up of an id ends at the first row whose id, as it is now, is
the same key or cannot be read: it gives that row, or fails for the reason why the id cannot
be read, whatever comes behind.  Where no row ends it, nothing is found.  Without an id field
every look-up is invalid. -/
theorem lookup_after_revisions (t : Table) (rs : List Revision) (id : Value) :
    (t.options.idField = none → (t.revised rs).LookupFails id (.invalid .noIdField))
    ∧ ∀ name, t.options.idField = some name →
      ((∀ k < t.size, ¬ ((t.revised rs).row k).EndsLookup name id) →
        (t.revised rs).LookupFails id (.notFound (.id name id)))
      ∧ ∀ k, IsLeast {k | k < t.size ∧ ((t.revised rs).row k).EndsLookup name id} k →
        (∀ fault, ((t.revised rs).row k).get name = .error fault →
          (t.revised rs).LookupFails id fault)
        ∧ ∀ v, ((t.revised rs).row k).get name = .ok v → (t.revised rs).LookupGives id k := by
  have hoptions := options_revised t rs
  have hsize : t.size = (t.revised rs).size := congrArg TableOptions.rowCount hoptions.symm
  rw [← hoptions, hsize]
  refine ⟨fun hnone => lookupFails_of_no_field hnone id, ?_⟩
  intro name hname
  refine ⟨lookupFails_of_forall_not hname, ?_⟩
  intro k hleast
  refine ⟨?_, ?_⟩
  · intro fault hget
    exact lookupFails_of_isLeast hname hleast hget
  · intro v hget
    exact lookupGives_of_isLeast hname hleast hget

/-- Three rows with a span as id, of which the second and the third have the same. -/
def spanRows : Table where
  layout := ⟨[⟨"id", 4, none, .s5time⟩], by decide⟩
  options := ⟨.dataBlock, 1, none, 1, 3, 4, 0, some "id"⟩
  bytes := [0x00, 0x01, 9, 0x00, 0x02, 9, 0x00, 0x02, 9]
  rowSize := 2
  stride := 3
  fits := TableOptions.fits_of_check (by decide)

/-- The first row with an id of 20 ms is set to 50 ms, a byte that is no two digits is put
into the row with 10 ms, and a device answers for the last row. -/
def spanRevisions : List Revision :=
  [⟨.withId (.span (.ofMillis 20)), .set "id" (.span (.ofMillis 50))⟩,
    ⟨.reached .order 0, .overwrite 0 [0x00, 0x05]⟩,
    ⟨.reached .index 1, .overwrite 1 [0x0a]⟩,
    ⟨.reached .index 2, .receive (.ok [0x00, 0x07])⟩]

/-- After the revisions the first row is found by the id that was put into it.  An id that the
last row has is not found, since that of the second row cannot be read. -/
theorem lookup_after_revisions_of_spans :
    (spanRows.revised spanRevisions).LookupGives (.span (.ofMillis 50)) 0
    ∧ ((spanRows.revised spanRevisions).row 2).get "id" = .ok (.span (.ofMillis 70))
    ∧ (spanRows.revised spanRevisions).LookupFails (.span (.ofMillis 70))
      (.malformedBcd 1 0x0a)
    ∧ (pauseTable.revised []).LookupFails (.bool true) (.invalid .noIdField) := by
  have hfirst : ((spanRows.revised spanRevisions).row 0).get "id"
      = .ok (.span (.ofMillis 50)) := by decide +kernel
  have hsecond : ((spanRows.revised spanRevisions).row 1).get "id"
      = .error (.malformedBcd 1 0x0a) := by decide +kernel
  have hlast : ((spanRows.revised spanRevisions).row 2).get "id"
      = .ok (.span (.ofMillis 70)) := by decide +kernel
  have hleast : IsLeast {k | k < spanRows.size
      ∧ ((spanRows.revised spanRevisions).row k).EndsLookup "id" (.span (.ofMillis 50))} 0 :=
    ⟨⟨by decide, .found hfirst rfl⟩, fun j _ => Nat.zero_le j⟩
  have hleast' : IsLeast {k | k < spanRows.size
      ∧ ((spanRows.revised spanRevisions).row k).EndsLookup "id" (.span (.ofMillis 70))} 1 := by
    refine ⟨⟨by decide, .unreadable hsecond⟩, ?_⟩
    rintro j ⟨_, hends⟩
    cases j with
    | succ j => exact Nat.le_add_left 1 j
    | zero =>
        cases hends with
        | found hget hkey =>
            rw [hfirst] at hget
            cases hget
            exact absurd hkey (by decide)
        | unreadable hget =>
            rw [hfirst] at hget
            cases hget
  have hafter := fun id => (lookup_after_revisions spanRows spanRevisions id).2 "id" rfl
  exact ⟨((hafter _).2 0 hleast).2 _ hfirst, hlast, ((hafter _).2 1 hleast').1 _ hsecond,
    (lookup_after_revisions pauseTable [] (.bool true)).1 rfl⟩

end Table

/-! ## Keys that are stored -/

namespace FieldType

/-- A type turns a value into one of another kind: zero and one into a truth value, and a
narrow floating-point number into a wide one. -/
inductive Converts : FieldType → Value → Prop where
  | truth (n : IntValue) : Converts bool (.integer n)
  | widened (bits : UInt32) : Converts longReal (.single bits)

/-- What a type without a length stores of a value is the same key, unless the value is
converted or no number. -/
theorem sameKey_of_stored {t : FieldType} {u v : Value} (hstored : t.stored v = some u)
    (hlength : t.length? = none) (hconverts : ¬ t.Converts v) (hnan : ¬ v.IsNaN) :
    u.SameKey v := by
  cases t with
  | bool =>
      cases v with
      | bool b =>
          cases hstored
          rfl
      | integer n => exact absurd (.truth n) hconverts
      | _ => cases hstored
  | integer t =>
      cases v with
      | integer n =>
          rcases Option.map_eq_some_iff.1 hstored with ⟨m, hm, rfl⟩
          unfold IntValue.ofInt? at hm
          split at hm
          · cases hm
            rfl
          · cases hm
      | _ => cases hstored
  | real =>
      cases v with
      | single bits =>
          cases hstored
          exact Binary.single.equal_self_iff.2 hnan
      | _ => cases hstored
  | longReal =>
      cases v with
      | double bits =>
          cases hstored
          exact Binary.double.equal_self_iff.2 hnan
      | single bits => exact absurd (.widened bits) hconverts
      | _ => cases hstored
  | counted w n => cases hlength
  | padded n => cases hlength
  | raw n => cases hlength
  | _ =>
      cases v
      all_goals cases hstored
      all_goals rfl

/-- A bit of a byte within the buffer is read as a truth value. -/
theorem exists_decode_bool {bs : Bytes} {offset : Nat} (h : offset < bs.length) (i : Fin 8) :
    ∃ b, bool.decode bs offset (some i.val) = .ok (.bool b) := by
  have hindex : Bit.index i.val = .ok i := dif_pos i.isLt
  have hwindow : window bs offset bool.width = .ok (bs.slice offset 1) :=
    window_eq_ok_iff.2 ⟨h, rfl⟩
  refine ⟨Bit.get ((bs.slice offset 1).byte 0) i, ?_⟩
  rw [decode, requireBit, hwindow]
  simp only [Outcome.ok_bind, hindex]
  rfl

/-- A field that takes a value by converting it is read, wherever there is room for it, as a
value with another key. -/
theorem exists_decode_of_converts {t : FieldType} {v : Value} (h : t.Converts v)
    {bit : Option Nat} {p : Patch} (hpatch : t.patch bit v = .ok p) {bs : Bytes} {offset : Nat}
    (hfits : offset + t.width ≤ bs.length) :
    ∃ u, t.decode bs offset bit = .ok u ∧ ¬ u.SameKey v := by
  cases h with
  | truth n =>
      -- The write tells that the field has the bit that it needs to be read.
      rcases patch_bool_eq_ok_iff.1 hpatch with ⟨i, _, rfl, _, _⟩
      rcases exists_decode_bool hfits i with ⟨b, hdecode⟩
      exact ⟨_, hdecode, nofun⟩
  | widened bits =>
      have hwindow : window bs offset longReal.width = .ok (bs.slice offset longReal.width) :=
        window_eq_ok_iff.2 ⟨hfits, rfl⟩
      refine ⟨decodeLongReal (bs.slice offset longReal.width), ?_, nofun⟩
      rw [decode, hwindow]
      rfl

end FieldType

namespace Table

variable {t t' : Table} {f : Field} {i : Nat} {v : Value}

/-! ## Rows that were set -/

/-- A set of a field of a table sets it in the row and leaves the other rows. -/
theorem row_of_set {name : String} (h : t.set i name v = .ok t') :
    i < t.size ∧ t'.options = t.options ∧ t'.layout = t.layout
      ∧ (t.row i).set name v = .ok (t'.row i) ∧ ∀ j, j ≠ i → t'.row j = t.row j := by
  have hrun := Change.result_eq_ok_iff.1 h
  rw [assign, run_onRow] at hrun
  cases hrow : t.rowAt i with
  | error fault =>
      rw [hrow] at hrun
      cases hrun
  | ok row =>
      rcases rowAt_eq_ok_iff.1 hrow with ⟨hi, rfl⟩
      rw [hrow] at hrun
      simp only at hrun
      cases hassign : (Row.assign name v).run (t.row i) with
      | error fault after =>
          rw [hassign] at hrun
          cases hrun
      | ok u after =>
          rw [hassign] at hrun
          cases hrun
          have hset : (t.row i).set name v = .ok after := Change.result_eq_ok_iff.2 hassign
          have hbytes : ((t.setRow i after.bytes).row i).bytes = after.bytes :=
            row_setRow t hi ((Row.length_set hset).trans (length_row hi))
          -- A set changes nothing of a row but its bytes.
          have hafter : (t.setRow i after.bytes).row i = after := by
            rcases Row.set_eq_ok_iff.1 hset with ⟨_, _, bytes, _, _, _, rfl⟩
            exact congrArg (t.bound i) hbytes
          refine ⟨hi, rfl, rfl, ?_, fun j hj => row_setRow_of_ne after.bytes hj⟩
          rw [hset, hafter]

/-- The field that was set is read in the form in which its type stores the value. -/
theorem get_of_set (hf : f ∈ t.layout.fields) (h : t.set i f.name v = .ok t') :
    ∃ u, f.type.stored v = some u ∧ (t'.row i).get f.name = .ok u := by
  rcases row_of_set h with ⟨_, _, _, hset, _⟩
  rcases Row.get_left_self (r := t.row i) hf hset with ⟨u, hstored, hget⟩
  rw [Change.left_of_result hset] at hget
  exact ⟨u, hstored, hget⟩

/-- A row at which a look-up can end is the first one, or there is one before it. -/
theorem exists_isLeast_endsLookup {name : String} {id : Value} (hi : i < t.size)
    (hends : (t.row i).EndsLookup name id) :
    ∃ k ≤ i, IsLeast {k | k < t.size ∧ (t.row k).EndsLookup name id} k := by
  classical
  have hex : ∃ k, k < t.size ∧ (t.row k).EndsLookup name id := ⟨i, hi, hends⟩
  exact ⟨Nat.find hex, Nat.find_min' hex ⟨hi, hends⟩, Nat.isLeast_find hex⟩

/-- A field that was set to a value which its type converts is read in every row, as a value
with another key. -/
theorem exists_get_of_converts (hf : f ∈ t.layout.fields) (hconverts : f.type.Converts v)
    (hset : t.set i f.name v = .ok t') {k : Nat} (hk : k < t'.size) :
    ∃ u, (t'.row k).get f.name = .ok u ∧ ¬ u.SameKey v := by
  rcases row_of_set hset with ⟨_, _, hlayout, hrow, _⟩
  rcases Row.set_eq_ok_iff.1 hrow with ⟨g, offset, bytes, hfield, _, hencode, _⟩
  rcases Layout.field_eq_ok_iff.1 hfield with ⟨hg, hname⟩
  obtain rfl : g = f := Layout.eq_of_name_eq hg hf hname
  rcases FieldType.encode_eq_ok_iff.1 hencode with ⟨p, hpatch, _⟩
  rw [← hlayout] at hf
  have hfits := place_add_width_le_rowSize hf
  rw [← length_row hk] at hfits
  have hmem : g ∈ (t'.row k).layout.fields := hf
  rw [Row.get_name hmem, Row.read, place_row hf, Outcome.ok_bind]
  exact FieldType.exists_decode_of_converts hconverts hpatch hfits

/-- A row is found by the id that it was just set to, unless an earlier row is, where the ids
of the earlier rows can be read and the value was not converted.  A row that was set to a value
which its type converts is not found by the value. -/
theorem found_after_set (hf : f ∈ t.layout.fields) (hid : t.options.idField = some f.name)
    (hlength : f.type.length? = none) (hnan : ¬ v.IsNaN) (hset : t.set i f.name v = .ok t') :
    ((∀ j < i, ∃ w, (t.row j).get f.name = .ok w) → ¬ f.type.Converts v →
      ∃ k ≤ i, t'.LookupGives v k)
    ∧ (f.type.Converts v → t'.LookupFails v (.notFound (.id f.name v))) := by
  rcases row_of_set hset with ⟨hi, hoptions, hlayout, hrow, hothers⟩
  have hsize : t'.size = t.size := congrArg TableOptions.rowCount hoptions
  rw [← hoptions] at hid
  refine ⟨?_, ?_⟩
  · intro hearlier hconverts
    rcases get_of_set hf hset with ⟨u, hstored, hget⟩
    have hkey := FieldType.sameKey_of_stored hstored hlength hconverts hnan
    rcases exists_isLeast_endsLookup (hsize ▸ hi) (.found hget hkey) with ⟨k, hk, hleast⟩
    obtain ⟨w, hw⟩ : ∃ w, (t'.row k).get f.name = .ok w := by
      rcases Nat.lt_or_eq_of_le hk with hlt | rfl
      · rw [hothers k (Nat.ne_of_lt hlt)]
        exact hearlier k hlt
      · exact ⟨u, hget⟩
    exact ⟨k, hk, lookupGives_of_isLeast hid hleast hw⟩
  · intro hconverts
    apply lookupFails_of_forall_not hid
    intro k hk hends
    rcases exists_get_of_converts hf hconverts hset hk with ⟨u, hu, hother⟩
    cases hends with
    | found hget hkey =>
        rw [hu] at hget
        cases hget
        exact hother hkey
    | unreadable hget =>
        rw [hu] at hget
        cases hget

/-- Two rows with a floating-point number as id, zero and one. -/
def realIds : Table :=
  signedZeroIds.setRow 1 [0x3f, 0x80, 0x00, 0x00]

/-- A row that is set to the negative zero as id gives way to an earlier one with zero. -/
theorem found_after_set_of_zero :
    realIds.set 1 "id" (.single 0x80000000) = .ok signedZeroIds
    ∧ (∀ j < 1, ∃ w, (realIds.row j).get "id" = .ok w)
    ∧ ¬ (Value.single 0x80000000).IsNaN ∧ ¬ FieldType.real.Converts (.single 0x80000000)
    ∧ ∃ k ≤ 1, signedZeroIds.LookupGives (.single 0x80000000) k := by
  have hset : realIds.set 1 "id" (.single 0x80000000) = .ok signedZeroIds := by decide +kernel
  have hzero : (realIds.row 0).get "id" = .ok (.single 0) := by decide +kernel
  have hearlier : ∀ j < 1, ∃ w, (realIds.row j).get "id" = .ok w := by
    intro j hj
    rw [Nat.lt_one_iff.1 hj]
    exact ⟨_, hzero⟩
  have hnan : ¬ (Value.single 0x80000000).IsNaN := by decide
  have hconverts : ¬ FieldType.real.Converts (.single 0x80000000) := by rintro ⟨⟩
  have hmem : ⟨"id", 0, none, .real⟩ ∈ realIds.layout.fields := List.mem_cons_self
  exact ⟨hset, hearlier, hnan, hconverts,
    (found_after_set hmem rfl rfl hnan hset).1 hearlier hconverts⟩

/-- One row with a bit as id. -/
def bitIds : Table where
  layout := ⟨[⟨"id", 0, some 0, .bool⟩], by decide⟩
  options := ⟨.dataBlock, 1, none, 0, 1, 0, 0, some "id"⟩
  bytes := [0x00]
  rowSize := 1
  stride := 1
  fits := TableOptions.fits_of_check (by decide)

/-- One row with a wide floating-point number as id. -/
def wideIds : Table where
  layout := ⟨[⟨"id", 0, none, .longReal⟩], by decide⟩
  options := ⟨.dataBlock, 1, none, 0, 1, 0, 0, some "id"⟩
  bytes := List.replicate 8 0
  rowSize := 8
  stride := 8
  fits := TableOptions.fits_of_check (by decide)

/-- A row that is set to a converted value is not found by it: not a bit by the integer one,
nor a wide floating-point number by a narrow one half. -/
theorem not_found_after_conversion :
    (bitIds.set 0 "id" (.integer ⟨.u8, 1, by decide⟩)).map Table.bytes = .ok [0x01]
    ∧ ((bitIds.set 0 "id" (.integer ⟨.u8, 1, by decide⟩)).bind fun t =>
        t.rowById (.integer ⟨.u8, 1, by decide⟩))
      = .error (.notFound (.id "id" (.integer ⟨.u8, 1, by decide⟩)))
    ∧ (wideIds.set 0 "id" (.single 0x3f000000)).map Table.bytes
      = .ok [0x3f, 0xe0, 0, 0, 0, 0, 0, 0]
    ∧ ((wideIds.set 0 "id" (.single 0x3f000000)).bind fun t => t.rowById (.single 0x3f000000))
      = .error (.notFound (.id "id" (.single 0x3f000000))) := by
  decide +kernel

end Table
end DataBlock
