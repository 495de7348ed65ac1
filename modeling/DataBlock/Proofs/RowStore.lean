import DataBlock.Proofs.Footprint
import DataBlock.Proofs.Locality
import DataBlock.Row
import Mathlib.Data.List.Pairwise

/-!
# A row is a store of independent variables

In a row whose fields do not overlap, a set of a field changes what is read from that
field alone.  After any run of sets, some of which may fail, each field holds the value of
the last set of it that succeeded, and what it held before the run if there was none.

Main results:

- `Field.Apart`: no byte lies in both fields, or they are bits of different index.
- `Row.Regular`: the fields of a row are apart, and the headers of its texts within them.
- `Row.regular_left`: a set keeps a row regular.
- `Row.get_left_of_ne`: a set of a field leaves the other fields as they were.
- `Row.get_after`: after a run of sets, a field holds the value that was set last.
-/

namespace DataBlock

/-! ## Fields that are apart -/

/-- The field occupies the byte at an address. -/
def Field.Covers (f : Field) (i : Nat) : Prop :=
  f.offset ≤ i ∧ i < f.offset + f.type.width

/-- No byte lies in both fields, or both are bits and their indices differ. -/
def Field.Apart (f g : Field) : Prop :=
  (∀ i, ¬ (f.Covers i ∧ g.Covers i)) ∨ f.type = .bool ∧ g.type = .bool ∧ f.bit ≠ g.bit

instance : Std.Symm Field.Apart where
  symm f g h := by
    rcases h with hbytes | ⟨hf, hg, hbits⟩
    · left
      intro i hi
      exact hbytes i ⟨hi.2, hi.1⟩
    · right
      exact ⟨hg, hf, hbits.symm⟩

/-- No two fields of the layout overlap. -/
def Layout.Separated (l : Layout) : Prop :=
  l.fields.Pairwise Field.Apart

/-- Two fields of different name are apart. -/
theorem Layout.Separated.apart {l : Layout} (h : l.Separated) {f g : Field}
    (hf : f ∈ l.fields) (hg : g ∈ l.fields) (hname : f.name ≠ g.name) : f.Apart g := by
  have hne : f ≠ g := by
    intro heq
    exact hname (congrArg Field.name heq)
  exact List.Pairwise.forall h hf hg hne

/-! ## Writes and the headers of texts -/

namespace FieldType

/-- A text that was written has the capacity of its field in its header. -/
theorem headerWithin_encode {t : FieldType} {bs after : Bytes} {offset : Nat}
    {bit : Option Nat} {v : Value} (h : t.encode bs offset bit v = .ok after) :
    t.HeaderWithin after offset := by
  intro w capacity header ht hheader
  subst ht
  rcases window_encode h with ⟨p, hpatch, _, hwindow⟩
  rcases Outcome.map_eq_ok_iff.1 hpatch with ⟨image, himage, rfl⟩
  rcases countedImage_eq_ok_iff.1 himage with ⟨s, rfl, hcheck, rfl⟩
  have hwritten := window_header_countedText (s := s) hwindow
  rw [hheader] at hwritten
  cases hwritten
  rw [decode_take_header _ hcheck]

/-- A field whose window is as it was keeps its header. -/
theorem HeaderWithin.congr {t : FieldType} {bs bs' : Bytes} {offset : Nat}
    (h : t.HeaderWithin bs offset) (hlength : bs'.length = bs.length)
    (hslice : bs'.slice offset t.width = bs.slice offset t.width) :
    t.HeaderWithin bs' offset := by
  intro w capacity header ht hheader
  subst ht
  apply h w capacity header rfl
  rw [← window_header_congr hlength hslice, hheader]

end FieldType

namespace Row

/-! ## Regular rows -/

/-- The fields of a row are apart, and the headers of its texts are within their fields. -/
structure Regular (r : Row) : Prop where
  separated : r.layout.Separated
  within : ∀ f ∈ r.layout.fields, ∀ offset, r.place f = .ok offset →
    f.type.HeaderWithin r.bytes offset

/-- A write of a field leaves the window of a field with other bytes. -/
theorem slice_encode_of_disjoint {r : Row} {f g : Field} {offset offset' : Nat} {v : Value}
    {bytes : Bytes} (hf : r.place f = .ok offset) (hg : r.place g = .ok offset')
    (h : f.type.encode r.bytes offset f.bit v = .ok bytes)
    (hbytes : ∀ i, ¬ (f.Covers i ∧ g.Covers i)) :
    bytes.slice offset' g.type.width = r.bytes.slice offset' g.type.width := by
  rw [place_eq_ok_iff] at hf hg
  apply Bytes.slice_congr_of_getElem?
  intro i hi
  apply FieldType.getElem?_encode_of_outside h
  by_contra hinside
  apply hbytes (g.offset + i)
  unfold Field.Covers
  omega

/-- A write of a field leaves what is read from a field that is apart from it. -/
theorem decode_encode_of_apart {r : Row} {f g : Field} {offset offset' : Nat} {v : Value}
    {bytes : Bytes} (hf : r.place f = .ok offset) (hg : r.place g = .ok offset')
    (h : f.type.encode r.bytes offset f.bit v = .ok bytes) (hapart : f.Apart g)
    (hwithin : g.type.HeaderWithin r.bytes offset') :
    g.type.decode bytes offset' g.bit = g.type.decode r.bytes offset' g.bit := by
  have hlength := FieldType.length_encode h
  rcases hapart with hbytes | ⟨htype, htype', hbits⟩
  · exact FieldType.decode_congr _ hlength (slice_encode_of_disjoint hf hg h hbytes) hwithin
  · rw [htype] at h
    rw [htype']
    rcases FieldType.byte_encode_bool h with ⟨i, b, old, new, hbit, _, hold, hnew, hget⟩
    by_cases hsame : offset' = offset
    · subst hsame
      apply FieldType.decode_bool_congr hold hnew
      intro j hj
      have hne : j ≠ i := by
        intro heq
        apply hbits
        rw [hbit, hj, heq]
      rw [hget j, if_neg hne]
    · -- Bits of different bytes are as far apart as any other fields.
      have hslice : bytes.slice offset' FieldType.bool.width
          = r.bytes.slice offset' FieldType.bool.width := by
        apply Bytes.slice_congr_of_getElem?
        intro k hk
        apply FieldType.getElem?_encode_of_outside h
        simp only [FieldType.width] at hk ⊢
        omega
      rw [htype'] at hwithin
      exact FieldType.decode_congr _ hlength hslice hwithin

/-- A write of a field leaves the header of a field that is apart from it. -/
theorem headerWithin_encode_of_apart {r : Row} {f g : Field} {offset offset' : Nat}
    {v : Value} {bytes : Bytes} (hf : r.place f = .ok offset) (hg : r.place g = .ok offset')
    (h : f.type.encode r.bytes offset f.bit v = .ok bytes) (hapart : f.Apart g)
    (hwithin : g.type.HeaderWithin r.bytes offset') :
    g.type.HeaderWithin bytes offset' := by
  rcases hapart with hbytes | ⟨_, htype, _⟩
  · exact hwithin.congr (FieldType.length_encode h) (slice_encode_of_disjoint hf hg h hbytes)
  · rw [htype]
    intro w capacity header ht
    cases ht

/-! ## One set -/

/-- A set that fails leaves the row as it was. -/
theorem run_assign_fault {r after : Row} {name : String} {v : Value} {fault : Fault}
    (h : (assign name v).run r = .error fault after) : after = r := by
  rw [run_assign] at h
  cases hfield : r.layout.field name with
  | error e =>
      rw [hfield] at h
      cases h
      rfl
  | ok f =>
      rw [hfield] at h
      simp only at h
      cases hplace : r.place f with
      | error e =>
          rw [hplace] at h
          cases h
          rfl
      | ok offset =>
          rw [hplace] at h
          simp only [run_onBytes] at h
          cases hwrite : (f.type.write offset f.bit v).run r.bytes with
          | ok u bytes =>
              rw [hwrite] at h
              cases h
          | error e bytes =>
              rw [hwrite] at h
              cases h
              rw [FieldType.run_write_fault hwrite]

/-- A set leaves the row as it was and fails, or writes the field of its name. -/
theorem left_assign_cases (r : Row) (name : String) (v : Value) :
    ((∃ fault, r.set name v = .error fault) ∧ (assign name v).left r = r)
      ∨ ∃ f offset bytes, (f ∈ r.layout.fields ∧ f.name = name) ∧ r.place f = .ok offset
        ∧ f.type.encode r.bytes offset f.bit v = .ok bytes
        ∧ r.set name v = .ok { r with bytes := bytes }
        ∧ (assign name v).left r = { r with bytes := bytes } := by
  cases hset : r.set name v with
  | ok r' =>
      right
      rcases set_eq_ok_iff.1 hset with ⟨f, offset, bytes, hfield, hplace, hencode, rfl⟩
      have hleft := Change.left_of_result hset
      exact ⟨f, offset, bytes, Layout.field_eq_ok_iff.1 hfield, hplace, hencode, rfl, hleft⟩
  | error fault =>
      left
      rcases Change.result_eq_error_iff.1 hset with ⟨after, hrun⟩
      refine ⟨⟨fault, rfl⟩, ?_⟩
      rw [Change.left_of_fault hrun, run_assign_fault hrun]

/-- A set leaves which fields a row has and where it begins. -/
theorem layout_left (r : Row) (name : String) (v : Value) :
    ((assign name v).left r).layout = r.layout := by
  rcases left_assign_cases r name v with ⟨_, hleft⟩ | ⟨f, offset, bytes, _, _, _, _, hleft⟩
  · rw [hleft]
  · rw [hleft]

/-- A set keeps a row regular. -/
theorem regular_left {r : Row} (h : r.Regular) (name : String) (v : Value) :
    ((assign name v).left r).Regular := by
  rcases left_assign_cases r name v with
    ⟨_, hleft⟩ | ⟨f, offset, bytes, ⟨hf, hname⟩, hplace, hencode, _, hleft⟩
  · rw [hleft]
    exact h
  · rw [hleft]
    refine ⟨h.separated, ?_⟩
    intro g hg offset' hplace'
    have hwithin := h.within g hg offset' hplace'
    by_cases hsame : f.name = g.name
    · have heq : f = g := Layout.eq_of_name_eq hf hg hsame
      subst heq
      cases hplace.symm.trans hplace'
      exact FieldType.headerWithin_encode hencode
    · have hapart := h.separated.apart hf hg hsame
      exact headerWithin_encode_of_apart hplace hplace' hencode hapart hwithin

/-- A set leaves what is read from the fields of other names. -/
theorem get_left_of_ne {r : Row} (h : r.Regular) {g : Field} (hg : g ∈ r.layout.fields)
    {name : String} (hname : name ≠ g.name) (v : Value) :
    ((assign name v).left r).get g.name = r.get g.name := by
  rcases left_assign_cases r name v with
    ⟨_, hleft⟩ | ⟨f, offset, bytes, ⟨hf, rfl⟩, hplace, hencode, _, hleft⟩
  · rw [hleft]
  · have hg' : g ∈ (Row.layout { r with bytes := bytes }).fields := hg
    rw [hleft, get_name hg', get_name hg, read, read]
    have hmoved : Row.place { r with bytes := bytes } g = r.place g := rfl
    rw [hmoved]
    cases hplace' : r.place g with
    | error fault => rfl
    | ok offset' =>
        have hapart := h.separated.apart hf hg hname
        have hwithin := h.within g hg offset' hplace'
        exact decode_encode_of_apart hplace hplace' hencode hapart hwithin

/-- After a set of a field its value is read in the form in which the field stores it. -/
theorem get_left_self {r r' : Row} {f : Field} (hf : f ∈ r.layout.fields) {v : Value}
    (hset : r.set f.name v = .ok r') :
    ∃ u, f.type.stored v = some u ∧ ((assign f.name v).left r).get f.name = .ok u := by
  rcases left_assign_cases r f.name v with
    ⟨⟨fault, hfault⟩, _⟩ | ⟨g, offset, bytes, ⟨hg, hname⟩, hplace, hencode, _, hleft⟩
  · rw [hset] at hfault
    cases hfault
  · have heq : g = f := Layout.eq_of_name_eq hg hf hname
    subst heq
    rcases FieldType.window_encode hencode with ⟨p, hpatch, hold, hwindow⟩
    rcases FieldType.decode_of_patch hpatch hold hwindow with ⟨u, hstored, hdecode⟩
    refine ⟨u, hstored, ?_⟩
    have hf' : g ∈ (Row.layout { r with bytes := bytes }).fields := hf
    have hmoved : Row.place { r with bytes := bytes } g = .ok offset := hplace
    rw [hleft, get_name hf', read, hmoved]
    exact hdecode

/-- A set that fails leaves the row as it was. -/
theorem left_of_set_error {r : Row} {name : String} {v : Value} {fault : Fault}
    (hset : r.set name v = .error fault) : (assign name v).left r = r := by
  rcases left_assign_cases r name v with ⟨_, hleft⟩ | ⟨f, offset, bytes, _, _, _, hok, _⟩
  · exact hleft
  · rw [hset] at hok
    cases hok

/-! ## Runs of sets -/

/-- The row after a run of sets, each of which goes on from what the one before it left,
whether it succeeded or not. -/
def after (r : Row) : List (String × Value) → Row
  | [] => r
  | (name, v) :: sets => after ((assign name v).left r) sets

/-- The value of the last set of a name in a run that succeeded. -/
def lastSet? (r : Row) (name : String) : List (String × Value) → Option Value
  | [] => none
  | (name', v) :: sets =>
      (lastSet? ((assign name' v).left r) name sets).or
        (if name' = name ∧ (r.set name' v).isOk then some v else none)

/-- After a run of sets, a field holds the stored form of the value that was set last; if
no set of it succeeded, it reads as before the run. -/
theorem get_after {r : Row} (h : r.Regular) {f : Field} (hf : f ∈ r.layout.fields)
    (sets : List (String × Value)) :
    match r.lastSet? f.name sets with
    | some v => ∃ u, f.type.stored v = some u ∧ (r.after sets).get f.name = .ok u
    | none => (r.after sets).get f.name = r.get f.name := by
  induction sets generalizing r with
  | nil => rfl
  | cons step sets ih =>
      rcases step with ⟨name, v⟩
      have hf' : f ∈ ((assign name v).left r).layout.fields := by
        rw [layout_left]
        exact hf
      have hrest := ih (regular_left h name v) hf'
      rw [lastSet?, after]
      -- The rest of the run decides, unless no set of the field in it succeeded.
      cases hlast : ((assign name v).left r).lastSet? f.name sets with
      | some w =>
          rw [hlast] at hrest
          exact hrest
      | none =>
          rw [hlast] at hrest
          simp only at hrest
          rw [Option.none_or, hrest]
          by_cases hname : name = f.name
          · subst hname
            cases hset : r.set f.name v with
            | ok r' =>
                rw [if_pos ⟨rfl, rfl⟩]
                exact get_left_self hf hset
            | error fault =>
                rw [if_neg (by simp [Except.isOk, Except.toBool]), left_of_set_error hset]
          · rw [if_neg fun hset => hname hset.1]
            exact get_left_of_ne h hf hname v

/-- A row with two bits in one byte and a text after them. -/
def sharedByte : Row where
  layout := ⟨[⟨"run", 10, some 0, .bool⟩, ⟨"stop", 10, some 1, .bool⟩,
    ⟨"name", 11, none, .counted .narrow 2⟩], by decide⟩
  layoutOffset := 10
  address := .origin
  bytes := [0, 2, 0, 32, 32]

theorem regular_sharedByte : sharedByte.Regular := by
  constructor
  case separated =>
    simp [Layout.Separated, sharedByte, Field.Apart, Field.Covers, FieldType.width,
      CharWidth.size]
    omega
  case within =>
    intro f hf offset hplace w capacity header ht hheader
    simp only [sharedByte, List.mem_cons, List.not_mem_nil, or_false] at hf
    rcases hf with rfl | rfl | rfl
    · cases ht
    · cases ht
    · cases ht
      cases hplace
      cases hheader
      decide

/-- A bit is read back after a text was cut, a set failed and the bit beside it was
written. -/
theorem get_after_in_sharedByte :
    sharedByte.Regular ∧ ⟨"run", 10, some 0, .bool⟩ ∈ sharedByte.layout.fields
      ∧ ∃ u, FieldType.bool.stored (.bool true) = some u
        ∧ (sharedByte.after [("run", .bool true), ("name", .string "abc"),
          ("name", .char 'x'), ("stop", .bool true)]).get "run" = .ok u := by
  have hmem : ⟨"run", 10, some 0, .bool⟩ ∈ sharedByte.layout.fields := List.mem_cons_self
  have hrun := get_after regular_sharedByte hmem [("run", .bool true),
    ("name", .string "abc"), ("name", .char 'x'), ("stop", .bool true)]
  exact ⟨regular_sharedByte, hmem, hrun⟩

end Row
end DataBlock
