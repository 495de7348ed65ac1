import DataBlock.Fault
import DataBlock.Layout.Field

/-!
# Layouts

The fields of a data block in the order of their declaration, each name used
once.

Main results:

- `Layout.find?_eq_some_iff`: a name finds exactly the field that has it.
- `Layout.firstRepeat?_eq_none_iff`: there is no first repeated name exactly if no
  name occurs twice.
- `Layout.span_eq_some_iff`, `Layout.span_eq_none_iff`: the span of a layout is its extent, if
  every field ends at a count.
- `Layout.place_add_width_le_extent`: every field lies within the extent of its layout.
-/

namespace DataBlock

/-- The fields of a data block, under distinct names. -/
structure Layout where
  fields : List Field
  names_nodup : (fields.map Field.name).Nodup
  deriving DecidableEq

namespace Layout

/-! ## Construction -/

/-- The first name that occurs among the names before it or among `seen`. -/
def firstRepeat? (seen : List String) : List String → Option String
  | [] => none
  | name :: names =>
      if name ∈ seen then some name else firstRepeat? (name :: seen) names

theorem firstRepeat?_eq_none_iff_of_seen {seen names : List String} :
    firstRepeat? seen names = none ↔ names.Nodup ∧ ∀ name ∈ names, name ∉ seen := by
  induction names generalizing seen with
  | nil => simp [firstRepeat?]
  | cons name names ih =>
      by_cases hseen : name ∈ seen
      · simp [firstRepeat?, hseen]
      · simp only [firstRepeat?, hseen, if_false, ih, List.nodup_cons, List.mem_cons,
          not_or, forall_eq_or_imp, not_false_eq_true, true_and]
        constructor
        · rintro ⟨hnodup, h⟩
          exact ⟨⟨fun hmem => (h name hmem).1 rfl, hnodup⟩, fun n hn => (h n hn).2⟩
        · rintro ⟨⟨hnot, hnodup⟩, h⟩
          exact ⟨hnodup, fun n hn => ⟨fun heq => hnot (heq ▸ hn), h n hn⟩⟩

/-- There is no first repeated name exactly if no name occurs twice. -/
theorem firstRepeat?_eq_none_iff {names : List String} :
    firstRepeat? [] names = none ↔ names.Nodup := by
  simp [firstRepeat?_eq_none_iff_of_seen]

/-- The layout with the given fields; a name that is used twice is refused. -/
def ofFields (fields : List Field) : Except Fault Layout :=
  match h : firstRepeat? [] (fields.map Field.name) with
  | some name => .error (.invalid (.duplicateName name))
  | none => .ok ⟨fields, firstRepeat?_eq_none_iff.1 h⟩

/-! ## Lookup -/

/-- The field of a name. -/
def find? (l : Layout) (name : String) : Option Field :=
  l.fields.find? fun f => f.name == name

/-- The field of a name, or the fault that there is none. -/
def field (l : Layout) (name : String) : Except Fault Field :=
  match l.find? name with
  | some f => .ok f
  | none => .error (.unknownField name)

/-- A name finds exactly the field that has it. -/
theorem find?_eq_some_iff {l : Layout} {name : String} {f : Field} :
    l.find? name = some f ↔ f ∈ l.fields ∧ f.name = name := by
  unfold find?
  constructor
  · intro h
    exact ⟨List.mem_of_find?_eq_some h, by simpa using List.find?_some h⟩
  · rintro ⟨hmem, rfl⟩
    have hnodup := l.names_nodup
    generalize l.fields = fields at hmem hnodup
    induction fields with
    | nil => exact absurd hmem (by simp)
    | cons g gs ih =>
        rw [List.map_cons, List.nodup_cons] at hnodup
        rcases List.mem_cons.1 hmem with rfl | hmem
        · simp
        · have hne : (g.name == f.name) = false := by
            rw [beq_eq_false_iff_ne]
            intro heq
            exact hnodup.1 (heq ▸ List.mem_map_of_mem hmem)
          rw [List.find?_cons, hne]
          exact ih hmem hnodup.2

/-- Fields of the same name are the same. -/
theorem eq_of_name_eq {l : Layout} {f g : Field} (hf : f ∈ l.fields) (hg : g ∈ l.fields)
    (h : f.name = g.name) : f = g := by
  have hfound := find?_eq_some_iff.2 ⟨hf, rfl⟩
  rw [find?_eq_some_iff.2 ⟨hg, h.symm⟩] at hfound
  exact (Option.some.inj hfound).symm

/-- The field of a name is the one in the layout that has it. -/
theorem field_eq_ok_iff {l : Layout} {name : String} {f : Field} :
    l.field name = .ok f ↔ f ∈ l.fields ∧ f.name = name := by
  rw [← find?_eq_some_iff, field]
  cases l.find? name <;> simp

/-! ## Extent -/

/-- The smallest address of a field; zero if there are none. -/
def minOffset (l : Layout) : Nat :=
  (l.fields.map Field.offset).min?.getD 0

/-- The first address behind all fields; zero if there are none.  There is no such address if one
of them ends where no count is. -/
def endOffset (l : Layout) : Option Nat :=
  (l.fields.mapM Field.endOffset).map fun ends => ends.foldl max 0

/-- The bytes that a row needs whose first byte has the given address, if they can be told. -/
def span (l : Layout) (layoutOffset : Nat) : Option Nat :=
  l.endOffset.map fun last => last - layoutOffset

/-- How far the fields go on from an address, whether or not they end at counts. -/
def extent (l : Layout) (layoutOffset : Nat) : Nat :=
  (l.fields.map Field.behind).foldl max 0 - layoutOffset

/-- The ends of fields are counts, or one of them is none. -/
theorem mapM_endOffset (fields : List Field) :
    fields.mapM Field.endOffset =
      if ∀ f ∈ fields, f.behind < countLimit then some (fields.map Field.behind) else none := by
  induction fields with
  | nil => rfl
  | cons f fields ih =>
      have hcons : (∀ g ∈ f :: fields, g.behind < countLimit)
          ↔ f.behind < countLimit ∧ ∀ g ∈ fields, g.behind < countLimit := List.forall_mem_cons
      rw [List.mapM_cons, ih]
      by_cases hf : f.behind < countLimit
      · rw [Field.endOffset_eq_some_iff.2 ⟨hf, rfl⟩]
        by_cases hfields : ∀ g ∈ fields, g.behind < countLimit
        · rw [if_pos hfields, if_pos (hcons.2 ⟨hf, hfields⟩)]
          rfl
        · rw [if_neg hfields, if_neg fun h => hfields (hcons.1 h).2]
          rfl
      · rw [Field.endOffset_eq_none_iff.2 (Nat.not_lt.1 hf), if_neg fun h => hf (hcons.1 h).1]
        rfl

/-- The span of a layout is its extent, if every field ends at a count. -/
theorem span_eq_some_iff {l : Layout} {layoutOffset n : Nat} :
    l.span layoutOffset = some n
      ↔ (∀ f ∈ l.fields, f.behind < countLimit) ∧ l.extent layoutOffset = n := by
  rw [span, endOffset, mapM_endOffset]
  by_cases h : ∀ f ∈ l.fields, f.behind < countLimit
  · rw [if_pos h]
    simp only [Option.map_some, Option.some.injEq, extent, and_iff_right h]
  · rw [if_neg h]
    simp only [Option.map_none, reduceCtorEq, false_iff, not_and]
    exact fun hfields => absurd hfields h

/-- A layout has no span if some field ends at no count. -/
theorem span_eq_none_iff {l : Layout} {layoutOffset : Nat} :
    l.span layoutOffset = none ↔ ¬ ∀ f ∈ l.fields, f.behind < countLimit := by
  rw [Option.eq_none_iff_forall_ne_some]
  constructor
  · intro h hfields
    exact h _ (span_eq_some_iff.2 ⟨hfields, rfl⟩)
  · intro h n hn
    exact h (span_eq_some_iff.1 hn).1

/-- The extent of fields that end at counts is a count. -/
theorem extent_lt {l : Layout} (h : ∀ f ∈ l.fields, f.behind < countLimit) (layoutOffset : Nat) :
    l.extent layoutOffset < countLimit := by
  have hmax : ∀ (ends : List Nat) (n : Nat), n < countLimit → (∀ m ∈ ends, m < countLimit) →
      ends.foldl max n < countLimit := by
    intro ends
    induction ends with
    | nil => exact fun n hn _ => hn
    | cons m ends ih =>
        intro n hn hends
        rw [List.forall_mem_cons] at hends
        exact ih _ (Nat.max_lt.2 ⟨hn, hends.1⟩) hends.2
  refine Nat.lt_of_le_of_lt (Nat.sub_le _ _) (hmax _ 0 (by decide) ?_)
  intro m hm
  rcases List.mem_map.1 hm with ⟨f, hf, rfl⟩
  exact h f hf

/-- A row of the layout has room for every field that does not lie before it. -/
theorem place_add_width_le_extent {l : Layout} {f : Field} (hf : f ∈ l.fields)
    {layoutOffset : Nat} (h : layoutOffset ≤ f.offset) :
    f.offset - layoutOffset + f.type.width ≤ l.extent layoutOffset := by
  have hmem : f.behind ∈ l.fields.map Field.behind := List.mem_map_of_mem hf
  have hend : f.behind ≤ (l.fields.map Field.behind).foldl max 0 := by
    rw [List.foldl_max]
    exact Nat.le_trans (List.le_max?_getD_of_mem hmem) (Nat.le_max_right _ _)
  rw [Field.behind] at hend
  rw [extent]
  omega

end Layout
end DataBlock
