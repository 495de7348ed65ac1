import DataBlock.Proofs.LayoutLanguage.Field
import DataBlock.Proofs.LayoutLanguage.Text
import Mathlib.Data.List.Forall2

/-!
# The language of layouts

Which texts are layouts, and of which fields.  A text is cut into lines, each line up to
its first hash sign into tokens, and every line with tokens has to describe a field whose
name no other line has.

Main results:

- `Layout.declare_eq_ok_iff`: entries are declared if each describes a field of a new name.
- `Layout.parse_eq_ok_iff`: a text is read as the layout whose fields its lines describe.
- `Layout.parse_accepts_iff`: the texts that are read, and the fields that they have.
-/

namespace DataBlock
namespace Layout

/-! ## Declarations -/

/-- The fields have names of their own, none of which was used before. -/
def Fresh (seen : List (String × Nat)) (fields : List Field) : Prop :=
  (fields.map Field.name).Nodup ∧ ∀ f ∈ fields, seen.lookup f.name = none

theorem fresh_cons_iff {seen : List (String × Nat)} {f : Field} {fields : List Field}
    (number : Nat) :
    Fresh seen (f :: fields) ↔
      seen.lookup f.name = none ∧ Fresh ((f.name, number) :: seen) fields := by
  have hlookup : ∀ g : Field, ((f.name, number) :: seen).lookup g.name = none ↔
      g.name ≠ f.name ∧ seen.lookup g.name = none := by
    intro g
    rw [List.lookup_cons]
    cases hname : g.name == f.name with
    | true => simp [beq_iff_eq.1 hname]
    | false => simp only [beq_eq_false_iff_ne.1 hname, ne_eq, not_false_iff, true_and]
  unfold Fresh
  rw [List.map_cons, List.nodup_cons, List.forall_mem_cons]
  constructor
  · intro h
    rcases h with ⟨⟨hnot, hnodup⟩, hfree, hseen⟩
    refine ⟨hfree, hnodup, ?_⟩
    intro g hg
    refine (hlookup g).2 ⟨?_, hseen g hg⟩
    intro heq
    exact hnot (heq ▸ List.mem_map_of_mem hg)
  · intro h
    rcases h with ⟨hfree, hnodup, hseen⟩
    refine ⟨⟨?_, hnodup⟩, hfree, fun g hg => ((hlookup g).1 (hseen g hg)).2⟩
    intro hmem
    rcases List.mem_map.1 hmem with ⟨g, hg, hname⟩
    exact ((hlookup g).1 (hseen g hg)).1 hname

/-- The node of an entry describes the field. -/
def Declares (node : Node) (f : Field) : Prop :=
  node.field = .ok f

/-- Entries are declared if each of them describes a field, under a name that was not
used before. -/
theorem declare_eq_ok_iff {text : List Char} {seen : List (String × Nat)} {nodes : List Node}
    {fields : List Field} :
    (declare text seen nodes).value = .ok fields ↔
      List.Forall₂ Declares nodes fields ∧ Fresh seen fields := by
  induction nodes generalizing seen fields with
  | nil =>
      rw [List.forall₂_nil_left_iff]
      constructor
      · intro h
        cases h
        simp [Fresh]
      · intro h
        rcases h with ⟨rfl, _⟩
        rfl
  | cons node nodes ih =>
      rw [List.forall₂_cons_left_iff, declare]
      cases hfield : node.field with
      | error cause =>
          constructor
          · intro h
            cases h
          · intro h
            rcases h with ⟨⟨f, rest, hf, _⟩, _⟩
            cases hfield.symm.trans hf
      | ok field =>
          cases hlookup : seen.lookup field.name with
          | some first =>
              simp only [hlookup]
              constructor
              · intro h
                cases h
              · intro h
                rcases h with ⟨⟨f, rest, hf, _, rfl⟩, hfresh⟩
                cases hfield.symm.trans hf
                rw [((fresh_cons_iff 0).1 hfresh).1] at hlookup
                cases hlookup
          | none =>
              simp only [hlookup, Outcome.map_eq_ok_iff, ih]
              constructor
              · intro h
                rcases h with ⟨rest, ⟨hrest, hfresh⟩, rfl⟩
                exact ⟨⟨field, rest, hfield, hrest, rfl⟩,
                  (fresh_cons_iff (lineNumber text node.start)).2 ⟨hlookup, hfresh⟩⟩
              · intro h
                rcases h with ⟨⟨f, rest, hf, hrest, rfl⟩, hfresh⟩
                cases hfield.symm.trans hf
                exact ⟨rest, ⟨hrest,
                  ((fresh_cons_iff (lineNumber text node.start)).1 hfresh).2⟩, rfl⟩

/-! ## Lines -/

/-- A node describes the field that the tokens of its line describe. -/
theorem describes_iff_of_hasNode {l : PlacedLine} {node : Node} (h : l.HasNode node)
    (hline : ∀ c ∈ l.chars, isLineEnd c = false) {f : Field} :
    Describes (tokens l.chars) f ↔ Declares node f := by
  rcases h.entry with ⟨e, he, hwords, hnode⟩
  have hfield : node.field = e.field := by rw [Node.field, hnode, Outcome.ok_bind]
  rw [describes_iff, Declares, hfield]
  constructor
  · intro h
    rcases h with ⟨e', he', hwords', hf⟩
    rwa [Grammar.entry_unique hline he he' hwords hwords']
  · intro hf
    exact ⟨e, he, hwords, hf⟩

/-- Nodes describe the fields that the tokens of their lines describe. -/
theorem forall₂_describes_iff {lines : List PlacedLine} {nodes : List Node}
    (h : List.Forall₂ PlacedLine.HasNode lines nodes)
    (hlines : ∀ l ∈ lines, ∀ c ∈ l.chars, isLineEnd c = false) {fields : List Field} :
    List.Forall₂ (fun l f => Describes (tokens l.chars) f) lines fields ↔
      List.Forall₂ Declares nodes fields := by
  induction h generalizing fields with
  | nil => rw [List.forall₂_nil_left_iff, List.forall₂_nil_left_iff]
  | cons hnode _ ih =>
      rw [List.forall_mem_cons] at hlines
      rw [List.forall₂_cons_left_iff, List.forall₂_cons_left_iff]
      simp only [describes_iff_of_hasNode hnode hlines.1, ih hlines.2]

/-- Lines that describe fields are well-shaped. -/
theorem wellShaped_of_describes {lines : List PlacedLine} {fields : List Field}
    (h : List.Forall₂ (fun l f => Describes (tokens l.chars) f) lines fields) :
    ∀ l ∈ lines, WellShaped l.chars := by
  induction h with
  | nil => simp
  | cons hdescribes _ ih =>
      rcases describes_iff.1 hdescribes with ⟨e, he, hwords, _⟩
      exact List.forall_mem_cons.2 ⟨.inr ⟨e, he, hwords⟩, ih⟩

/-! ## Texts -/

/-- Fields with names of their own make a layout. -/
theorem ofFields_eq_ok_iff {fields : List Field} {l : Layout} :
    ofFields fields = .ok l ↔ l.fields = fields := by
  unfold ofFields
  split
  · next name hrepeat =>
      constructor
      · intro h
        cases h
      · rintro rfl
        rw [firstRepeat?_eq_none_iff.2 l.names_nodup] at hrepeat
        cases hrepeat
  · next hnone =>
      rw [Except.ok.injEq]
      constructor
      · rintro rfl
        rfl
      · intro h
        cases l
        cases h
        rfl

/-- A text is read as the layout whose fields its lines describe. -/
theorem parse_eq_ok_iff {text : String} {l : Layout} :
    (parse text).value = .ok l ↔
      List.Forall₂ Describes (tokenLines (cutLines text.toList)) l.fields := by
  rw [← tokens_placedLines, List.forall₂_map_left_iff]
  by_cases hshaped : ∀ line ∈ placedLines [] text.toList, WellShaped line.chars
  · rcases parseWith_of_wellShaped .standard hshaped with ⟨nodes, hnodes, hparse⟩
    have hlines : ∀ line ∈ (placedLines [] text.toList).filter fun line => hasTokens line.chars,
        ∀ c ∈ line.chars, isLineEnd c = false := by
      intro line hline
      exact not_isLineEnd_of_mem_placedLines (List.mem_of_mem_filter hline)
    have hfresh : Fresh [] l.fields := ⟨l.names_nodup, fun f _ => rfl⟩
    rw [forall₂_describes_iff hnodes hlines, parse, hparse, Traced.map_value]
    constructor
    · intro h
      cases hdeclare : (declare text.toList [] nodes).value with
      | error fault =>
          rw [hdeclare] at h
          cases h
      | ok fields =>
          rw [hdeclare] at h
          rw [← ofFields_eq_ok_iff.1 h] at hdeclare
          exact (declare_eq_ok_iff.1 hdeclare).1
    · intro h
      rw [declare_eq_ok_iff.2 ⟨h, hfresh⟩]
      exact ofFields_eq_ok_iff.2 rfl
  · simp only [not_forall] at hshaped
    rcases hshaped with ⟨line, hmem, hline⟩
    rcases exists_malformed_of_mem hmem hline with ⟨number, expected, shown, hparse⟩
    rw [hparse]
    constructor
    · intro h
      cases h
    · intro h
      have htokens : hasTokens line.chars = true := hasTokens_iff.2 fun hnil => hline (.inl hnil)
      exact absurd (wellShaped_of_describes h line (List.mem_filter.2 ⟨hmem, htokens⟩)) hline

/-- A text is a layout exactly if each of its lines with tokens describes a field and no
two of the fields have the same name; the layout has those fields, in that order. -/
theorem parse_accepts_iff (text : String) (fields : List Field) :
    (∃ l, (parse text).value = .ok l ∧ l.fields = fields) ↔
      List.Forall₂ Describes (tokenLines (cutLines text.toList)) fields
        ∧ (fields.map Field.name).Nodup := by
  constructor
  · intro h
    rcases h with ⟨l, hparse, rfl⟩
    exact ⟨parse_eq_ok_iff.1 hparse, l.names_nodup⟩
  · intro h
    rcases h with ⟨hlines, hnodup⟩
    exact ⟨⟨fields, hnodup⟩, parse_eq_ok_iff.2 hlines, rfl⟩

end Layout
end DataBlock
