import DataBlock.Layout.Listing
import DataBlock.Proofs.LayoutLanguage.Declarable

/-!
# Listings in the language of layouts

A listing is written in the text format of layouts: the line of a field has its address,
its name and its type in columns.  The column of addresses has room for seven characters
and a blank.  A longer address leaves no blank, so that address and name become one token.

Main results:

- `Field.tokens_line`: the tokens of the line of a field with a short address.
- `Field.tokens_line_of_long`: those of the line of a field with a long one.
- `Layout.exists_malformed_of_mem`: a text with a malformed line is refused for its shape.
- `Layout.parse_listing`: a listing is read as its layout if all addresses are short, and
  is malformed otherwise.
-/

namespace DataBlock

/-! ## The line of a field -/

/-- Blanks in front are no part of a token. -/
theorem tokens_replicate_space (n : Nat) (cs : List Char) :
    tokens (List.replicate n ' ' ++ cs) = tokens cs := by
  induction n with
  | zero => rfl
  | succ n ih => rw [List.replicate_succ, List.cons_append, tokens_gap (by decide), ih]

/-- A token ends where the filling of its column begins. -/
theorem stops_replicate_space {n : Nat} (h : 0 < n) (cs : List Char) :
    Stops (List.replicate n ' ' ++ cs) := by
  rcases Nat.exists_eq_add_of_le' h with ⟨m, rfl⟩
  intro c hc
  cases hc
  decide

theorem Column.toList_left (width : Nat) (s : String) :
    (Column.left width s).toList = s.toList ++ List.replicate (width - s.length) ' ' := by
  simp [left, spaces]

namespace Field

/-- The line of a field: three columns, of which the last one has two blanks in front. -/
theorem toList_line (nameWidth : Nat) (f : Field) :
    (f.line nameWidth).toList
      = f.address.toList ++ (List.replicate (8 - f.address.length) ' '
        ++ (f.name.toList ++ (List.replicate (nameWidth - f.name.length + 2) ' '
          ++ f.type.text.toList))) := by
  have htwo : "  ".toList = List.replicate 2 ' ' := by decide
  simp only [line, String.toList_append, Column.toList_left, htwo, List.append_assoc,
    List.replicate_add]

/-- After the name comes one token, the type. -/
theorem tokens_behind_name {f : Field} (hf : f.Declarable) {n : Nat} (hn : 0 < n)
    {word : List Char} (hne : word ≠ []) (hword : ∀ c ∈ word, isNameChar c = true) :
    tokens (word ++ (List.replicate n ' ' ++ f.type.text.toList))
      = [word, f.type.text.toList] := by
  rcases hf.type.isNameChar with ⟨htype, hchars⟩
  have hlast : tokens f.type.text.toList = [f.type.text.toList] := by
    have hstops : Stops [] := by simp [Stops]
    have hend := tokens_append htype hchars hstops
    rwa [List.append_nil, tokens_nil] at hend
  rw [tokens_append hne hword (stops_replicate_space hn _), tokens_replicate_space, hlast]

/-- The line of a field with a short address has three tokens. -/
theorem tokens_line {f : Field} (hf : f.Declarable) (hshort : f.address.length ≤ 7)
    (nameWidth : Nat) :
    tokens (f.line nameWidth).toList
      = [f.address.toList, f.name.toList, f.type.text.toList] := by
  rcases hf.address.isNameChar with ⟨haddress, hchars⟩
  have hname : ∀ c ∈ f.name.toList, isNameChar c = true := fun c hc => (hf.name_chars c hc).1
  have hgap : 0 < 8 - f.address.length := by omega
  rw [toList_line, tokens_append haddress hchars (stops_replicate_space hgap _),
    tokens_replicate_space, tokens_behind_name hf (by omega) hf.name_ne_nil hname]

/-- In the line of a field with a long address, address and name are one token. -/
theorem tokens_line_of_long {f : Field} (hf : f.Declarable) (hlong : 8 ≤ f.address.length)
    (nameWidth : Nat) :
    tokens (f.line nameWidth).toList
      = [f.address.toList ++ f.name.toList, f.type.text.toList] := by
  rcases hf.address.isNameChar with ⟨haddress, hchars⟩
  have hword : ∀ c ∈ f.address.toList ++ f.name.toList, isNameChar c = true := by
    intro c hc
    rcases List.mem_append.1 hc with hc | hc
    · exact hchars c hc
    · exact (hf.name_chars c hc).1
  have hnone : 8 - f.address.length = 0 := by omega
  rw [toList_line, hnone, List.replicate_zero, List.nil_append, ← List.append_assoc,
    tokens_behind_name hf (by omega) (List.append_ne_nil_of_left_ne_nil haddress _) hword]

/-- The line of a field with a short address declares the field. -/
theorem describes_line {f : Field} (hf : f.Declarable) (hshort : f.address.length ≤ 7)
    (nameWidth : Nat) : Describes (tokens (f.line nameWidth).toList) f := by
  rw [tokens_line hf hshort]
  exact .entry hf.address (String.ofList_toList).symm hf.type hf.bit

/-- The line of a field is one line. -/
theorem isLineEnd_line {f : Field} (hf : f.Declarable) (nameWidth : Nat) :
    ∀ c ∈ (f.line nameWidth).toList, isLineEnd c = false := by
  have hspaces : ∀ n, ∀ c ∈ List.replicate n ' ', isLineEnd c = false := by
    intro n c hc
    rw [List.eq_of_mem_replicate hc]
    decide
  have hname : ∀ c ∈ f.name.toList, isLineEnd c = false := fun c hc => (hf.name_chars c hc).2
  rw [toList_line]
  simp only [List.forall_mem_append]
  exact ⟨hf.address.isLineEnd, hspaces _, hname, hspaces _, hf.type.isLineEnd⟩

end Field

/-! ## Listings -/

/-- Lines that are joined by line feeds are the lines of the text. -/
theorem cutLines_intercalate {lines : List (List Char)} (hne : lines ≠ [])
    (h : ∀ line ∈ lines, ∀ c ∈ line, isLineEnd c = false) :
    cutLines (['\n'].intercalate lines) = lines := by
  induction lines with
  | nil => exact absurd rfl hne
  | cons line lines ih =>
      rw [List.forall_mem_cons] at h
      cases lines with
      | nil =>
          rw [List.intercalate_singleton]
          exact cutLines_last h.1
      | cons next lines =>
          rw [List.intercalate_cons_cons, List.append_assoc, cutLines_more h.1 (.feed _),
            ih (List.cons_ne_nil _ _) h.2]

namespace Layout

/-- The lines of the text of a listing are those of its fields. -/
theorem cutLines_listing {l : Layout} (hne : l.fields ≠ [])
    (hl : ∀ f ∈ l.fields, f.Declarable) :
    cutLines l.listing.toList = l.fields.map fun f => (f.line l.nameWidth).toList := by
  have hnewline : "\n".toList = ['\n'] := by decide
  rw [listing, String.toList_intercalate, hnewline, lines, List.map_map]
  apply cutLines_intercalate
  · simpa using hne
  · intro line hline
    rcases List.mem_map.1 hline with ⟨f, hf, rfl⟩
    exact Field.isLineEnd_line (hl f hf) _

/-- The listing of a layout with short addresses is read as the layout. -/
theorem parse_listing_of_short {l : Layout} (hl : ∀ f ∈ l.fields, f.Declarable)
    (hshort : ∀ f ∈ l.fields, f.address.length ≤ 7) : (parse l.listing).value = .ok l := by
  rw [parse_eq_ok_iff]
  by_cases hne : l.fields = []
  · have hempty : l.listing = "" := by rw [listing, lines, hne]; rfl
    rw [hne, hempty]
    exact .nil
  · have htokens : ∀ f ∈ l.fields, tokens (f.line l.nameWidth).toList ≠ [] := by
      intro f hf
      rw [Field.tokens_line (hl f hf) (hshort f hf)]
      exact List.cons_ne_nil _ _
    have hkeep : tokenLines (l.fields.map fun f => (f.line l.nameWidth).toList)
        = l.fields.map fun f => tokens (f.line l.nameWidth).toList := by
      rw [tokenLines, List.map_map]
      apply List.filter_eq_self.2
      intro words hwords
      rcases List.mem_map.1 hwords with ⟨f, hf, rfl⟩
      simpa using htokens f hf
    rw [cutLines_listing hne hl, hkeep, List.forall₂_map_left_iff, List.forall₂_same]
    intro f hf
    exact Field.describes_line (hl f hf) (hshort f hf) _

/-! ## Malformed lines -/

/-- A line with two tokens is not well-shaped. -/
theorem not_wellShaped_of_two_tokens {cs word word' : List Char} (h : tokens cs = [word, word']) :
    ¬ WellShaped cs := by
  rintro (hnil | ⟨e, _, hwords⟩)
  · rw [h] at hnil
    cases hnil
  · rw [h, Entry.words] at hwords
    cases hwords

/-- The listing of a layout with a long address is malformed. -/
theorem parse_listing_of_long {l : Layout} (hl : ∀ f ∈ l.fields, f.Declarable) {f : Field}
    (hf : f ∈ l.fields) (hlong : 8 ≤ f.address.length) :
    ∃ number expected shown,
      (parse l.listing).value = .error (.layoutText number (.malformed expected shown)) := by
  have hmem : (f.line l.nameWidth).toList
      ∈ (placedLines [] l.listing.toList).map PlacedLine.chars := by
    rw [chars_placedLines, cutLines_listing (List.ne_nil_of_mem hf) hl]
    exact List.mem_map_of_mem hf
  rcases List.mem_map.1 hmem with ⟨line, hline, hchars⟩
  have hshape := not_wellShaped_of_two_tokens
    (Field.tokens_line_of_long (hl f hf) hlong l.nameWidth)
  rw [← hchars] at hshape
  rcases exists_malformed_of_mem hline hshape with ⟨number, expected, shown, hparse⟩
  exact ⟨number, expected, shown, by rw [hparse]⟩

/-- The listing of a layout that was read is read as the same layout if every address
takes at most seven characters.  If an address takes more, the listing is refused for the
shape of a line, since no blank stands between that address and the name. -/
theorem parse_listing {text : String} {l : Layout} (h : (parse text).value = .ok l) :
    ((∀ f ∈ l.fields, f.address.length ≤ 7) → (parse l.listing).value = .ok l)
      ∧ ((∃ f ∈ l.fields, 8 ≤ f.address.length) → ∃ number expected shown,
        (parse l.listing).value = .error (.layoutText number (.malformed expected shown))) := by
  have hl := declarable_of_parse h
  constructor
  · exact parse_listing_of_short hl
  · rintro ⟨f, hf, hlong⟩
    exact parse_listing_of_long hl hf hlong

/-- A layout with a bit, a text of usual length, and a name of two bytes in each letter. -/
def listedLayout : Layout where
  fields := [⟨"é", 4, none, .counted .narrow 254⟩, ⟨"flag", 12345, some 0, .bool⟩]
  names_nodup := by decide

/-- A layout with an address of eight characters. -/
def wideLayout : Layout where
  fields := [⟨"ID", 123456, some 7, .bool⟩]
  names_nodup := by decide

theorem parse_listing_of_texts :
    (parse "4 é String\n12345.0 flag bool # 7 characters").value = .ok listedLayout
      ∧ (parse listedLayout.listing).value = .ok listedLayout
      ∧ (parse "123456.7\tID BOOL").value = .ok wideLayout
      ∧ ∃ number expected shown, (parse wideLayout.listing).value
        = .error (.layoutText number (.malformed expected shown)) := by
  have hshort : (parse "4 é String\n12345.0 flag bool # 7 characters").value
      = .ok listedLayout := by decide +kernel
  have hlong : (parse "123456.7\tID BOOL").value = .ok wideLayout := by decide +kernel
  refine ⟨hshort, (parse_listing hshort).1 (by decide), hlong, (parse_listing hlong).2 ?_⟩
  exact ⟨_, List.mem_cons_self, by decide⟩

end Layout
end DataBlock
