import DataBlock.Proofs.LayoutLanguage

/-!
# Where and why a text is rejected

A text is rejected at the first line that has not the shape of a blank line, a comment or an
entry, whatever its entries mean; and, if there is none, at the first entry that describes
no field or a field whose name was used before.  In the latter case the entries in front of
it are told of.

Main results:

- `Entry.Faulty`: what is wrong with the meaning of an entry.
- `Layout.declare_eq_error`: where the declaration of entries ends.
- `Layout.MisdeclaredAt`: a line whose entry cannot be declared behind others.
- `Layout.parse_rejects_at`: at which line a text is rejected, why, and after which events.
-/

namespace DataBlock

/-! ## The meaning of an entry -/

namespace Entry

/-- What is wrong with the meaning of an entry: a number or a bit index is too large, there is
no type of the word with the length, or a bit index is missing or needless. -/
inductive Faulty (e : Entry) : EntryFault → Prop where
  | byteTooLarge (hlarge : 2 ^ (64 : Nat) ≤ Decimal.value e.byte) :
      Faulty e (.numberTooLarge (String.ofList e.byte))
  | bitTooLarge {digits : List Char} (hbit : e.bit = some digits)
      (hlarge : 2 ^ (64 : Nat) ≤ Decimal.value digits) :
      Faulty e (.numberTooLarge (String.ofList digits))
  | bitAboveSeven {digits : List Char} (hbit : e.bit = some digits)
      (hlarge : 7 < Decimal.value digits) : Faulty e (.bitIndex (Decimal.value digits))
  | lengthTooLarge {digits : List Char} (hlength : e.length = some digits)
      (hlarge : 2 ^ (64 : Nat) ≤ Decimal.value digits) :
      Faulty e (.numberTooLarge (String.ofList digits))
  | noType {cause : WordFault} (hnone : ∀ t, ¬ FieldType.Named
      ((String.ofList e.word).map Char.toUpper) (e.length.map Decimal.value) t)
      (hcause : FieldType.ofWord (String.ofList e.word) (e.length.map Decimal.value)
        = .error cause) : Faulty e (.word cause)
  | missingBit (htype : FieldType.Named ((String.ofList e.word).map Char.toUpper)
      (e.length.map Decimal.value) .bool) (hbit : e.bit = none) :
      Faulty e (.missingBit (String.ofList e.name))
  | needlessBit {t : FieldType} (htype : FieldType.Named
      ((String.ofList e.word).map Char.toUpper) (e.length.map Decimal.value) t)
      (hne : t ≠ .bool) (hbit : e.bit ≠ none) : Faulty e (.needlessBit t)

/-- A number is refused because it is too large. -/
theorem number_eq_error_iff {digits : List Char} {cause : EntryFault} :
    number digits = .error cause ↔
      2 ^ (64 : Nat) ≤ Decimal.value digits ∧ .numberTooLarge (String.ofList digits) = cause := by
  unfold number
  split
  · next hlt =>
      constructor
      · intro h
        cases h
      · rintro ⟨hle, _⟩
        exact absurd hlt (Nat.not_lt.2 hle)
  · next hge =>
      rw [Except.error.injEq]
      exact ⟨fun h => ⟨Nat.not_lt.1 hge, h⟩, fun h => h.2⟩

/-- A bit index is refused because it is too large for a number or for a byte. -/
theorem faulty_of_bitNumber {e : Entry} {digits : List Char} {cause : EntryFault}
    (hbit : e.bit = some digits) (h : bitNumber digits = .error cause) : e.Faulty cause := by
  rw [bitNumber, Outcome.bind_eq_error_iff] at h
  rcases h with h | ⟨i, hi, h⟩
  · rcases number_eq_error_iff.1 h with ⟨hlarge, rfl⟩
    exact .bitTooLarge hbit hlarge
  · rcases number_eq_ok_iff.1 hi with ⟨rfl, _⟩
    split at h
    · cases h
    · next hle =>
        cases h
        exact .bitAboveSeven hbit (Nat.not_le.1 hle)

/-- A part of an entry that is refused is given. -/
theorem mapM_eq_error_iff {α : Type} {f : List Char → Except EntryFault α}
    {part : Option (List Char)} {cause : EntryFault} :
    part.mapM f = .error cause ↔ ∃ cs, part = some cs ∧ f cs = .error cause := by
  cases part with
  | none => simp [pure, Except.pure]
  | some cs => cases h : f cs <;> simp [h, Functor.map, Except.map]

/-- A length that is read is the number of its digits. -/
theorem eq_of_mapM_number {part : Option (List Char)} {length : Option Nat}
    (h : part.mapM number = .ok length) : length = part.map Decimal.value := by
  rcases mapM_eq_ok_iff.1 h with ⟨rfl, rfl⟩ | ⟨cs, n, rfl, hn, rfl⟩
  · rfl
  · rw [Option.map_some, (number_eq_ok_iff.1 hn).1]

/-- An entry that describes no field is faulty in the way that is told of. -/
theorem faulty_of_field {e : Entry} {cause : EntryFault} (h : e.field = .error cause) :
    e.Faulty cause := by
  simp only [field, Outcome.bind_eq_error_iff, Outcome.mapError_eq_error_iff,
    Outcome.mapError_eq_ok_iff] at h
  rcases h with hbyte | ⟨offset, _, hbit | ⟨bit, hbit, hlength | ⟨length, hlength, hrest⟩⟩⟩
  · rcases number_eq_error_iff.1 hbyte with ⟨hlarge, rfl⟩
    exact .byteTooLarge hlarge
  · rcases mapM_eq_error_iff.1 hbit with ⟨digits, hdigits, hbit⟩
    exact faulty_of_bitNumber hdigits hbit
  · rcases mapM_eq_error_iff.1 hlength with ⟨digits, hdigits, hnumber⟩
    rcases number_eq_error_iff.1 hnumber with ⟨hlarge, rfl⟩
    exact .lengthTooLarge hdigits hlarge
  · rw [eq_of_mapM_number hlength] at hrest
    rcases hrest with ⟨wordCause, hword, rfl⟩ | ⟨type, htype, h⟩
    · refine .noType ?_ hword
      intro t ht
      rw [FieldType.ofWord_eq_ok_iff.2 ht] at hword
      cases hword
    · rw [FieldType.ofWord_eq_ok_iff] at htype
      have hnone : bit = none ↔ e.bit = none := by
        rcases mapM_eq_ok_iff.1 hbit with ⟨hpart, rfl⟩ | ⟨cs, i, hpart, _, rfl⟩
        · simp [hpart]
        · simp [hpart]
      split at h
      · next hmissing =>
          rcases hmissing with ⟨rfl, hbit⟩
          cases h
          exact .missingBit htype (hnone.1 hbit)
      · split at h
        · next hneedless =>
            cases h
            exact .needlessBit htype hneedless.1 (mt hnone.2 hneedless.2)
        · cases h

end Entry

namespace Layout

/-! ## Declarations -/

/-- Why the entry of a node is refused behind the names that were used before. -/
inductive Refused (text : List Char) (seen : List (String × Nat)) (node : Node) : Fault → Prop where
  | entry {cause : EntryFault} {shown : String} (h : node.field = .error cause) :
      Refused text seen node (.layoutText (lineNumber text node.start) (.entry cause shown))
  | duplicate {f : Field} {first : Nat} (hf : node.field = .ok f)
      (hseen : seen.lookup f.name = some first) : Refused text seen node
        (.layoutText (lineNumber text node.start) (.duplicateName f.name first))

/-- The names of the fields that nodes declare, with the numbers of their lines, the last
one first. -/
def declared (text : List Char) (nodes : List Node) (fields : List Field) : List (String × Nat) :=
  ((nodes.zip fields).map fun p => (p.2.name, lineNumber text p.1.start)).reverse

/-- Where entries cannot be declared, one of them is refused, and those in front of it are
declared and told of. -/
theorem declare_eq_error {text : List Char} {seen : List (String × Nat)} {nodes : List Node}
    {fault : Fault} (h : (declare text seen nodes).value = .error fault) :
    ∃ before node after fields, nodes = before ++ node :: after
      ∧ List.Forall₂ Declares before fields ∧ Fresh seen fields
      ∧ Refused text (declared text before fields ++ seen) node fault
      ∧ (declare text seen nodes).events
        = (before.zip fields).map fun p => .layoutEntry (lineNumber text p.1.start) p.2 := by
  -- Every entry that is declared adds its name to those that the others are declared behind.
  induction nodes generalizing seen fault with
  | nil => cases h
  | cons node nodes ih =>
      rw [declare] at h ⊢
      cases hfield : node.field with
      | error cause =>
          rw [hfield] at h
          cases h
          exact ⟨[], _, nodes, [], rfl, .nil, ⟨List.nodup_nil, by simp⟩, .entry hfield, rfl⟩
      | ok field =>
          cases hlookup : seen.lookup field.name with
          | some first =>
              simp only [hfield, hlookup] at h
              cases h
              exact ⟨[], _, nodes, [], rfl, .nil, ⟨List.nodup_nil, by simp⟩,
                .duplicate hfield hlookup, by simp only [hlookup]; rfl⟩
          | none =>
              simp only [hfield, hlookup, Outcome.map_eq_error_iff] at h
              rcases ih h with ⟨before, refused, after, fields, rfl, hfields, hfresh, hrefused,
                hevents⟩
              refine ⟨node :: before, refused, after, field :: fields, rfl,
                .cons hfield hfields, (fresh_cons_iff _).2 ⟨hlookup, hfresh⟩, ?_, ?_⟩
              · have hseen : declared text (node :: before) (field :: fields) ++ seen
                    = declared text before fields
                      ++ (field.name, lineNumber text node.start) :: seen := by
                  simp [declared]
                rwa [hseen]
              · simp only [hlookup, hevents]
                rfl

/-- Fields with names of their own make a layout, so that the layout is refused only in the
declaration of its entries. -/
theorem declare_eq_error_of_bind {text : List Char} {nodes : List Node} {fault : Fault}
    (h : (declare text [] nodes).value.bind ofFields = .error fault) :
    (declare text [] nodes).value = .error fault := by
  cases hdeclare : (declare text [] nodes).value with
  | error fault' =>
      rw [hdeclare] at h
      cases h
      rfl
  | ok fields =>
      have hnodup := (declare_eq_ok_iff.1 hdeclare).2.1
      have hlayout : ofFields fields = .ok ⟨fields, hnodup⟩ := ofFields_eq_ok_iff.2 rfl
      rw [hdeclare, Outcome.bind_eq, Outcome.ok_bind, hlayout] at h
      cases h

/-! ## Rejected texts -/

/-- Behind lines that declare fields, the entry of a line cannot be declared: it describes no
field, because something is wrong with its meaning, or one whose name was used before. -/
inductive MisdeclaredAt (earlier : List (PlacedLine × Field)) (line : PlacedLine) :
    Fault → Prop where
  | entry {e : Entry} {cause : EntryFault} {shown : String} (he : e.WellFormed)
      (hwords : tokens line.chars = e.words) (hnone : ∀ f, ¬ Describes (tokens line.chars) f)
      (hfaulty : e.Faulty cause) :
      MisdeclaredAt earlier line (.layoutText line.number (.entry cause shown))
  | duplicate {f g : Field} {first : PlacedLine} (hf : Describes (tokens line.chars) f)
      (hfirst : (first, g) ∈ earlier) (hname : g.name = f.name) :
      MisdeclaredAt earlier line (.layoutText line.number (.duplicateName f.name first.number))

section Placed

variable {text : List Char} {lines : List PlacedLine} {nodes : List Node}

/-- The nodes in lines of a text have the numbers of the lines, beside the fields that they
declare. -/
theorem map_zip_of_hasNode {α : Type} (h : List.Forall₂ PlacedLine.HasNode lines nodes)
    (hlines : ∀ l ∈ lines, l ∈ placedLines [] text) (g : Nat → Field → α) (fields : List Field) :
    ((nodes.zip fields).map fun p => g (lineNumber text p.1.start) p.2)
      = (lines.zip fields).map fun p => g p.1.number p.2 := by
  induction h generalizing fields with
  | nil => rfl
  | cons hnode _ ih =>
      rw [List.forall_mem_cons] at hlines
      cases fields with
      | nil => rfl
      | cons f fields =>
          rw [List.zip_cons_cons, List.zip_cons_cons, List.map_cons, List.map_cons,
            lineNumber_of_mem_placedLines hlines.1 hnode.le_start hnode.start_le, ih hlines.2]

/-- Lines are split where their nodes are. -/
theorem exists_split_of_hasNode {nodesAfter : List Node} {node : Node}
    (h : List.Forall₂ PlacedLine.HasNode lines (nodes ++ node :: nodesAfter)) :
    ∃ before line after, lines = before ++ line :: after
      ∧ List.Forall₂ PlacedLine.HasNode before nodes ∧ line.HasNode node := by
  induction nodes generalizing lines with
  | nil =>
      rcases List.forall₂_cons_right_iff.1 h with ⟨line, after, hnode, _, rfl⟩
      exact ⟨[], line, after, rfl, .nil, hnode⟩
  | cons first nodes ih =>
      rcases List.forall₂_cons_right_iff.1 h with ⟨l, lines, hfirst, hrest, rfl⟩
      rcases ih hrest with ⟨before, line, after, rfl, hbefore, hnode⟩
      exact ⟨l :: before, line, after, rfl, .cons hfirst hbefore, hnode⟩

/-- What an entry is refused for, as it stands in its line. -/
theorem misdeclaredAt_of_refused {before : List PlacedLine} {fields : List Field}
    (hnodes : List.Forall₂ PlacedLine.HasNode before nodes)
    (hbefore : ∀ l ∈ before, l ∈ placedLines [] text) {line : PlacedLine} {node : Node}
    (hnode : line.HasNode node) (hline : line ∈ placedLines [] text) {fault : Fault}
    (h : Refused text (declared text nodes fields) node fault) :
    MisdeclaredAt (before.zip fields) line fault := by
  have hchars := not_isLineEnd_of_mem_placedLines hline
  have hnumber := lineNumber_of_mem_placedLines hline hnode.le_start hnode.start_le
  cases h with
  | @entry cause shown hfield =>
      rcases hnode.entry with ⟨e, he, hwords, hof⟩
      have hentry : e.field = .error cause := by
        rw [← hfield, Node.field, hof, Outcome.ok_bind]
      rw [hnumber]
      refine .entry he hwords ?_ (Entry.faulty_of_field hentry)
      intro f hf
      have hdeclares := (describes_iff_of_hasNode hnode hchars).1 hf
      cases hfield.symm.trans hdeclares
  | @duplicate f first hf hseen =>
      rcases List.lookup_eq_some_iff.1 hseen with ⟨later, sooner, hsplit, _⟩
      have hmem : (f.name, first) ∈ declared text nodes fields := by
        rw [hsplit]
        simp
      have hzip := map_zip_of_hasNode hnodes hbefore (fun n f => (f.name, n)) fields
      rw [declared, List.mem_reverse, hzip] at hmem
      rcases List.mem_map.1 hmem with ⟨p, hp, hfirst⟩
      rcases Prod.mk.inj hfirst with ⟨hname, rfl⟩
      rw [hnumber]
      exact .duplicate ((describes_iff_of_hasNode hnode hchars).2 hf) hp hname

end Placed

/-- A text whose lines are well-shaped is rejected at the first line with tokens whose entry
cannot be declared, and the entries in front of it are told of. -/
theorem parseWith_eq_error_of_wellShaped {report : Reporter} {text : String} {fault : Fault}
    (hshaped : ∀ l ∈ placedLines [] text.toList, WellShaped l.chars)
    (h : (parseWith report text).value = .error fault) :
    ∃ before line after fields,
      ((placedLines [] text.toList).filter fun l => hasTokens l.chars) = before ++ line :: after
      ∧ List.Forall₂ (fun l f => Describes (tokens l.chars) f) before fields
      ∧ (fields.map Field.name).Nodup ∧ MisdeclaredAt (before.zip fields) line fault
      ∧ (parseWith report text).events
        = (before.zip fields).map fun p => .layoutEntry p.1.number p.2 := by
  rcases parseWith_of_wellShaped report hshaped with ⟨nodes, hnodes, hparse⟩
  rw [hparse, Traced.map_value] at h
  rcases declare_eq_error (declare_eq_error_of_bind h) with
    ⟨nodesBefore, node, nodesAfter, fields, rfl, hfields, hfresh, hrefused, htold⟩
  rcases exists_split_of_hasNode hnodes with ⟨before, line, after, hlines, hbefore, hnode⟩
  have hmem : ∀ l ∈ before ++ line :: after, l ∈ placedLines [] text.toList := by
    rw [← hlines]
    intro l hl
    exact List.mem_of_mem_filter hl
  rw [List.forall_mem_append, List.forall_mem_cons] at hmem
  have hchars : ∀ l ∈ before, ∀ c ∈ l.chars, isLineEnd c = false := by
    intro l hl
    exact not_isLineEnd_of_mem_placedLines (hmem.1 l hl)
  rw [List.append_nil] at hrefused
  refine ⟨before, line, after, fields, hlines, (forall₂_describes_iff hbefore hchars).2 hfields,
    hfresh.1, misdeclaredAt_of_refused hbefore hmem.1 hnode hmem.2.1 hrefused, ?_⟩
  rw [hparse, ← map_zip_of_hasNode hbefore hmem.1 Event.layoutEntry]
  exact htold

/-- A text that is rejected is rejected at its first line that is not well-shaped, whatever the
other lines mean and without any entry being told of.  If there is no such line, it is
rejected at the first line with tokens whose entry cannot be declared behind those in front of
it, which are told of in order.  The number of the line that is told of counts the line feeds
in front of it.  All that is asked of the way in which malformed texts are told of is that it
names the line of the furthest failure. -/
theorem parse_rejects_at {report : Reporter} (hreport : report.AtFurthest) {text : String}
    {fault : Fault} (h : (parseWith report text).value = .error fault) :
    (∀ before line after, placedLines [] text.toList = before ++ line :: after →
      (∀ l ∈ before, WellShaped l.chars) → ¬ WellShaped line.chars →
      (∃ expected shown, fault = .layoutText line.number (.malformed expected shown))
        ∧ (parseWith report text).events = [])
    ∧ ((∀ l ∈ placedLines [] text.toList, WellShaped l.chars) →
      ∃ before line after fields,
        ((placedLines [] text.toList).filter fun l => hasTokens l.chars)
          = before ++ line :: after
        ∧ List.Forall₂ (fun l f => Describes (tokens l.chars) f) before fields
        ∧ (fields.map Field.name).Nodup ∧ MisdeclaredAt (before.zip fields) line fault
        ∧ (parseWith report text).events
          = (before.zip fields).map fun p => .layoutEntry p.1.number p.2) := by
  constructor
  · intro before line after hlines hbefore hline
    rcases parseWith_of_not_wellShaped hreport hlines hbefore hline with
      ⟨expected, shown, hparse⟩
    rw [hparse] at h ⊢
    cases h
    exact ⟨⟨expected, shown, rfl⟩, rfl⟩
  · intro hshaped
    exact parseWith_eq_error_of_wellShaped hshaped h

/-- A line that is no entry wins over a bit without its index in front of it; the carriage
return between them does not count.  A name that is used again is told of with both lines,
behind the fields in front of it. -/
theorem parse_rejects_at_second_line :
    ((parseWith .standard "0 a BOOL\r# b\r\n1 c INT WORD\n").events = []
      ∧ ∃ expected shown, (parseWith .standard "0 a BOOL\r# b\r\n1 c INT WORD\n").value
        = .error (.layoutText 2 (.malformed expected shown)))
    ∧ (parseWith .standard "0 a INT\n2.3 b BOOL\r4 a REAL\n").value
      = .error (.layoutText 2 (.duplicateName "a" 1))
    ∧ ∃ before line after fields,
      ((placedLines [] "0 a INT\n2.3 b BOOL\r4 a REAL\n".toList).filter fun l =>
        hasTokens l.chars) = before ++ line :: after
      ∧ MisdeclaredAt (before.zip fields) line (.layoutText 2 (.duplicateName "a" 1))
      ∧ (before.zip fields).map (fun p => Event.layoutEntry p.1.number p.2)
        = [.layoutEntry 1 ⟨"a", 0, none, .integer .int⟩,
          .layoutEntry 2 ⟨"b", 2, some 3, .bool⟩] := by
  have hmalformed : (parseWith .standard "0 a BOOL\r# b\r\n1 c INT WORD\n").value
      = .error (.layoutText 2 (.malformed [.endOfInput] "1 c INT WORD")) := by decide +kernel
  have hduplicate : (parseWith .standard "0 a INT\n2.3 b BOOL\r4 a REAL\n").value
      = .error (.layoutText 2 (.duplicateName "a" 1)) := by decide +kernel
  have hevents : (parseWith .standard "0 a INT\n2.3 b BOOL\r4 a REAL\n").events
      = [.layoutEntry 1 ⟨"a", 0, none, .integer .int⟩,
        .layoutEntry 2 ⟨"b", 2, some 3, .bool⟩] := by
    decide +kernel
  have hshaped : ∀ l ∈ placedLines [] "0 a INT\n2.3 b BOOL\r4 a REAL\n".toList,
      WellShaped l.chars := by
    have hpassed : ∀ l ∈ placedLines [] "0 a INT\n2.3 b BOOL\r4 a REAL\n".toList,
        ((Grammar.line.run ⟨0, l.chars⟩).found.map fun r => r.1.rest) = some [] := by
      decide +kernel
    intro l hl
    exact (Grammar.wellShaped_iff (not_isLineEnd_of_mem_placedLines hl)).2 (hpassed l hl)
  have hthird : placedLines [] "0 a BOOL\r# b\r\n1 c INT WORD\n".toList
      = [⟨[], "0 a BOOL".toList⟩, ⟨"0 a BOOL\r".toList, "# b".toList⟩]
        ++ ⟨"0 a BOOL\r# b\r\n".toList, "1 c INT WORD".toList⟩
        :: [⟨"0 a BOOL\r# b\r\n1 c INT WORD\n".toList, []⟩] := by decide +kernel
  have hchars : ∀ l ∈ placedLines [] "0 a BOOL\r# b\r\n1 c INT WORD\n".toList,
      ∀ c ∈ l.chars, isLineEnd c = false := fun l hl => not_isLineEnd_of_mem_placedLines hl
  rw [hthird, List.forall_mem_append, List.forall_mem_cons, List.forall_mem_cons,
    List.forall_mem_cons] at hchars
  have hbit : WellShaped "0 a BOOL".toList :=
    (Grammar.wellShaped_iff hchars.1.1).2 (by decide +kernel)
  have hcomment : WellShaped "# b".toList := .inl (by decide +kernel)
  have hword : ¬ WellShaped "1 c INT WORD".toList :=
    mt (Grammar.wellShaped_iff hchars.2.1).1 (by decide +kernel)
  have hbefore : ∀ l ∈ [(⟨[], "0 a BOOL".toList⟩ : PlacedLine),
      ⟨"0 a BOOL\r".toList, "# b".toList⟩], WellShaped l.chars := by
    rw [List.forall_mem_cons, List.forall_mem_singleton]
    exact ⟨hbit, hcomment⟩
  rcases (parse_rejects_at Reporter.atFurthest_standard hmalformed).1 _ _ _ hthird hbefore hword
    with ⟨_, hnone⟩
  rcases (parse_rejects_at Reporter.atFurthest_standard hduplicate).2 hshaped with
    ⟨before, line, after, fields, hlines, _, _, hat, htold⟩
  exact ⟨⟨hnone, _, _, hmalformed⟩, hduplicate, before, line, after, fields, hlines, hat,
    htold.symm.trans hevents⟩

end Layout
end DataBlock
