import DataBlock.Proofs.LayoutLanguage.Listing
import DataBlock.Proofs.OneLine
import DataBlock.Proofs.StoredFaults
import DataBlock.Row

/-!
# One line for each field

A row is listed with the lines of its layout, each with the value of its field behind it, or
with the fault of the read between angle brackets.  The names of a layout that was read have one
line, and so have the texts of all values and the messages of all faults of a read, whatever the
bytes are.  So the lines of a listing are told apart again: there are as many as fields, and each
is the line of its field.

Main results:

- `textLines_intercalate`, `textLines_join`: the lines of texts that were made of lines.
- `Row.oneLine_shown`: what is shown of a field has one line, whatever the bytes.
- `Row.line_per_field`: the listing and the text of any row with a layout that was read.
-/

namespace DataBlock

/-! ## The lines of a text -/

/-- The lines of a text, which end at line feeds and carriage returns.  Nothing behind the last
line end is no line. -/
def textLines (s : String) : List String :=
  let pieces := (s.toList.splitOnP isLineEnd).map String.ofList
  if pieces.getLast? = some "" then pieces.dropLast else pieces

/-- Lines that are joined by line feeds are the pieces between the line ends of the text. -/
theorem splitOnP_intercalate {lines : List (List Char)} (hne : lines ≠ [])
    (h : ∀ line ∈ lines, ∀ c ∈ line, isLineEnd c = false) :
    (['\n'].intercalate lines).splitOnP isLineEnd = lines := by
  induction lines with
  | nil => exact absurd rfl hne
  | cons line lines ih =>
      rw [List.forall_mem_cons] at h
      cases lines with
      | nil =>
          rw [List.intercalate_singleton]
          exact List.splitOnP_eq_singleton h.1
      | cons next lines =>
          rw [List.intercalate_cons_cons, List.append_assoc, List.singleton_append,
            List.splitOnP_append_cons_of_forall_mem h.1 _ (by decide),
            ih (List.cons_ne_nil _ _) h.2]

/-- The pieces between the line ends of lines that are joined by line feeds. -/
theorem pieces_intercalate {lines : List String} (hne : lines ≠ [])
    (h : ∀ line ∈ lines, OneLine line) :
    (("\n".intercalate lines).toList.splitOnP isLineEnd).map String.ofList = lines := by
  have hfeed : "\n".toList = ['\n'] := by decide
  rw [String.toList_intercalate, hfeed, splitOnP_intercalate, List.map_map]
  · simp [Function.comp_def]
  · simpa using hne
  · intro cs hcs
    rcases List.mem_map.1 hcs with ⟨line, hline, rfl⟩
    exact h line hline

/-- Lines that are joined by line feeds are the lines of the text, if the last one is not
empty. -/
theorem textLines_intercalate {lines : List String} (h : ∀ line ∈ lines, OneLine line)
    (hne : ∀ line ∈ lines, line ≠ "") : textLines ("\n".intercalate lines) = lines := by
  by_cases hnil : lines = []
  · rw [hnil]
    decide
  · have hlast : lines.getLast? ≠ some "" := by
      intro hlast
      exact hne "" (List.mem_of_getLast? hlast) rfl
    simp only [textLines, pieces_intercalate hnil h, if_neg hlast]

/-- The pieces between the line ends of lines with a line feed behind each of them: behind the
last one is an empty piece. -/
theorem pieces_join {lines : List String} (h : ∀ line ∈ lines, OneLine line) :
    (String.join (lines.map fun line => line ++ "\n")).toList.splitOnP isLineEnd
      = lines.map String.toList ++ [[]] := by
  induction lines with
  | nil => rfl
  | cons line lines ih =>
      rw [List.forall_mem_cons] at h
      have hfirst : (line ++ "\n" ++ String.join (lines.map fun line => line ++ "\n")).toList
          = line.toList ++ '\n' :: (String.join (lines.map fun line => line ++ "\n")).toList := by
        simp
      rw [List.map_cons, String.join_cons, hfirst, List.splitOnP_append_cons _ _ (by decide),
        List.splitOnP_eq_singleton h.1, ih h.2]
      rfl

/-- Lines with a line feed behind each of them are the lines of the text. -/
theorem textLines_join {lines : List String} (h : ∀ line ∈ lines, OneLine line) :
    textLines (String.join (lines.map fun line => line ++ "\n")) = lines := by
  have hpieces : (lines.map String.toList ++ [[]]).map String.ofList = lines ++ [""] := by
    simp [Function.comp_def]
  simp only [textLines, pieces_join h, hpieces, List.getLast?_concat, List.dropLast_concat, if_true]

/-! ## Faults of reads -/

/-- Faults of what is stored have numbers in their messages, and no texts. -/
theorem Fault.BlamesStored.texts_eq_nil {fault : Fault} (h : fault.BlamesStored) :
    fault.texts = [] := by
  cases h <;> rfl

theorem Fault.OfRead.texts_eq_nil {fault : Fault} (h : fault.OfRead) : fault.texts = [] := by
  cases h with
  | stored hstored => exact hstored.texts_eq_nil
  | _ => rfl

/-! ## What is shown of a field -/

namespace Row

variable {r : Row} {f : Field}

theorem shown_of_ok {name : String} {v : Value} (h : r.get name = .ok v) :
    r.shown name = v.text := by
  rw [shown, h]

theorem shown_of_error {name : String} {fault : Fault} (h : r.get name = .error fault) :
    r.shown name = "<" ++ fault.message ++ ">" := by
  rw [shown, h]

/-- A fault of a read takes over no text but the name of the field. -/
theorem faults_read (r : Row) (f : Field) :
    Outcome.Faults (fun fault => ∀ s ∈ fault.texts, s = f.name) (r.read f) := by
  refine Outcome.faults_bind ?_ fun offset _ => ?_
  · unfold place
    split
    · exact Outcome.faults_ok _
    · exact Outcome.faults_error fun s hs => List.mem_singleton.1 hs
  · refine (f.type.faults_ofRead r.bytes offset f.bit).mono fun h s hs => ?_
    rw [h.texts_eq_nil] at hs
    cases hs

/-- What is shown of a field has one line if its name has, whatever the bytes. -/
theorem oneLine_shown (hf : f ∈ r.layout.fields) (hname : OneLine f.name) :
    OneLine (r.shown f.name) := by
  cases hget : r.get f.name with
  | ok v =>
      rw [shown_of_ok hget]
      exact v.oneLine_text
  | error fault =>
      have htexts : ∀ s ∈ fault.texts, OneLine s := by
        intro s hs
        rw [get_name hf] at hget
        rw [r.faults_read f fault hget s hs]
        exact hname
      rw [shown_of_error hget, oneLine_append, oneLine_append]
      exact ⟨⟨by decide, Fault.oneLine_message htexts⟩, by decide⟩

/-! ## Lines of rows -/

/-- The line of a field in the listing of a row: the line of the layout listing, with spaces in
front and what is shown behind. -/
def listedLine (r : Row) (indent : Nat) (line : String) (f : Field) : String :=
  Column.spaces (2 * indent) ++ line ++ " = " ++ r.shown f.name

/-- The line of a field in the text of a row. -/
def textLine (r : Row) (f : Field) : String :=
  f.name ++ " = " ++ r.shown f.name

/-- Two spaces for each level of indentation are twice as many spaces. -/
theorem join_replicate_spaces (indent : Nat) :
    String.join (List.replicate indent "  ") = Column.spaces (2 * indent) := by
  have htwo : "  ".toList = List.replicate 2 ' ' := by decide
  apply String.toList_injective
  rw [String.toList_join, List.flatMap_def, List.map_replicate, htwo,
    List.flatten_replicate_replicate, Column.spaces, String.toList_ofList, Nat.mul_comm]

/-- The line of a field in the listing of a row is made of its line in the listing of the layout. -/
theorem fieldLine_eq_listedLine (r : Row) (indent nameWidth : Nat) (f : Field) :
    r.fieldLine indent nameWidth f = r.listedLine indent (f.line nameWidth) f := by
  simp only [fieldLine, listedLine, Field.line, join_replicate_spaces, String.append_assoc]

/-- The lines of a row are those of its layout with what is shown of their fields. -/
theorem lines_eq_zipWith (r : Row) (indent : Nat) :
    r.lines indent = List.zipWith (r.listedLine indent) r.layout.lines r.layout.fields := by
  rw [Layout.lines, List.zipWith_map_left, List.zipWith_self, lines, Layout.nameWidth]
  exact List.map_congr_left fun f _ => r.fieldLine_eq_listedLine indent _ f

/-- Nothing but a name and what is shown of a field could break its line. -/
theorem oneLine_listedLine {indent : Nat} {line : String} (hline : OneLine line)
    (hshown : OneLine (r.shown f.name)) : OneLine (r.listedLine indent line f) := by
  simp only [listedLine, oneLine_append]
  exact ⟨⟨⟨Column.oneLine_spaces _, hline⟩, by decide⟩, hshown⟩

theorem listedLine_ne_empty (r : Row) (indent : Nat) (line : String) (f : Field) :
    r.listedLine indent line f ≠ "" := by
  intro h
  have hlength := congrArg String.length h
  simp [listedLine] at hlength

/-- The row is listed with one line for each field, in either form. -/
structure LinePerField (r : Row) (indent : Nat) : Prop where
  /-- The value or the fault is shown. -/
  shown : ∀ f ∈ r.layout.fields, (∃ v, r.get f.name = .ok v ∧ r.shown f.name = v.text)
    ∨ ∃ fault, r.get f.name = .error fault ∧ r.shown f.name = "<" ++ fault.message ++ ">"
  listing : r.listing indent = "\n".intercalate
    (List.zipWith (r.listedLine indent) (textLines r.layout.listing) r.layout.fields)
  text : r.text = String.join (r.layout.fields.map fun f => r.textLine f ++ "\n")
  oneLine_field : ∀ f ∈ r.layout.fields, OneLine f.name ∧ OneLine (r.shown f.name)
  oneLine_line : ∀ line ∈ textLines r.layout.listing, OneLine line
  lines_listing : textLines (r.listing indent)
    = List.zipWith (r.listedLine indent) (textLines r.layout.listing) r.layout.fields
  lines_text : textLines r.text = r.layout.fields.map r.textLine
  length_listing : (textLines (r.listing indent)).length = r.layout.fields.length
  length_text : (textLines r.text).length = r.layout.fields.length

end Row

/-- The line of a field has two spaces in it. -/
theorem Field.line_ne_empty (nameWidth : Nat) (f : Field) : f.line nameWidth ≠ "" := by
  intro h
  have hlength := congrArg String.length h
  simp [line] at hlength

/-- The lines of a layout that was read are told apart in its listing. -/
theorem Layout.textLines_listing {l : Layout} (hl : ∀ f ∈ l.fields, f.Declarable) :
    textLines l.listing = l.lines := by
  apply textLines_intercalate
  · intro line hline
    rcases List.mem_map.1 hline with ⟨f, hf, rfl⟩
    exact Field.isLineEnd_line (hl f hf) _
  · intro line hline
    rcases List.mem_map.1 hline with ⟨f, _, rfl⟩
    exact f.line_ne_empty _

namespace Row

/-- Whatever the bytes of a row are, wherever its first byte lies in the layout, and however far
it is indented: with a layout that was read, it is listed with one line for each field. -/
theorem line_per_field {source : String} {r : Row}
    (h : (Layout.parse source).value = .ok r.layout) (indent : Nat) : r.LinePerField indent := by
  have hl := Layout.declarable_of_parse h
  have hlayout := Layout.textLines_listing hl
  have hname : ∀ f ∈ r.layout.fields, OneLine f.name := fun f hf c hc =>
    ((hl f hf).name_chars c hc).2
  have hshown : ∀ f ∈ r.layout.fields, OneLine (r.shown f.name) := fun f hf =>
    oneLine_shown hf (hname f hf)
  have hlisting : textLines (r.listing indent) = r.lines indent := by
    apply textLines_intercalate
    · intro line hline
      rcases List.mem_map.1 hline with ⟨f, hf, rfl⟩
      rw [fieldLine_eq_listedLine]
      exact oneLine_listedLine (Field.isLineEnd_line (hl f hf) _) (hshown f hf)
    · intro line hline
      rcases List.mem_map.1 hline with ⟨f, _, rfl⟩
      rw [fieldLine_eq_listedLine]
      exact r.listedLine_ne_empty indent _ f
  have htext : textLines r.text = r.layout.fields.map r.textLine := by
    have hjoin : r.text = String.join ((r.layout.fields.map r.textLine).map (· ++ "\n")) := by
      rw [List.map_map]
      rfl
    rw [hjoin, textLines_join]
    intro line hline
    rcases List.mem_map.1 hline with ⟨f, hf, rfl⟩
    simp only [textLine, oneLine_append]
    exact ⟨⟨hname f hf, by decide⟩, hshown f hf⟩
  exact {
    shown := by
      intro f _
      cases hget : r.get f.name with
      | ok v => exact .inl ⟨v, rfl, shown_of_ok hget⟩
      | error fault => exact .inr ⟨fault, rfl, shown_of_error hget⟩
    listing := by rw [hlayout, ← lines_eq_zipWith, Row.listing]
    text := rfl
    oneLine_field := fun f hf => ⟨hname f hf, hshown f hf⟩
    oneLine_line := by
      intro line hline
      rw [hlayout] at hline
      rcases List.mem_map.1 hline with ⟨f, hf, rfl⟩
      exact Field.isLineEnd_line (hl f hf) _
    lines_listing := by rw [hlisting, hlayout, lines_eq_zipWith]
    lines_text := htext
    length_listing := by rw [hlisting, length_lines]
    length_text := by rw [htext, List.length_map] }

/-- A row whose text is two line ends, and which ends within its number. -/
def brokenRow : Row where
  layout := ⟨[⟨"note", 0, none, .counted .narrow 2⟩, ⟨"é", 4, none, .integer .int⟩], by decide⟩
  layoutOffset := 0
  address := ⟨.dataBlock, 1, 0⟩
  bytes := [2, 2, 10, 13, 1]

/-- Line ends among the bytes and a number that is cut off are shown in two lines. -/
theorem line_per_field_of_brokenRow :
    (Layout.parse "0 note STRING[2]\n4 é INT").value = .ok brokenRow.layout
    ∧ brokenRow.text
      = "note = \"\\n\\r\"\né = <Buffer too small: need 2 bytes at offset 4, have 5>\n"
    ∧ (textLines (brokenRow.listing 1)).length = 2 ∧ brokenRow.LinePerField 1 := by
  have hlayout : (Layout.parse "0 note STRING[2]\n4 é INT").value = .ok brokenRow.layout := by
    decide +kernel
  have hlines := line_per_field hlayout 1
  exact ⟨hlayout, by decide +kernel, hlines.length_listing, hlines⟩

end Row
end DataBlock
