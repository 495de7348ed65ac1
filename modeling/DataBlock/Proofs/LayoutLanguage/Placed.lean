import DataBlock.Layout.Report
import DataBlock.Proofs.LayoutLanguage.Line

/-!
# Where the lines of a text begin

The lines of a text with what is in front of each of them.  The number of a line is one more
than the line feeds in front of it, and every position in the line has that number.

Main results:

- `chars_placedLines`: the lines are those of the text cut at its line ends.
- `isPrefix_of_mem_placedLines`: a line stands behind what is in front of it.
- `lineNumber_of_mem_placedLines`: the positions in a line have its number.
-/

namespace DataBlock

/-! ## Lines with the text in front of them -/

/-- A line of a text, with the text in front of it. -/
structure PlacedLine where
  before : List Char
  chars : List Char
  deriving DecidableEq

/-- One more than the line feeds in front of the line. -/
def PlacedLine.number (l : PlacedLine) : Nat :=
  l.before.count '\n' + 1

/-- The lines of a text that has `before` in front of it.  A line ends at a carriage return
with a line feed behind it, at a line feed, and at a carriage return alone. -/
def placedLines (before : List Char) : List Char → List PlacedLine
  | [] => [⟨before, []⟩]
  | '\r' :: '\n' :: cs => ⟨before, []⟩ :: placedLines (before ++ ['\r', '\n']) cs
  | c :: cs =>
      if c = '\n' ∨ c = '\r' then ⟨before, []⟩ :: placedLines (before ++ [c]) cs
      else (placedLines (before ++ [c]) cs).modifyHead fun l => ⟨before, c :: l.chars⟩

/-- A character that ends no line belongs to the line in front of it. -/
theorem placedLines_cons_of_not_lineEnd {c : Char} (hc : isLineEnd c = false)
    (before cs : List Char) :
    placedLines before (c :: cs)
      = (placedLines (before ++ [c]) cs).modifyHead fun l => ⟨before, c :: l.chars⟩ := by
  have hend : ¬ (c = '\n' ∨ c = '\r') := by simpa [isLineEnd] using hc
  rw [placedLines, if_neg hend]
  rintro cs' rfl
  exact absurd (.inr rfl) hend

section Line

variable {line ending rest : List Char}

theorem placedLines_last (before : List Char) (h : ∀ c ∈ line, isLineEnd c = false) :
    placedLines before line = [⟨before, line⟩] := by
  induction line generalizing before with
  | nil => rfl
  | cons c line ih =>
      rw [List.forall_mem_cons] at h
      rw [placedLines_cons_of_not_lineEnd h.1, ih _ h.2, List.modifyHead_cons]

theorem placedLines_more (before : List Char) (h : ∀ c ∈ line, isLineEnd c = false)
    (hends : EndsLine ending rest) :
    placedLines before (line ++ (ending ++ rest))
      = ⟨before, line⟩ :: placedLines (before ++ line ++ ending) rest := by
  induction line generalizing before with
  | nil =>
      rw [List.append_nil]
      cases hends with
      | pair => rfl
      | feed => rfl
      | carriage hfeed =>
          rw [List.nil_append, List.singleton_append, placedLines, if_pos (.inr rfl)]
          rintro cs _ rfl
          exact hfeed rfl
  | cons c line ih =>
      rw [List.forall_mem_cons] at h
      rw [List.cons_append, placedLines_cons_of_not_lineEnd h.1, ih _ h.2, List.modifyHead_cons,
        List.append_assoc before, List.singleton_append]

end Line

/-- The lines are those of the text cut at its line ends. -/
theorem chars_placedLines (before text : List Char) :
    (placedLines before text).map PlacedLine.chars = cutLines text := by
  induction text using lines_induction generalizing before with
  | last line hline => rw [placedLines_last before hline, cutLines_last hline]; rfl
  | more line ending rest hline hends ih =>
      rw [placedLines_more before hline hends, cutLines_more hline hends, List.map_cons, ih]

/-- A line stands in the text behind what is in front of it. -/
theorem isPrefix_of_mem_placedLines {before text : List Char} {l : PlacedLine}
    (h : l ∈ placedLines before text) : l.before ++ l.chars <+: before ++ text := by
  induction text using lines_induction generalizing before with
  | last line hline =>
      rw [placedLines_last before hline, List.mem_singleton] at h
      subst h
      exact List.prefix_rfl
  | more line ending rest hline hends ih =>
      rw [placedLines_more before hline hends, List.mem_cons] at h
      rcases h with rfl | h
      · rw [← List.append_assoc]
        exact List.prefix_append _ _
      · simpa [List.append_assoc] using ih h

theorem not_isLineEnd_of_mem_placedLines {before text : List Char} {l : PlacedLine}
    (h : l ∈ placedLines before text) : ∀ c ∈ l.chars, isLineEnd c = false := by
  have hmem : l.chars ∈ cutLines text := by
    rw [← chars_placedLines before]
    exact List.mem_map_of_mem h
  exact not_isLineEnd_of_mem_cutLines hmem

/-- The positions in a line have its number. -/
theorem lineNumber_of_mem_placedLines {text : List Char} {l : PlacedLine}
    (h : l ∈ placedLines [] text) {position : Nat} (hle : l.before.length ≤ position)
    (hge : position ≤ l.before.length + l.chars.length) : lineNumber text position = l.number := by
  rcases isPrefix_of_mem_placedLines h with ⟨rest, htext⟩
  have hline := not_isLineEnd_of_mem_placedLines h
  have htake : text.take position
      = l.before ++ l.chars.take (position - l.before.length) := by
    rw [List.nil_append] at htext
    rw [← htext, List.append_assoc, List.take_append, List.take_of_length_le hle,
      List.take_append_of_le_length (by omega)]
  have hcount : (l.chars.take (position - l.before.length)).count '\n' = 0 := by
    apply List.count_eq_zero_of_not_mem
    intro hmem
    have hfeed := hline '\n' (List.mem_of_mem_take hmem)
    exact absurd hfeed (by decide)
  rw [lineNumber, htake, List.count_append, hcount, PlacedLine.number, Nat.add_zero]

/-! ## Lines with tokens -/

/-- Whether a line has tokens. -/
def hasTokens (line : List Char) : Bool :=
  !(tokens line).isEmpty

theorem hasTokens_iff {line : List Char} : hasTokens line = true ↔ tokens line ≠ [] := by
  simp [hasTokens]

/-- The tokens of the lines that have any are those of the text cut at its line ends. -/
theorem tokens_placedLines (text : List Char) :
    ((placedLines [] text).filter fun l => hasTokens l.chars).map (fun l => tokens l.chars)
      = tokenLines (cutLines text) := by
  rw [tokenLines, ← chars_placedLines [], List.map_map, List.filter_map]
  rfl

end DataBlock
