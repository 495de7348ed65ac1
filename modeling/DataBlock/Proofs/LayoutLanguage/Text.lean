import DataBlock.Layout.Parse
import DataBlock.Proofs.LayoutLanguage.Placed
import Mathlib.Data.List.Forall2

/-!
# What the grammar makes of a text

If all lines of a text are well-shaped, the grammar matches the text, and the nodes of the
entries stand in the lines with tokens.  Otherwise it goes up to the first line that is not, and
stops in that line: the end of the text is tried there, and no rule fails any further.

Main results:

- `Grammar.run_moreLines`: behind a line comes a line end with other lines, or nothing.
- `Grammar.run_lines_of_endsLine`: behind a line that is read the lines go on.
- `Grammar.lines_read`: lines that are well-shaped are read, with a node for every entry.
- `Grammar.lines_stop`: where the lines stop if one of them is not well-shaped.
- `Layout.parseWith_of_wellShaped`: a text of well-shaped lines is read from the nodes of its
  entries.
- `Layout.parseWith_of_not_wellShaped`: a text is malformed at its first line that is not
  well-shaped.
-/

namespace DataBlock

/-- A node that holds the entry of a line, and stands in the line. -/
structure PlacedLine.HasNode (l : PlacedLine) (node : Node) : Prop where
  rule : node.rule = .entry
  le_start : l.before.length ≤ node.start
  start_le : node.start ≤ l.before.length + l.chars.length
  entry : ∃ e : Entry, e.WellFormed ∧ tokens l.chars = e.words ∧ Entry.ofNode node = .ok e

namespace Grammar

variable {cs : List Char}

/-! ## Line ends -/

theorem consumes_newline : newline.Consumes :=
  Peg.consumes_orElse (Peg.consumes_char _)
    (Peg.consumes_orElse (Peg.consumes_seq (Peg.consumes_char _) _) (Peg.consumes_char _))

/-- No rule is tried for a line end. -/
theorem quiet_newline : newline.Quiet :=
  Peg.quiet_orElse (Peg.quiet_char _)
    (Peg.quiet_orElse (Peg.quiet_seq (Peg.quiet_char _) (Peg.quiet_char _)) (Peg.quiet_char _))

/-- What begins with a line end begins with one of its characters. -/
theorem isLineEnd_of_endsLine {ending rest : List Char} (h : EndsLine ending rest) :
    ∀ x ∈ (ending ++ rest).head?, isLineEnd x = true := by
  rcases h.head with ⟨c, cs, rfl, hc⟩
  intro x hx
  cases hx
  exact hc

theorem newline_reads {ending rest : List Char} (h : EndsLine ending rest) (n : Nat) :
    newline.Reads n ending rest [] := by
  cases h with
  | pair => rfl
  | feed => rfl
  | carriage hfeed =>
      cases rest with
      | nil => rfl
      | cons x rest =>
          have hx : x ≠ '\n' := by
            rintro rfl
            exact hfeed rfl
          simp [Peg.Reads, newline, one, Peg.run, Match.found_orElse, Match.found_andThen, hx,
            Match.here]

/-- Where no line ends, there is no line end. -/
theorem newline_fails (h : ∀ x ∈ cs.head?, isLineEnd x = false) (n : Nat) :
    newline.run ⟨n, cs⟩ = ⟨none, []⟩ := by
  cases cs with
  | nil => rfl
  | cons x cs =>
      have hx := h x rfl
      rw [isLineEnd, Bool.or_eq_false_iff, beq_eq_false_iff_ne, beq_eq_false_iff_ne] at hx
      simp [newline, one, Peg.run, Match.orElse, Match.andThen, hx]

theorem run_lines (c : Cursor) : lines.run c = (line.run c).andThen moreLines.run :=
  rfl

/-- Behind a line comes a line end with other lines, or nothing. -/
theorem run_moreLines (c : Cursor) :
    moreLines.run c = ((newline.run c).andThen lines.run).orElse fun _ => .here c := by
  have hlines : lines.run = fun c => (line.run c).andThen moreLines.run := funext run_lines
  rw [moreLines, Peg.run_star (Peg.consumes_seq consumes_newline _), Peg.run,
    Match.andThen_assoc, hlines]
  rfl

/-- Behind a line end the lines go on. -/
theorem run_moreLines_of_endsLine {ending rest : List Char} (hends : EndsLine ending rest) {n : Nat}
    {found : Cursor × List Node}
    (h : (lines.run ⟨n + ending.length, rest⟩).found = some found) :
    moreLines.run ⟨n, ending ++ rest⟩ = lines.run ⟨n + ending.length, rest⟩ := by
  have hnewline : newline.run ⟨n, ending ++ rest⟩ = .here ⟨n + ending.length, rest⟩ := by
    have hfound := newline_reads hends n
    have htrials := quiet_newline ⟨n, ending ++ rest⟩
    rw [Peg.Reads] at hfound
    generalize newline.run ⟨n, ending ++ rest⟩ = m at hfound htrials
    rcases m with ⟨found, trials⟩
    cases hfound
    cases htrials
    rfl
  rw [run_moreLines, hnewline]
  rcases hrun : lines.run ⟨n + ending.length, rest⟩ with ⟨_ | ⟨d, nodes⟩, trials⟩
  · rw [hrun] at h
    cases h
  · simp [Match.here, Match.andThen, Match.orElse, hrun]

/-! ## Well-shaped lines -/

/-- A well-shaped line is read, with a node if it has tokens. -/
theorem line_reads {l : PlacedLine} (hline : ∀ x ∈ l.chars, isLineEnd x = false)
    (h : WellShaped l.chars) : ∃ nodes, line.Reads l.before.length l.chars [] nodes
      ∧ List.Forall₂ PlacedLine.HasNode ([l].filter fun l => hasTokens l.chars) nodes := by
  rcases h with hnil | ⟨e, he, hwords⟩
  · have htokens : hasTokens l.chars = false := by simp [hasTokens, hnil]
    refine ⟨[], line_reads_blank hline hnil _, ?_⟩
    simp only [List.filter_cons, htokens]
    exact .nil
  · have htokens : hasTokens l.chars = true := by
      rw [hasTokens_iff, hwords]
      exact List.cons_ne_nil _ _
    rcases line_reads_entry hline he hwords l.before.length with
      ⟨node, hreads, hrule, hle, hge, hnode⟩
    refine ⟨[node], hreads, ?_⟩
    simp only [List.filter_cons, htokens]
    exact .cons ⟨hrule, hle, hge, e, he, hwords, hnode⟩ .nil

/-- Where the first line of more than one is read, the lines go on behind its end. -/
theorem run_lines_of_endsLine {first ending rest : List Char}
    (hfirst : ∀ x ∈ first, isLineEnd x = false) (hends : EndsLine ending rest) {n : Nat}
    {d : Cursor} {nodes nodes' : List Node} (hline : line.Reads n first [] nodes)
    (hlines : (lines.run ⟨n + first.length + ending.length, rest⟩).found = some (d, nodes')) :
    lines.run ⟨n, first ++ (ending ++ rest)⟩ = ⟨some (d, nodes ++ nodes'),
      (line.run ⟨n, first⟩).trials
        ++ (lines.run ⟨n + first.length + ending.length, rest⟩).trials⟩ := by
  have htail := isLineEnd_of_endsLine hends
  have hfound := hline.inFrontOf local_line hfirst htail
  have htrials : (line.run ⟨n, first ++ (ending ++ rest)⟩).trials
      = (line.run ⟨n, first⟩).trials := by
    rw [local_line _ _ _ hfirst htail]
    rfl
  rw [Peg.Reads] at hfound
  rw [run_lines ⟨n, _⟩, Match.andThen, hfound, htrials]
  simp only [run_moreLines_of_endsLine hends hlines, hlines, Option.map_some]

/-- Lines that are well-shaped are read, with a node for every line with tokens. -/
theorem lines_read {before text : List Char}
    (h : ∀ l ∈ placedLines before text, WellShaped l.chars) :
    ∃ nodes, lines.Reads before.length text [] nodes
      ∧ List.Forall₂ PlacedLine.HasNode
        ((placedLines before text).filter fun l => hasTokens l.chars) nodes := by
  induction text using lines_induction generalizing before with
  | last first hfirst =>
      rw [placedLines_last before hfirst] at h ⊢
      rcases line_reads (l := ⟨before, first⟩) hfirst (h _ List.mem_cons_self) with
        ⟨nodes, hreads, hnodes⟩
      have hmore : moreLines.Reads (before.length + first.length) [] [] [] := by
        rw [Peg.Reads, run_moreLines, newline_fails (by simp)]
        rfl
      exact ⟨nodes ++ [], hreads.seq_nil hmore, by rwa [List.append_nil]⟩
  | more first ending rest hfirst hends ih =>
      rw [placedLines_more before hfirst hends] at h ⊢
      rw [List.forall_mem_cons] at h
      rcases line_reads (l := ⟨before, first⟩) hfirst h.1 with ⟨nodes, hreads, hnodes⟩
      rcases ih h.2 with ⟨nodes', hreads', hnodes'⟩
      have hlines : lines.Reads before.length (first ++ (ending ++ rest)) [] (nodes ++ nodes') := by
        rw [List.length_append, List.length_append] at hreads'
        rw [Peg.Reads, List.append_nil] at hreads' ⊢
        rw [run_lines_of_endsLine hfirst hends hreads hreads', List.length_append,
          List.length_append, Nat.add_assoc, Nat.add_assoc]
      refine ⟨nodes ++ nodes', hlines, ?_⟩
      rw [← List.singleton_append, List.filter_append]
      exact List.rel_append hnodes hnodes'

/-! ## Lines that are not well-shaped -/

/-- Where the first line is not well-shaped, the lines stop in it, and no rule fails behind
it. -/
theorem line_stops (hline : ∀ x ∈ cs, isLineEnd x = false) (h : ¬ WellShaped cs)
    {tail : List Char} (htail : ∀ x ∈ tail.head?, isLineEnd x = true) (n : Nat) :
    ∃ d nodes, (lines.run ⟨n, cs ++ tail⟩).found = some (d, nodes) ∧ d.rest ≠ []
      ∧ n ≤ d.position ∧ d.position ≤ n + cs.length
      ∧ ∀ r position, .failed r position ∈ (lines.run ⟨n, cs ++ tail⟩).trials →
        position ≤ n + cs.length := by
  rcases exists_line_passes ⟨n, cs⟩ with ⟨d, nodes, hfound⟩
  have hgoes := Peg.run_goesOn line ⟨n, cs⟩
  have hreaches := hgoes.reaches d nodes hfound
  have hrest : d.rest ≠ [] := fun hnil => h (line_sound ⟨nodes, hfound⟩ hnil)
  have hhead : ∀ x ∈ (d.rest ++ tail).head?, isLineEnd x = false := by
    rcases hreaches with ⟨taken, hsplit, _⟩
    intro x hx
    rw [List.head?_append_of_ne_nil _ hrest] at hx
    apply hline
    have hsplit : cs = taken ++ d.rest := hsplit
    rw [hsplit]
    exact List.mem_append_right _ (List.mem_of_mem_head? hx)
  have hmore : moreLines.run ⟨d.position, d.rest ++ tail⟩ = .here ⟨d.position, d.rest ++ tail⟩ := by
    rw [run_moreLines, newline_fails hhead]
    rfl
  have hrun : lines.run ⟨n, cs ++ tail⟩
      = ⟨some (⟨d.position, d.rest ++ tail⟩, nodes), (line.run ⟨n, cs⟩).trials⟩ := by
    rw [run_lines, local_line n cs tail hline htail, Match.inFrontOf, Match.andThen, hfound]
    simp [hmore, Match.here]
  rw [hrun]
  have hlimit := hreaches.limit_eq
  refine ⟨_, nodes, rfl, by simp [hrest], hreaches.position_le, ?_, hgoes.within⟩
  have hposition : d.position + d.rest.length = n + cs.length := hlimit
  exact hposition ▸ Nat.le_add_right _ _

/-- Where the lines stop if one of them is not well-shaped: in the first such line, and no rule
fails behind it. -/
theorem lines_stop {before text : List Char} {good after : List PlacedLine} {bad : PlacedLine}
    (h : placedLines before text = good ++ bad :: after) (hgood : ∀ l ∈ good, WellShaped l.chars)
    (hbad : ¬ WellShaped bad.chars) :
    ∃ d nodes, (lines.run ⟨before.length, text⟩).found = some (d, nodes) ∧ d.rest ≠ []
      ∧ before.length ≤ bad.before.length
      ∧ bad.before.length ≤ d.position ∧ d.position ≤ bad.before.length + bad.chars.length
      ∧ ∀ r position, .failed r position ∈ (lines.run ⟨before.length, text⟩).trials →
        position ≤ bad.before.length + bad.chars.length := by
  induction text using lines_induction generalizing before good with
  | last first hfirst =>
      rw [placedLines_last before hfirst] at h
      cases good with
      | nil =>
          cases h
          have hnil : ∀ x ∈ ([] : List Char).head?, isLineEnd x = true := by simp
          have hstop := line_stops hfirst hbad hnil before.length
          rw [List.append_nil] at hstop
          rcases hstop with ⟨d, nodes, hfound, hrest, hle, hge, hwithin⟩
          exact ⟨d, nodes, hfound, hrest, le_rfl, hle, hge, hwithin⟩
      | cons g good => simp at h
  | more first ending rest hfirst hends ih =>
      rw [placedLines_more before hfirst hends] at h
      have htail := isLineEnd_of_endsLine hends
      cases good with
      | nil =>
          cases h
          rcases line_stops hfirst hbad htail before.length with
            ⟨d, nodes, hfound, hrest, hle, hge, hwithin⟩
          exact ⟨d, nodes, hfound, hrest, le_rfl, hle, hge, hwithin⟩
      | cons g good =>
          rw [List.cons_append, List.cons.injEq] at h
          rcases h with ⟨rfl, h⟩
          rw [List.forall_mem_cons] at hgood
          rcases ih h hgood.2 with ⟨d, nodes', hfound, hrest, hle, hle', hge, hwithin⟩
          rcases line_reads (l := ⟨before, first⟩) hfirst hgood.1 with ⟨nodes, hreads, _⟩
          rw [List.length_append, List.length_append] at hfound hle hwithin
          rw [run_lines_of_endsLine hfirst hends hreads hfound]
          refine ⟨d, nodes ++ nodes', rfl, hrest, by omega, hle', hge, ?_⟩
          intro r position hmem
          rcases List.mem_append.1 hmem with hmem | hmem
          · have hposition := (Peg.run_goesOn line ⟨before.length, first⟩).within r position hmem
            simp only [Cursor.limit] at hposition
            omega
          · exact hwithin r position hmem

/-! ## Whole texts -/

/-- A text of well-shaped lines is matched, with a node for every line with tokens. -/
theorem layout_reads {text : List Char} (h : ∀ l ∈ placedLines [] text, WellShaped l.chars) :
    ∃ nodes last, layout.Reads 0 text [] [⟨.layout, 0, text, nodes ++ [last]⟩]
      ∧ last.rule = .endOfInput
      ∧ List.Forall₂ PlacedLine.HasNode
        ((placedLines [] text).filter fun l => hasTokens l.chars) nodes := by
  rcases lines_read h with ⟨nodes, hlines, hnodes⟩
  have hstart : Peg.start.Reads 0 [] text [] := rfl
  have hdone : Peg.done.Reads (0 + text.length) [] [] [] := rfl
  have hseq := hstart.seq_of_eq (List.append_nil text).symm
    (hlines.seq_nil (hdone.rule .endOfInput))
  exact ⟨nodes, _, hseq.rule .layout, rfl, hnodes⟩

/-- A text with a line that is not well-shaped is not matched, and the furthest failure lies in
the first such line. -/
theorem layout_fails {text : List Char} {good after : List PlacedLine} {bad : PlacedLine}
    (h : placedLines [] text = good ++ bad :: after) (hgood : ∀ l ∈ good, WellShaped l.chars)
    (hbad : ¬ WellShaped bad.chars) :
    (layout.run ⟨0, text⟩).found = none
      ∧ bad.before.length ≤ Trial.furthest (layout.run ⟨0, text⟩).trials
      ∧ Trial.furthest (layout.run ⟨0, text⟩).trials
        ≤ bad.before.length + bad.chars.length := by
  rcases lines_stop h hgood hbad with ⟨d, nodes, hfound, hrest, _, hle, hge, hwithin⟩
  rw [List.length_nil] at hfound hwithin
  -- The end of the text is tried where the lines stop.
  have hend : (Peg.rule .endOfInput .done).run d
      = ⟨none, [.begun d.position, .failed .endOfInput d.position]⟩ := by
    rw [Peg.run, Peg.run, if_neg hrest]
    rfl
  have hrun : layout.run ⟨0, text⟩ = ⟨none, .begun 0 :: ((lines.run ⟨0, text⟩).trials
      ++ [.begun d.position, .failed .endOfInput d.position]) ++ [.failed .layout 0]⟩ := by
    have hlayout : layout.run ⟨0, text⟩ = ((Match.here ⟨0, text⟩).andThen fun c =>
        (lines.run c).andThen (Peg.rule .endOfInput .done).run).named .layout ⟨0, text⟩ := rfl
    rw [hlayout]
    simp [Match.here, Match.andThen, Match.named, hfound, hend]
  rw [hrun]
  refine ⟨rfl, hle.trans (Trial.le_furthest (r := .endOfInput) (by simp)), Trial.furthest_le ?_⟩
  intro r position hmem
  simp only [List.mem_append, List.mem_cons, reduceCtorEq, false_or, List.not_mem_nil, or_false,
    Trial.failed.injEq] at hmem
  rcases hmem with (hmem | ⟨_, rfl⟩) | ⟨_, rfl⟩
  · exact hwithin r position hmem
  · exact hge
  · exact Nat.zero_le _

end Grammar

namespace Layout

/-- The nodes that stand in lines are entries. -/
theorem rule_of_mem {lines : List PlacedLine} {nodes : List Node}
    (h : List.Forall₂ PlacedLine.HasNode lines nodes) : ∀ node ∈ nodes, node.rule = .entry := by
  induction h with
  | nil => simp
  | cons hnode _ ih => exact List.forall_mem_cons.2 ⟨hnode.rule, ih⟩

/-- A text of well-shaped lines is read from the nodes that stand in its lines with tokens. -/
theorem parseWith_of_wellShaped (report : Reporter) {text : String}
    (h : ∀ l ∈ placedLines [] text.toList, WellShaped l.chars) :
    ∃ nodes, List.Forall₂ PlacedLine.HasNode
        ((placedLines [] text.toList).filter fun l => hasTokens l.chars) nodes
      ∧ parseWith report text
        = (declare text.toList [] nodes).map fun fields => fields.bind ofFields := by
  rcases Grammar.layout_reads h with ⟨nodes, last, hreads, hlast, hnodes⟩
  refine ⟨nodes, hnodes, ?_⟩
  have hentries : (nodes ++ [last]).filter (·.rule = .entry) = nodes := by
    have hall : ∀ node ∈ nodes, decide (node.rule = .entry) = true := by
      intro node hmem
      exact decide_eq_true (rule_of_mem hnodes node hmem)
    rw [List.filter_append, List.filter_eq_self.2 hall]
    simp [hlast]
  rw [Peg.Reads, List.append_nil] at hreads
  simp only [parseWith, hreads, ofNodes, hentries]

/-- A text with a line that is not well-shaped is malformed at the first such line. -/
theorem parseWith_of_not_wellShaped {report : Reporter} (hreport : report.AtFurthest)
    {text : String} {good after : List PlacedLine} {bad : PlacedLine}
    (h : placedLines [] text.toList = good ++ bad :: after)
    (hgood : ∀ l ∈ good, WellShaped l.chars) (hbad : ¬ WellShaped bad.chars) :
    ∃ expected shown, parseWith report text
      = ⟨.error (.layoutText bad.number (.malformed expected shown)), []⟩ := by
  rcases Grammar.layout_fails h hgood hbad with ⟨hfound, hle, hge⟩
  have hmem : bad ∈ placedLines [] text.toList := by
    rw [h]
    exact List.mem_append_right _ List.mem_cons_self
  simp only [parseWith, hfound, Diagnosis.fault, hreport text.toList,
    lineNumber_of_mem_placedLines hmem hle hge]
  exact ⟨_, _, rfl⟩

/-- A text with a line that is not well-shaped is malformed. -/
theorem exists_malformed_of_mem {text : String} {l : PlacedLine}
    (hmem : l ∈ placedLines [] text.toList) (hl : ¬ WellShaped l.chars) :
    ∃ number expected shown,
      parse text = ⟨.error (.layoutText number (.malformed expected shown)), []⟩ := by
  classical
  have hfind : ((placedLines [] text.toList).find? fun l => ¬ WellShaped l.chars).isSome = true :=
    List.find?_isSome.2 ⟨l, hmem, decide_eq_true hl⟩
  rcases Option.isSome_iff_exists.1 hfind with ⟨bad, hbad⟩
  rcases List.find?_eq_some_iff_append.1 hbad with ⟨hbad, good, after, hlines, hgood⟩
  have hgood : ∀ l ∈ good, WellShaped l.chars := by simpa using hgood
  exact ⟨_, parseWith_of_not_wellShaped Reporter.atFurthest_standard hlines hgood
    (of_decide_eq_true hbad)⟩

end Layout
end DataBlock
