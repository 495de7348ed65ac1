import DataBlock.Proofs.LayoutLanguage.Reader

/-!
# The lines of a text

A text cut at its line ends, where a carriage return with a line feed behind it is one end, and
what the grammar finds in one line.  It goes over all of a line exactly if the line is blank, a
comment or an entry.  What it finds in a line does not depend on what is behind the line.

Main results:

- `lines_induction`: a text is its first line with a line end and another text behind it, or
  that line alone.
- `WellShaped`: a line is blank, a comment or an entry.
- `Grammar.line_reads_blank`, `Grammar.line_reads_entry`: what is read of a line of either kind.
- `Grammar.wellShaped_iff`: a line is well-shaped exactly if the grammar goes over all of it.
- `Grammar.local_line`: what is behind a line does not matter.
-/

namespace DataBlock

/-! ## Cutting a text -/

/-- The lines of a text.  A line ends at a carriage return with a line feed behind it, at a
line feed, and at a carriage return alone. -/
def cutLines : List Char → List (List Char)
  | [] => [[]]
  | '\r' :: '\n' :: cs => [] :: cutLines cs
  | c :: cs =>
      if c = '\n' ∨ c = '\r' then [] :: cutLines cs
      else (cutLines cs).modifyHead (c :: ·)

/-- The tokens of the lines that have any. -/
def tokenLines (lines : List (List Char)) : List (List (List Char)) :=
  (lines.map tokens).filter fun words => !words.isEmpty

/-- A line end, in front of other characters. -/
inductive EndsLine : List Char → List Char → Prop where
  | pair (rest : List Char) : EndsLine ['\r', '\n'] rest
  | feed (rest : List Char) : EndsLine ['\n'] rest
  | carriage {rest : List Char} (h : rest.head? ≠ some '\n') : EndsLine ['\r'] rest

theorem EndsLine.head {ending rest : List Char} (h : EndsLine ending rest) :
    ∃ c cs, ending = c :: cs ∧ isLineEnd c = true := by
  cases h with
  | pair => exact ⟨_, _, rfl, rfl⟩
  | feed => exact ⟨_, _, rfl, rfl⟩
  | carriage => exact ⟨_, _, rfl, rfl⟩

/-- What begins with a line end is one, with other characters behind it. -/
theorem exists_endsLine {c : Char} (hc : isLineEnd c = true) (cs : List Char) :
    ∃ ending rest, EndsLine ending rest ∧ c :: cs = ending ++ rest := by
  rw [isLineEnd, Bool.or_eq_true, beq_iff_eq, beq_iff_eq] at hc
  rcases hc with rfl | rfl
  · exact ⟨_, cs, .feed cs, rfl⟩
  · by_cases hfeed : cs.head? = some '\n'
    · rcases List.head?_eq_some_iff.1 hfeed with ⟨rest, rfl⟩
      exact ⟨_, rest, .pair rest, rfl⟩
    · exact ⟨_, cs, .carriage hfeed, rfl⟩

/-- A text is its first line with a line end and another text behind it, or that line alone. -/
theorem lines_induction {motive : List Char → Prop}
    (last : ∀ line, (∀ c ∈ line, isLineEnd c = false) → motive line)
    (more : ∀ line ending rest, (∀ c ∈ line, isLineEnd c = false) → EndsLine ending rest →
      motive rest → motive (line ++ (ending ++ rest))) (text : List Char) : motive text := by
  induction hlength : text.length using Nat.strong_induction_on generalizing text with
  | _ length ih =>
      have hline : ∀ c ∈ text.takeWhile fun c => !isLineEnd c, isLineEnd c = false := by
        intro c hc
        simpa using List.mem_takeWhile_imp hc
      have hsplit := List.takeWhile_append_dropWhile (p := fun c => !isLineEnd c) (l := text)
      have hhead := head?_dropWhile_run (fun c => !isLineEnd c) text
      cases hrest : text.dropWhile fun c => !isLineEnd c with
      | nil =>
          rw [hrest, List.append_nil] at hsplit
          rw [← hsplit]
          exact last _ hline
      | cons c cs =>
          rw [hrest] at hsplit hhead
          have hc : isLineEnd c = true := by simpa using hhead c rfl
          rcases exists_endsLine hc cs with ⟨ending, rest, hends, hcs⟩
          rw [hcs] at hsplit
          have hlt : rest.length < length := by
            rcases hends.head with ⟨c', cs', rfl, _⟩
            rw [← hlength, ← hsplit]
            simp only [List.length_append, List.length_cons]
            omega
          rw [← hsplit]
          exact more _ ending rest hline hends (ih _ hlt rest rfl)

theorem cutLines_cons_of_not_lineEnd {c : Char} (hc : isLineEnd c = false) (cs : List Char) :
    cutLines (c :: cs) = (cutLines cs).modifyHead (c :: ·) := by
  have hend : ¬ (c = '\n' ∨ c = '\r') := by simpa [isLineEnd] using hc
  rw [cutLines, if_neg hend]
  rintro cs' rfl
  exact absurd (.inr rfl) hend

theorem cutLines_last {line : List Char} (h : ∀ c ∈ line, isLineEnd c = false) :
    cutLines line = [line] := by
  induction line with
  | nil => rfl
  | cons c line ih =>
      rw [List.forall_mem_cons] at h
      rw [cutLines_cons_of_not_lineEnd h.1, ih h.2, List.modifyHead_cons]

theorem cutLines_more {line ending rest : List Char} (h : ∀ c ∈ line, isLineEnd c = false)
    (hends : EndsLine ending rest) :
    cutLines (line ++ (ending ++ rest)) = line :: cutLines rest := by
  induction line with
  | nil =>
      cases hends with
      | pair => rfl
      | feed => rfl
      | carriage hfeed =>
          rw [List.nil_append, List.singleton_append, cutLines, if_pos (.inr rfl)]
          rintro cs _ rfl
          exact hfeed rfl
  | cons c line ih =>
      rw [List.forall_mem_cons] at h
      rw [List.cons_append, cutLines_cons_of_not_lineEnd h.1, ih h.2, List.modifyHead_cons]

/-- No line of a text has a line end in it. -/
theorem not_isLineEnd_of_mem_cutLines {text line : List Char} (h : line ∈ cutLines text) :
    ∀ c ∈ line, isLineEnd c = false := by
  induction text using lines_induction with
  | last first hfirst =>
      rw [cutLines_last hfirst, List.mem_singleton] at h
      rwa [h]
  | more first ending rest hfirst hends ih =>
      rw [cutLines_more hfirst hends, List.mem_cons] at h
      rcases h with rfl | h
      · exact hfirst
      · exact ih h

/-! ## Shapes of lines -/

/-- A line has the shape of a blank line, of a comment, or of an entry. -/
def WellShaped (line : List Char) : Prop :=
  tokens line = [] ∨ ∃ e : Entry, e.WellFormed ∧ tokens line = e.words

/-! ## Lines of the grammar -/

namespace Grammar

variable {c d : Cursor} {n : Nat} {cs rest : List Char}

/-- The blanks of a line are read. -/
theorem blanks_reads (n : Nat) (cs : List Char) :
    (Peg.star gap).Reads n (cs.takeWhile isGap) (cs.dropWhile isGap) [] :=
  .star_char (fun _ hx => List.mem_takeWhile_imp hx) (head?_dropWhile_run isGap cs)

/-- Where only blanks come before the end of a line or a comment, all of it is read. -/
theorem lineEnd_reads (hcs : ∀ x ∈ cs, isLineEnd x = false) (h : tokens cs = []) (n : Nat) :
    (Peg.seq (Peg.star gap) (Peg.optional comment)).Reads n cs [] [] := by
  have hsplit : cs.takeWhile isGap ++ cs.dropWhile isGap = cs := List.takeWhile_append_dropWhile
  rw [tokens_eq_nil_iff] at h
  rw [← hsplit]
  refine (blanks_reads n cs).seq_of_eq (List.append_nil _).symm ?_
  cases hbody : cs.dropWhile isGap with
  | nil => exact .optional_nil rfl
  | cons x body =>
      rw [hbody] at h
      have hx : x = '#' := by simpa [endsHere] using h
      have hbody : ∀ y ∈ body, isLineEnd y = false := by
        intro y hy
        apply hcs
        rw [← hsplit, hbody]
        simp [hy]
      have hrun : (Peg.star (Peg.seq (Peg.notAhead newline) any)).run
          = (Peg.star (Peg.char fun y => !isLineEnd y)).run :=
        Peg.run_star_congr (Peg.run_unless isSome_run_newline)
      have hmore : ∀ n, (Peg.star (Peg.seq (Peg.notAhead newline) any)).Reads n body [] [] := by
        intro n
        rw [Peg.Reads, hrun]
        refine Peg.Reads.star_char ?_ (by simp)
        intro y hy
        rw [hbody y hy]
        rfl
      rw [hx]
      exact ((one_reads '#').seq (hmore _)).optional

/-- A blank line, or a comment, is read without a node. -/
theorem line_reads_blank (hcs : ∀ x ∈ cs, isLineEnd x = false) (h : tokens cs = []) (n : Nat) :
    line.Reads n cs [] [] := by
  have hsplit : cs.takeWhile isGap ++ cs.dropWhile isGap = cs := List.takeWhile_append_dropWhile
  have hends := tokens_eq_nil_iff.1 h
  have hbody : ∀ x ∈ cs.dropWhile isGap, isLineEnd x = false := by
    intro x hx
    exact hcs x (List.dropWhile_subset isGap hx)
  have hnone : ∀ n, (entry.run ⟨n, cs.dropWhile isGap⟩).found = none := by
    intro n
    rw [Peg.found_eq_none_iff]
    intro d hd
    rcases Peg.passes_seq_iff.1 (Peg.passes_rule_iff.1 hd) with ⟨d₁, hoffset, _⟩
    rcases offset_sound hoffset with ⟨byte, bit, hbyte, hbit, hrest⟩
    have hchars := Entry.isNameChar_addressText hbyte hbit
    cases haddress : Entry.addressText byte bit with
    | nil => exact Entry.addressText_ne_nil hbyte haddress
    | cons x word =>
        have hrest : cs.dropWhile isGap = (x :: word) ++ d₁.rest := haddress ▸ hrest
        rw [hrest] at hends
        have hx : x = '#' := by simpa [endsHere] using hends
        have hname : isNameChar '#' = true := hchars '#' (by simp [haddress, hx])
        exact absurd hname (by decide)
  have hmore := (Peg.Reads.optional_nil (hnone (n + (cs.takeWhile isGap).length))).seq_of_eq
    (List.append_nil _).symm (lineEnd_reads hbody (by rw [tokens_dropWhile_gap, h]) _)
  rw [← hsplit]
  exact (blanks_reads n cs).seq_of_eq (List.append_nil _).symm hmore

/-- A line with the tokens of an entry is read as the entry. -/
theorem line_reads_entry {e : Entry} (hcs : ∀ x ∈ cs, isLineEnd x = false) (he : e.WellFormed)
    (h : tokens cs = e.words) (n : Nat) :
    ∃ node : Node, line.Reads n cs [] [node] ∧ node.rule = .entry
      ∧ n ≤ node.start ∧ node.start ≤ n + cs.length ∧ Entry.ofNode node = .ok e := by
  have hsplit : cs.takeWhile isGap ++ cs.dropWhile isGap = cs := List.takeWhile_append_dropWhile
  have hbody : ∀ x ∈ cs.dropWhile isGap, isLineEnd x = false := by
    intro x hx
    exact hcs x (List.dropWhile_subset isGap hx)
  rcases entry_complete (List.dropWhile_idempotent _ _) hbody he (by rw [tokens_dropWhile_gap, h])
    (n + (cs.takeWhile isGap).length) with
    ⟨word, rest, node, hword, hstop, hnil, hentry, hrule, hstart, hnode⟩
  have hrest : ∀ x ∈ rest, isLineEnd x = false := by
    intro x hx
    apply hbody
    rw [hword]
    exact List.mem_append_right _ hx
  have hlength := congrArg List.length hsplit
  rw [List.length_append] at hlength
  refine ⟨node, ?_, hrule, by omega, by omega, hnode⟩
  have hmore := hentry.optional.seq_of_eq (List.append_nil rest).symm (lineEnd_reads hrest hnil _)
  rw [← hword] at hmore
  have hline := (blanks_reads n cs).seq_of_eq (List.append_nil _).symm hmore
  rw [hsplit] at hline
  exact hline

/-- The tokens of a line are those of one entry only. -/
theorem entry_unique {e e' : Entry} (hcs : ∀ x ∈ cs, isLineEnd x = false) (he : e.WellFormed)
    (he' : e'.WellFormed) (h : tokens cs = e.words) (h' : tokens cs = e'.words) : e = e' := by
  rcases line_reads_entry hcs he h 0 with ⟨node, hreads, _, _, _, hnode⟩
  rcases line_reads_entry hcs he' h' 0 with ⟨node', hreads', _, _, _, hnode'⟩
  rw [Peg.Reads] at hreads hreads'
  cases hreads.symm.trans hreads'
  exact Except.ok.inj (hnode.symm.trans hnode')

/-- A line always matches up to some place. -/
theorem exists_line_passes (c : Cursor) : ∃ d, line.Passes c d := by
  have hoptional : ∀ (e : Peg) c, ∃ d, (Peg.optional e).Passes c d := by
    intro e c
    cases hfound : (e.run c).found with
    | none => exact ⟨c, Peg.passes_optional_iff.2 (.inr ⟨hfound, rfl⟩)⟩
    | some found => exact ⟨found.1, Peg.passes_optional_iff.2 (.inl ⟨found.2, hfound⟩)⟩
  rcases hoptional entry (c.past isGap) with ⟨d₂, hentry⟩
  rcases hoptional comment (d₂.past isGap) with ⟨d, hcomment⟩
  refine ⟨d, Peg.passes_seq_iff.2 ⟨_, Peg.passes_star_char_iff.2 rfl, ?_⟩⟩
  refine Peg.passes_seq_iff.2 ⟨d₂, hentry, ?_⟩
  exact Peg.passes_seq_iff.2 ⟨_, Peg.passes_star_char_iff.2 rfl, hcomment⟩

/-- A line that is passed up to its end is well-shaped. -/
theorem line_sound (h : line.Passes c d) (hrest : d.rest = []) : WellShaped c.rest := by
  rcases Peg.passes_seq_iff.1 h with ⟨d₁, hgaps, h⟩
  rcases Peg.passes_seq_iff.1 h with ⟨d₂, hentry, h⟩
  rcases Peg.passes_seq_iff.1 h with ⟨d₃, hgaps', hcomment⟩
  cases Peg.passes_star_char_iff.1 hgaps
  cases Peg.passes_star_char_iff.1 hgaps'
  have hends : endsHere (d₂.rest.dropWhile isGap) = true := by
    rcases Peg.passes_optional_iff.1 hcomment with hcomment | ⟨_, rfl⟩
    · rcases Peg.passes_seq_iff.1 hcomment with ⟨d₄, hhash, _⟩
      have hhash : d₂.rest.dropWhile isGap = '#' :: d₄.rest := one_sound hhash
      rw [hhash]
      rfl
    · have hnil : d₂.rest.dropWhile isGap = [] := hrest
      rw [hnil]
      rfl
  rcases Peg.passes_optional_iff.1 hentry with hentry | ⟨_, rfl⟩
  · right
    rw [← tokens_dropWhile_gap]
    exact entry_sound hentry hends
  · left
    rw [← tokens_dropWhile_gap]
    exact tokens_eq_nil_iff.2 hends

/-- A line is well-shaped exactly if nothing of it is left. -/
theorem wellShaped_iff (hcs : ∀ x ∈ cs, isLineEnd x = false) :
    WellShaped cs ↔ ((line.run ⟨0, cs⟩).found.map fun r => r.1.rest) = some [] := by
  constructor
  · intro h
    have hreads : ∃ nodes, line.Reads 0 cs [] nodes := by
      rcases h with hnil | ⟨e, he, hwords⟩
      · exact ⟨[], line_reads_blank hcs hnil 0⟩
      · rcases line_reads_entry hcs he hwords 0 with ⟨node, hreads, _⟩
        exact ⟨[node], hreads⟩
    rcases hreads with ⟨nodes, hreads⟩
    rw [Peg.Reads, List.append_nil] at hreads
    rw [hreads, Option.map_some]
  · intro h
    rcases Option.map_eq_some_iff.1 h with ⟨⟨d, nodes⟩, hfound, hrest⟩
    exact line_sound ⟨nodes, hfound⟩ hrest

/-! ## What is behind a line -/

theorem local_one {x : Char} (hx : isLineEnd x = false) : (one x).Local := by
  apply Peg.local_char
  intro y hy
  rw [beq_eq_false_iff_ne]
  rintro rfl
  rw [hx] at hy
  cases hy

/-- A class of characters of type words. -/
theorem local_of_isWordChar {p : Char → Bool} (hp : ∀ x, p x = true → isWordChar x = true) :
    (Peg.char p).Local := by
  apply Peg.local_char
  intro x hx
  rw [Bool.eq_false_iff]
  intro hpx
  rw [isLineEnd_of_isWordChar (hp x hpx)] at hx
  cases hx

theorem local_gap : gap.Local := by
  apply Peg.local_char
  intro x hx
  rw [isLineEnd, Bool.or_eq_true, beq_iff_eq, beq_iff_eq] at hx
  rcases hx with rfl | rfl <;> rfl

theorem local_digits : digits.Local :=
  Peg.local_plus (local_of_isWordChar fun x hx => by simp [isWordChar, Char.isAlphanum, hx])
    (Peg.consumes_char _)

theorem local_entry : entry.Local := by
  have hoffset : offset.Local := Peg.local_rule (Peg.local_seq (Peg.local_rule local_digits _)
    (Peg.local_optional (Peg.local_seq (local_one rfl) (Peg.local_rule local_digits _)))) _
  have hgaps : (Peg.plus gap).Local := Peg.local_plus local_gap (Peg.consumes_char _)
  have hpart : (Peg.char isNamePart).Local := by
    apply Peg.local_char
    intro x hx
    rw [isNamePart, hx, Bool.not_true, Bool.and_false]
  have hname : name.Local :=
    .congr run_name (Peg.local_rule (Peg.local_plus hpart (Peg.consumes_char _)) _)
  have hword : typeName.Local := Peg.local_rule (Peg.local_seq
    (local_of_isWordChar fun _ => isWordChar_of_isAlpha)
    (Peg.local_star (local_of_isWordChar fun _ hx => hx) (Peg.consumes_char _))) _
  have htype : typeSpec.Local := Peg.local_rule (Peg.local_seq hword (Peg.local_optional
    (Peg.local_seq (local_one rfl) (Peg.local_seq (Peg.local_rule local_digits _)
      (local_one rfl))))) _
  exact Peg.local_rule (Peg.local_seq hoffset <| Peg.local_seq hgaps <| Peg.local_seq hname <|
    Peg.local_seq hgaps htype) _

theorem local_comment : comment.Local := by
  have hrest : (Peg.char fun x => !isLineEnd x).Local := by
    apply Peg.local_char
    intro x hx
    rw [hx, Bool.not_true]
  exact Peg.local_seq (local_one rfl) <|
    .congr (Peg.run_star_congr (Peg.run_unless isSome_run_newline))
      (Peg.local_star hrest (Peg.consumes_char _))

/-- What is behind a line does not matter to what is found in it. -/
theorem local_line : line.Local := by
  have hgaps : (Peg.star gap).Local := Peg.local_star local_gap (Peg.consumes_char _)
  exact Peg.local_seq hgaps <| Peg.local_seq (Peg.local_optional local_entry) <|
    Peg.local_seq hgaps (Peg.local_optional local_comment)

end Grammar
end DataBlock
