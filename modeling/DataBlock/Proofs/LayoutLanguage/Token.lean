import DataBlock.Layout.Grammar
import Mathlib.Data.List.TakeWhile

/-!
# The tokens of a line

A line of a layout, cut at its first hash sign and split at its blanks.  This is how a
reader of the text sees it; how the grammar goes over the characters plays no part.

Main results:

- `tokens_append`: a run of name characters that ends is a token.
- `exists_of_tokens_eq_cons`: the first token stands behind the blanks of the line.
- `tokens_eq_nil_iff`: a line has no token exactly if only blanks come before its end or
  its comment.
-/

namespace DataBlock

/-! ## Characters of a line -/

/-- A character of a token. -/
def isNameChar (c : Char) : Bool :=
  !(isGap c || c == '#')

/-- Whether a line ends at a character. -/
def isLineEnd (c : Char) : Bool :=
  c == '\n' || c == '\r'

/-- Whether nothing but a comment is left of a line. -/
def endsHere : List Char → Bool
  | [] => true
  | c :: _ => c == '#'

/-- The part of a line before its first hash sign. -/
def beforeComment (cs : List Char) : List Char :=
  cs.takeWhile fun c => c != '#'

/-- The tokens of a line: what stands between its blanks before a comment. -/
def tokens (cs : List Char) : List (List Char) :=
  ((beforeComment cs).splitOnP isGap).filter fun word => !word.isEmpty

/-- No name character follows. -/
def Stops (rest : List Char) : Prop :=
  ∀ c ∈ rest.head?, isNameChar c = false

/-! ## Runs of characters -/

section Run

variable {p : Char → Bool} {run rest : List Char}

/-- A run of characters is taken up to where it ends. -/
theorem takeWhile_run (hrun : ∀ c ∈ run, p c = true) (hrest : ∀ c ∈ rest.head?, p c = false) :
    (run ++ rest).takeWhile p = run := by
  rw [List.takeWhile_append_of_pos hrun]
  cases rest with
  | nil => rw [List.takeWhile_nil, List.append_nil]
  | cons c cs =>
      have hc : p c = false := hrest c (by simp)
      rw [List.takeWhile_cons_of_neg (by simp [hc]), List.append_nil]

/-- Behind a run of characters is what follows it. -/
theorem dropWhile_run (hrun : ∀ c ∈ run, p c = true) (hrest : ∀ c ∈ rest.head?, p c = false) :
    (run ++ rest).dropWhile p = rest := by
  rw [List.dropWhile_append_of_pos hrun]
  cases rest with
  | nil => rfl
  | cons c cs =>
      have hc : p c = false := hrest c (by simp)
      rw [List.dropWhile_cons_of_neg (by simp [hc])]

/-- What follows a run begins with another character. -/
theorem head?_dropWhile_run (p : Char → Bool) (cs : List Char) :
    ∀ c ∈ (cs.dropWhile p).head?, p c = false := by
  intro c hc
  have hhead := List.head?_dropWhile_not p cs
  rw [Option.mem_def.1 hc] at hhead
  exact hhead

end Run

/-! ## Tokens of a line -/

theorem tokens_nil : tokens [] = [] :=
  rfl

theorem tokens_comment (cs : List Char) : tokens ('#' :: cs) = [] :=
  rfl

/-- No token is left where only a comment is. -/
theorem tokens_of_endsHere {cs : List Char} (h : endsHere cs = true) : tokens cs = [] := by
  cases cs with
  | nil => rfl
  | cons c cs =>
      have hc : c = '#' := by simpa [endsHere] using h
      rw [hc, tokens_comment]

/-- A blank begins no comment. -/
theorem ne_hash_of_isGap {c : Char} (h : isGap c = true) : (c != '#') = true := by
  rw [bne_iff_ne]
  intro heq
  rw [heq] at h
  exact absurd h (by decide)

/-- A blank in front is no part of a token. -/
theorem tokens_gap {c : Char} (h : isGap c = true) (cs : List Char) :
    tokens (c :: cs) = tokens cs := by
  have hbefore : beforeComment (c :: cs) = c :: beforeComment cs :=
    List.takeWhile_cons_of_pos (ne_hash_of_isGap h)
  rw [tokens, hbefore, List.splitOnP_cons_eq_if_modifyHead, if_pos h]
  rfl

/-- Blanks in front are no part of a token. -/
theorem tokens_dropWhile_gap (cs : List Char) : tokens (cs.dropWhile isGap) = tokens cs := by
  induction cs with
  | nil => rfl
  | cons c cs ih =>
      by_cases hc : isGap c = true
      · rw [List.dropWhile_cons_of_pos hc, ih, tokens_gap hc]
      · rw [List.dropWhile_cons_of_neg hc]

/-- A run of name characters that ends is a token. -/
theorem tokens_append {word rest : List Char} (hne : word ≠ [])
    (hword : ∀ c ∈ word, isNameChar c = true) (hrest : Stops rest) :
    tokens (word ++ rest) = word :: tokens rest := by
  have hgap : ∀ c ∈ word, isGap c = false := by
    intro c hc
    have := hword c hc
    simp_all [isNameChar]
  have hhash : ∀ c ∈ word, (c != '#') = true := by
    intro c hc
    have := hword c hc
    simp_all [isNameChar]
  have hkeep : ∀ words : List (List Char), ((word :: words).filter fun w => !w.isEmpty)
      = word :: words.filter fun w => !w.isEmpty := by
    intro words
    exact List.filter_cons_of_pos (by simp [hne])
  cases rest with
  | nil =>
      have hbefore : beforeComment (word ++ []) = word := takeWhile_run hhash (by simp)
      rw [tokens, hbefore, List.splitOnP_eq_singleton hgap, hkeep]
      rfl
  | cons c cs =>
      have hstop : isNameChar c = false := hrest c (by simp)
      by_cases hc : c = '#'
      · subst hc
        have hbefore : beforeComment (word ++ '#' :: cs) = word :=
          takeWhile_run hhash (by simp)
        rw [tokens, hbefore, List.splitOnP_eq_singleton hgap, hkeep, tokens_comment]
        rfl
      · have hsep : isGap c = true := by simpa [isNameChar, hc] using hstop
        have hbefore : beforeComment (word ++ c :: cs) = word ++ c :: beforeComment cs := by
          rw [beforeComment, List.takeWhile_append_of_pos hhash, beforeComment,
            List.takeWhile_cons, if_pos (ne_hash_of_isGap hsep)]
        rw [tokens, hbefore, List.splitOnP_append_cons_of_forall_mem hgap c hsep, hkeep,
          tokens_gap hsep, tokens]

/-- A name character begins a token, which goes on to the last name character after it. -/
theorem tokens_of_isNameChar {c : Char} (h : isNameChar c = true) (cs : List Char) :
    (c :: cs).takeWhile isNameChar ≠ []
      ∧ tokens (c :: cs) = (c :: cs).takeWhile isNameChar
        :: tokens ((c :: cs).dropWhile isNameChar) := by
  have hne : (c :: cs).takeWhile isNameChar ≠ [] := by
    rw [List.takeWhile_cons_of_pos h]
    exact List.cons_ne_nil _ _
  have hword : ∀ d ∈ (c :: cs).takeWhile isNameChar, isNameChar d = true :=
    fun d hd => List.mem_takeWhile_imp hd
  have htokens := tokens_append hne hword (head?_dropWhile_run isNameChar (c :: cs))
  rw [List.takeWhile_append_dropWhile] at htokens
  exact ⟨hne, htokens⟩

/-- A character that neither ends a line nor separates tokens belongs to one. -/
theorem isNameChar_of_not_endsHere {c : Char} {cs : List Char} (hgap : isGap c = false)
    (h : endsHere (c :: cs) = false) : isNameChar c = true := by
  have hhash : (c == '#') = false := h
  simp [isNameChar, hgap, hhash]

/-- A line has no token exactly if only blanks come before its end or its comment. -/
theorem tokens_eq_nil_iff {cs : List Char} :
    tokens cs = [] ↔ endsHere (cs.dropWhile isGap) = true := by
  constructor
  · intro h
    rw [← tokens_dropWhile_gap] at h
    have hhead := head?_dropWhile_run isGap cs
    generalize cs.dropWhile isGap = body at h hhead
    cases body with
    | nil => rfl
    | cons c body =>
        by_contra hends
        have hname := isNameChar_of_not_endsHere (hhead c (by simp)) (by simpa using hends)
        rw [(tokens_of_isNameChar hname body).2] at h
        cases h
  · intro h
    rw [← tokens_dropWhile_gap, tokens_of_endsHere h]

/-- The first token stands behind the blanks of the line, and the others behind it. -/
theorem exists_of_tokens_eq_cons {cs word : List Char} {words : List (List Char)}
    (h : tokens cs = word :: words) :
    ∃ rest, cs.dropWhile isGap = word ++ rest ∧ word ≠ []
      ∧ (∀ c ∈ word, isNameChar c = true) ∧ Stops rest ∧ tokens rest = words := by
  have hends : endsHere (cs.dropWhile isGap) ≠ true := by
    intro hends
    rw [tokens_eq_nil_iff.2 hends] at h
    cases h
  rw [← tokens_dropWhile_gap] at h
  have hhead := head?_dropWhile_run isGap cs
  generalize cs.dropWhile isGap = body at h hhead hends
  cases body with
  | nil => exact absurd rfl hends
  | cons c body =>
      have hname := isNameChar_of_not_endsHere (hhead c (by simp)) (by simpa using hends)
      rcases tokens_of_isNameChar hname body with ⟨hne, htokens⟩
      rw [htokens] at h
      cases h
      exact ⟨_, List.takeWhile_append_dropWhile.symm, hne,
        fun d hd => List.mem_takeWhile_imp hd, head?_dropWhile_run _ _, rfl⟩

end DataBlock
