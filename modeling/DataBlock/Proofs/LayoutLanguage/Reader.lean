import DataBlock.Layout.Entry
import DataBlock.Proofs.LayoutLanguage.Expression
import Mathlib.Data.List.DropRight

/-!
# The entries of the grammar and the tokens of a line

The grammar goes over the characters of a line and decides where each part of an entry ends.
What it takes are the tokens of the line: every rule is sound, in that what it passes has the
form of its part, and complete, in that it reads every part that is followed by a blank, a
comment or the end of the line.

Main results:

- `Grammar.entry_sound`: what passes as an entry up to the end of a line has its tokens.
- `Grammar.entry_complete`: a line with the tokens of an entry is read as the entry.
-/

namespace DataBlock

/-! ## Classes of characters -/

theorem isNameChar_iff {c : Char} : isNameChar c = true ↔ c ≠ ' ' ∧ c ≠ '\t' ∧ c ≠ '#' := by
  simp [isNameChar, isGap, and_assoc]

theorem isNameChar_of_isWordChar {c : Char} (h : isWordChar c = true) :
    isNameChar c = true := by
  rw [isNameChar_iff]
  refine ⟨?_, ?_, ?_⟩
  all_goals
    intro heq
    subst heq
    exact absurd h (by decide)

theorem isWordChar_of_isAlpha {c : Char} (h : c.isAlpha = true) : isWordChar c = true := by
  simp [isWordChar, Char.isAlphanum, h]

theorem isLineEnd_of_isWordChar {c : Char} (h : isWordChar c = true) : isLineEnd c = false := by
  by_contra hend
  rw [Bool.not_eq_false] at hend
  simp only [isLineEnd, Bool.or_eq_true, beq_iff_eq] at hend
  rcases hend with rfl | rfl
  · exact absurd h (by decide)
  · exact absurd h (by decide)

theorem isNameChar_of_isDigit {c : Char} (h : c.isDigit = true) : isNameChar c = true := by
  apply isNameChar_of_isWordChar
  simp [isWordChar, Char.isAlphanum, h]

/-- Where no name character follows, no character of a narrower class follows. -/
theorem Stops.mono {rest : List Char} (h : Stops rest) {p : Char → Bool}
    (hp : ∀ c, p c = true → isNameChar c = true) : ∀ c ∈ rest.head?, p c = false := by
  intro c hc
  have hname := h c hc
  rw [Bool.eq_false_iff] at hname ⊢
  intro hpc
  exact hname (hp c hpc)

/-- A token ends where a blank begins. -/
theorem stops_of_gap {cs : List Char} (h : cs.takeWhile isGap ≠ []) : Stops cs := by
  intro c hc
  cases cs with
  | nil => cases hc
  | cons d cs =>
      cases hc
      by_contra hname
      have hgap : isGap c = false := by
        rw [Bool.not_eq_false, isNameChar_iff] at hname
        simp [isGap, hname]
      rw [List.takeWhile_cons_of_neg (by simp [hgap])] at h
      exact h rfl

/-- A token ends where only blanks come before the end of the line or a comment. -/
theorem stops_of_endsHere {cs : List Char} (h : endsHere (cs.dropWhile isGap) = true) :
    Stops cs := by
  intro c hc
  cases cs with
  | nil => cases hc
  | cons d cs =>
      cases hc
      by_cases hgap : isGap c = true
      · simp [isNameChar, hgap]
      · rw [List.dropWhile_cons_of_neg hgap] at h
        simp only [endsHere, beq_iff_eq] at h
        simp [isNameChar, h]

/-- Where a token ends and another one follows, there is a blank. -/
theorem gap_of_stops {cs : List Char} (h : Stops cs) (hne : tokens cs ≠ []) :
    cs.takeWhile isGap ≠ [] := by
  cases cs with
  | nil => exact absurd tokens_nil hne
  | cons c cs =>
      by_cases hgap : isGap c = true
      · rw [List.takeWhile_cons_of_pos hgap]
        exact List.cons_ne_nil _ _
      · have hstop : isNameChar c = false := h c (by simp)
        have hhash : c = '#' := by simpa [isNameChar, hgap] using hstop
        rw [hhash] at hne
        exact absurd (tokens_comment cs) hne

/-! ## The parts of an entry -/

/-- A run of digits. -/
def IsDigits (cs : List Char) : Prop :=
  cs ≠ [] ∧ ∀ c ∈ cs, c.isDigit = true

/-- A letter, followed by letters, digits and underscores. -/
def IsWord (cs : List Char) : Prop :=
  ∃ c rest, cs = c :: rest ∧ c.isAlpha = true ∧ ∀ d ∈ rest, isWordChar d = true

theorem IsWord.ne_nil {cs : List Char} (h : IsWord cs) : cs ≠ [] := by
  rcases h with ⟨c, rest, rfl, _, _⟩
  exact List.cons_ne_nil _ _

theorem IsWord.isNameChar {cs : List Char} (h : IsWord cs) :
    ∀ c ∈ cs, isNameChar c = true := by
  rcases h with ⟨d, rest, rfl, hd, hrest⟩
  intro c hc
  apply isNameChar_of_isWordChar
  rcases List.mem_cons.1 hc with rfl | hc
  · exact isWordChar_of_isAlpha hd
  · exact hrest c hc

namespace Entry

/-- An address as it is written. -/
def addressText (byte : List Char) : Option (List Char) → List Char
  | none => byte
  | some bit => byte ++ '.' :: bit

/-- A length as it is written. -/
def lengthText : Option (List Char) → List Char
  | none => []
  | some digits => '[' :: (digits ++ [']'])

/-- The tokens of an entry. -/
def words (e : Entry) : List (List Char) :=
  [addressText e.byte e.bit, e.name, e.word ++ lengthText e.length]

/-- The numbers of an entry consist of digits, and its type is a word. -/
structure WellFormed (e : Entry) : Prop where
  byte : IsDigits e.byte
  bit : ∀ digits ∈ e.bit, IsDigits digits
  word : IsWord e.word
  length : ∀ digits ∈ e.length, IsDigits digits

theorem isNameChar_addressText {byte : List Char} {bit : Option (List Char)}
    (hbyte : IsDigits byte) (hbit : ∀ digits ∈ bit, IsDigits digits) :
    ∀ c ∈ addressText byte bit, isNameChar c = true := by
  intro c hc
  cases bit with
  | none => exact isNameChar_of_isDigit (hbyte.2 c hc)
  | some bit =>
      rcases List.mem_append.1 hc with hc | hc
      · exact isNameChar_of_isDigit (hbyte.2 c hc)
      · rcases List.mem_cons.1 hc with rfl | hc
        · decide
        · exact isNameChar_of_isDigit ((hbit bit rfl).2 c hc)

theorem addressText_ne_nil {byte : List Char} {bit : Option (List Char)}
    (hbyte : IsDigits byte) : addressText byte bit ≠ [] := by
  cases bit with
  | none => exact hbyte.1
  | some bit => exact List.append_ne_nil_of_left_ne_nil hbyte.1 _

theorem isNameChar_lengthText {length : Option (List Char)}
    (hlength : ∀ digits ∈ length, IsDigits digits) :
    ∀ c ∈ lengthText length, isNameChar c = true := by
  intro c hc
  cases length with
  | none => cases hc
  | some digits =>
      rcases List.mem_cons.1 hc with rfl | hc
      · decide
      · rcases List.mem_append.1 hc with hc | hc
        · exact isNameChar_of_isDigit ((hlength digits rfl).2 c hc)
        · rw [List.mem_singleton.1 hc]
          decide

end Entry

/-! ## Parts of the grammar -/

namespace Grammar

variable {c d : Cursor} {n : Nat} {rest : List Char}

theorem one_sound {x : Char} (h : (one x).Passes c d) : c.rest = x :: d.rest := by
  rcases Peg.passes_char_iff.1 h with ⟨y, hy, hrest, _⟩
  rw [hrest, beq_iff_eq.1 hy]

theorem one_reads (x : Char) : (one x).Reads n [x] rest [] :=
  .char (beq_self_eq_true x)

/-- Where another character comes, what begins with the given one does not match. -/
theorem found_seq_one {x : Char} (h : x ∉ rest.head?) (e : Peg) :
    ((Peg.seq (one x) e).run ⟨n, rest⟩).found = none := by
  rw [Peg.found_eq_none_iff]
  intro d hd
  rcases Peg.passes_seq_iff.1 hd with ⟨d', hone, _⟩
  have hrest : rest = x :: d'.rest := one_sound hone
  rw [hrest] at h
  exact h rfl

/-- A rule for digits passes a run of them. -/
theorem digits_sound {r : GrammarRule} (h : (Peg.rule r digits).Passes c d) :
    ∃ run, IsDigits run ∧ c.rest = run ++ d.rest := by
  rcases Peg.passes_plus_char_iff.1 (Peg.passes_rule_iff.1 h) with ⟨hne, rfl⟩
  refine ⟨_, ⟨hne, ?_⟩, List.takeWhile_append_dropWhile.symm⟩
  intro x hx
  exact List.mem_takeWhile_imp hx

theorem digits_reads {run : List Char} (hrun : IsDigits run)
    (hrest : ∀ x ∈ rest.head?, x.isDigit = false) (r : GrammarRule) :
    (Peg.rule r digits).Reads n run rest [⟨r, n, run, []⟩] :=
  (Peg.Reads.plus_char hrun.1 hrun.2 hrest).rule r

theorem gaps_sound (h : (Peg.plus gap).Passes c d) :
    c.rest.takeWhile isGap ≠ [] ∧ d.rest = c.rest.dropWhile isGap := by
  rcases Peg.passes_plus_char_iff.1 h with ⟨hne, rfl⟩
  exact ⟨hne, rfl⟩

/-! ## Addresses -/

theorem offset_sound (h : offset.Passes c d) :
    ∃ byte bit, IsDigits byte ∧ (∀ digits ∈ bit, IsDigits digits)
      ∧ c.rest = Entry.addressText byte bit ++ d.rest := by
  rcases Peg.passes_seq_iff.1 (Peg.passes_rule_iff.1 h) with ⟨d₁, hbyte, hbit⟩
  rcases digits_sound hbyte with ⟨byte, hdigits, hrest⟩
  rcases Peg.passes_optional_iff.1 hbit with hbit | ⟨_, rfl⟩
  · rcases Peg.passes_seq_iff.1 hbit with ⟨d₂, hpoint, hbit⟩
    rcases digits_sound hbit with ⟨bit, hdigits', hrest'⟩
    refine ⟨byte, some bit, hdigits, ?_, ?_⟩
    · intro digits hmem
      cases hmem
      exact hdigits'
    · rw [hrest, one_sound hpoint, hrest', Entry.addressText, List.append_assoc,
        List.cons_append]
  · refine ⟨byte, none, hdigits, ?_, hrest⟩
    intro digits hmem
    cases hmem

/-- The node of an address. -/
def offsetNode (n : Nat) (byte : List Char) (bit : Option (List Char)) : Node :=
  ⟨.offset, n, Entry.addressText byte bit, ⟨.byteIndex, n, byte, []⟩ ::
    (bit.map fun digits => ⟨.bitIndex, n + byte.length + 1, digits, []⟩).toList⟩

theorem offset_reads {byte : List Char} {bit : Option (List Char)} (hbyte : IsDigits byte)
    (hbit : ∀ digits ∈ bit, IsDigits digits) (hrest : Stops rest) :
    offset.Reads n (Entry.addressText byte bit) rest [offsetNode n byte bit] := by
  have hstop := hrest.mono fun c => isNameChar_of_isDigit
  cases bit with
  | none =>
      have hpoint : '.' ∉ rest.head? := fun hmem => absurd (hrest '.' hmem) (by decide)
      exact ((digits_reads hbyte hstop .byteIndex).seq_nil
        (.optional_nil (found_seq_one hpoint _))).rule .offset
  | some bit =>
      have hpoint : ∀ x ∈ ('.' :: (bit ++ rest)).head?, x.isDigit = false := by
        intro x hx
        cases hx
        rfl
      have hbits := digits_reads (n := n + byte.length + 1) (hbit bit rfl) hstop .bitIndex
      exact ((digits_reads hbyte hpoint .byteIndex).seq
        (((one_reads '.').seq hbits).optional)).rule .offset

/-! ## Names -/

/-- The end of a line matches where a character ends a line. -/
theorem isSome_run_newline (n : Nat) (x : Char) (cs : List Char) :
    (newline.run ⟨n, x :: cs⟩).found.isSome = isLineEnd x := by
  simp only [newline, one, Peg.run, Match.found_orElse, Option.isSome_or]
  by_cases hfeed : x = '\n'
  · subst hfeed
    rfl
  · by_cases hreturn : x = '\r'
    · subst hreturn
      simp [isLineEnd, Match.here]
    · simp [isLineEnd, hfeed, hreturn, Match.found_andThen]

/-- A character of a name in the grammar. -/
def isNamePart (x : Char) : Bool :=
  isNameChar x && !isLineEnd x

/-- A name is a run of characters of one class. -/
theorem run_name : name.run = (Peg.rule .name (Peg.plus (Peg.char isNamePart))).run := by
  have hstop : ∀ n x cs, ((Peg.orElse gap (Peg.orElse newline (one '#'))).run
      ⟨n, x :: cs⟩).found.isSome = !isNamePart x := by
    intro n x cs
    rw [Peg.run, Match.found_orElse, Option.isSome_or, Peg.run, Match.found_orElse,
      Option.isSome_or, isSome_run_newline, gap, one, Peg.isSome_run_char, Peg.isSome_run_char]
    simp [isNamePart, isNameChar, Bool.or_assoc, Bool.or_comm, Bool.or_left_comm]
  have hpart := Peg.run_unless hstop
  simp only [Bool.not_not] at hpart
  exact Peg.run_rule_congr (Peg.run_plus_congr hpart) .name

theorem name_sound (h : name.Passes c d) :
    ∃ word, word ≠ [] ∧ (∀ x ∈ word, isNameChar x = true) ∧ c.rest = word ++ d.rest := by
  rw [Peg.Passes, run_name] at h
  rcases Peg.passes_plus_char_iff.1 (Peg.passes_rule_iff.1 h) with ⟨hne, rfl⟩
  refine ⟨_, hne, ?_, List.takeWhile_append_dropWhile.symm⟩
  intro x hx
  have hpart : isNamePart x = true := List.mem_takeWhile_imp hx
  exact (Bool.and_eq_true_iff.1 hpart).1

theorem name_reads {word : List Char} (hne : word ≠ [])
    (hword : ∀ x ∈ word, isNamePart x = true) (hrest : Stops rest) :
    name.Reads n word rest [⟨.name, n, word, []⟩] := by
  have hstop : ∀ x ∈ rest.head?, isNamePart x = false :=
    hrest.mono fun x hx => (Bool.and_eq_true_iff.1 hx).1
  rw [Peg.Reads, run_name]
  exact (Peg.Reads.plus_char hne hword hstop).rule .name

/-! ## Types -/

theorem typeName_sound (h : typeName.Passes c d) :
    ∃ word, IsWord word ∧ c.rest = word ++ d.rest := by
  rcases Peg.passes_seq_iff.1 (Peg.passes_rule_iff.1 h) with ⟨d₁, hfirst, hmore⟩
  rcases Peg.passes_char_iff.1 hfirst with ⟨x, hx, hrest, _⟩
  cases Peg.passes_star_char_iff.1 hmore
  refine ⟨x :: d₁.rest.takeWhile isWordChar, ⟨x, _, rfl, hx, ?_⟩, ?_⟩
  · intro y hy
    exact List.mem_takeWhile_imp hy
  · rw [hrest, List.cons_append]
    exact congrArg _ List.takeWhile_append_dropWhile.symm

theorem typeSpec_sound (h : typeSpec.Passes c d) :
    ∃ word length, IsWord word ∧ (∀ digits ∈ length, IsDigits digits)
      ∧ c.rest = word ++ Entry.lengthText length ++ d.rest := by
  rcases Peg.passes_seq_iff.1 (Peg.passes_rule_iff.1 h) with ⟨d₁, hname, hlength⟩
  rcases typeName_sound hname with ⟨word, hword, hrest⟩
  rcases Peg.passes_optional_iff.1 hlength with hlength | ⟨_, rfl⟩
  · rcases Peg.passes_seq_iff.1 hlength with ⟨d₂, hopen, hlength⟩
    rcases Peg.passes_seq_iff.1 hlength with ⟨d₃, hlength, hclose⟩
    rcases digits_sound hlength with ⟨digits, hdigits, hrest'⟩
    refine ⟨word, some digits, hword, ?_, ?_⟩
    · intro digits' hmem
      cases hmem
      exact hdigits
    · rw [hrest, one_sound hopen, hrest', one_sound hclose, Entry.lengthText]
      simp
  · refine ⟨word, none, hword, ?_, ?_⟩
    · intro digits hmem
      cases hmem
    · rw [hrest, Entry.lengthText, List.append_nil]

/-- The node of a type. -/
def typeNode (n : Nat) (word : List Char) (length : Option (List Char)) : Node :=
  ⟨.typeSpec, n, word ++ Entry.lengthText length, ⟨.typeName, n, word, []⟩ ::
    (length.map fun digits => ⟨.length, n + word.length + 1, digits, []⟩).toList⟩

theorem typeSpec_reads {word : List Char} {length : Option (List Char)} (hword : IsWord word)
    (hlength : ∀ digits ∈ length, IsDigits digits) (hrest : Stops rest) :
    typeSpec.Reads n (word ++ Entry.lengthText length) rest [typeNode n word length] := by
  rcases hword with ⟨x, more, rfl, hx, hmore⟩
  have hname : ∀ {n rest}, (∀ y ∈ rest.head?, isWordChar y = false) →
      typeName.Reads n (x :: more) rest [⟨.typeName, n, x :: more, []⟩] := by
    intro n rest hrest
    rw [← List.singleton_append]
    exact ((Peg.Reads.char hx).seq (.star_char hmore hrest)).rule .typeName
  cases length with
  | none =>
      have hopen : '[' ∉ rest.head? := fun hmem => absurd (hrest '[' hmem) (by decide)
      exact ((hname (hrest.mono fun c => isNameChar_of_isWordChar)).seq
        (.optional_nil (found_seq_one hopen _))).rule .typeSpec
  | some digits =>
      have hclose : ∀ y ∈ (']' :: rest).head?, y.isDigit = false := by
        intro y hy
        cases hy
        rfl
      have hopen : ∀ y ∈ (Entry.lengthText (some digits) ++ rest).head?, isWordChar y = false := by
        intro y hy
        cases hy
        rfl
      have hdigits := digits_reads (n := n + (x :: more).length + 1) (hlength digits rfl) hclose
        .length
      exact ((hname hopen).seq (((one_reads '[').seq (hdigits.seq (one_reads ']'))).optional)).rule
        .typeSpec

/-! ## Entries -/

/-- The blanks in front of a token are read. -/
theorem gaps_reads {cs word : List Char} (hne : cs.takeWhile isGap ≠ [])
    (hcs : cs.dropWhile isGap = word ++ rest) (n : Nat) :
    (Peg.plus gap).Reads n (cs.takeWhile isGap) (word ++ rest) [] := by
  rw [← hcs]
  exact .plus_char hne (fun x hx => List.mem_takeWhile_imp hx) (head?_dropWhile_run isGap cs)

/-- What passes as an entry, up to the end of a line or a comment, has its tokens. -/
theorem entry_sound (h : entry.Passes c d) (hends : endsHere (d.rest.dropWhile isGap) = true) :
    ∃ e : Entry, e.WellFormed ∧ tokens c.rest = e.words := by
  rcases Peg.passes_seq_iff.1 (Peg.passes_rule_iff.1 h) with ⟨d₁, hoffset, h⟩
  rcases Peg.passes_seq_iff.1 h with ⟨d₂, hgap₁, h⟩
  rcases Peg.passes_seq_iff.1 h with ⟨d₃, hname, h⟩
  rcases Peg.passes_seq_iff.1 h with ⟨d₄, hgap₃, htype⟩
  rcases offset_sound hoffset with ⟨byte, bit, hbyte, hbit, hrest⟩
  rcases gaps_sound hgap₁ with ⟨hne₁, hrest₂⟩
  rcases name_sound hname with ⟨name, hne, hchars, hrest₃⟩
  rcases gaps_sound hgap₃ with ⟨hne₃, hrest₄⟩
  rcases typeSpec_sound htype with ⟨word, length, hword, hlength, hrest₅⟩
  have hne' : word ++ Entry.lengthText length ≠ [] :=
    List.append_ne_nil_of_left_ne_nil hword.ne_nil _
  have htype : ∀ x ∈ word ++ Entry.lengthText length, isNameChar x = true := by
    intro x hx
    rcases List.mem_append.1 hx with hx | hx
    · exact hword.isNameChar x hx
    · exact Entry.isNameChar_lengthText hlength x hx
  refine ⟨⟨byte, bit, name, word, length⟩, ⟨hbyte, hbit, hword, hlength⟩, ?_⟩
  calc tokens c.rest
      = Entry.addressText byte bit :: tokens d₁.rest := by
        rw [hrest, tokens_append (Entry.addressText_ne_nil hbyte)
          (Entry.isNameChar_addressText hbyte hbit) (stops_of_gap hne₁)]
    _ = Entry.addressText byte bit :: name :: tokens d₃.rest := by
        rw [← tokens_dropWhile_gap d₁.rest, ← hrest₂, hrest₃,
          tokens_append hne hchars (stops_of_gap hne₃)]
    _ = [Entry.addressText byte bit, name, word ++ Entry.lengthText length] := by
        rw [← tokens_dropWhile_gap d₃.rest, ← hrest₄, hrest₅,
          tokens_append hne' htype (stops_of_endsHere hends), tokens_eq_nil_iff.2 hends]

/-- A line with the tokens of an entry, and no blank in front, is read as the entry up to its
end or to a comment. -/
theorem entry_complete {cs : List Char} {e : Entry} (hfront : cs.dropWhile isGap = cs)
    (hline : ∀ x ∈ cs, isLineEnd x = false) (he : e.WellFormed) (h : tokens cs = e.words)
    (n : Nat) :
    ∃ (word rest : List Char) (node : Node), cs = word ++ rest ∧ Stops rest ∧ tokens rest = []
      ∧ entry.Reads n word rest [node]
      ∧ node.rule = .entry ∧ node.start = n ∧ Entry.ofNode node = .ok e := by
  rcases e with ⟨byte, bit, name, word, length⟩
  rcases exists_of_tokens_eq_cons h with ⟨rest₁, hcs, _, _, hstop₁, htokens₁⟩
  rcases exists_of_tokens_eq_cons htokens₁ with ⟨rest₃, hrest₁, hne, hchars, hstop₃, htokens₃⟩
  rcases exists_of_tokens_eq_cons htokens₃ with ⟨rest₅, hrest₃, _, _, hstop₅, htokens₅⟩
  rw [hfront] at hcs
  have hgap₁ := gaps_reads (gap_of_stops hstop₁ (by rw [htokens₁]; exact List.cons_ne_nil _ _))
    hrest₁
  have hgap₃ := gaps_reads (gap_of_stops hstop₃ (by rw [htokens₃]; exact List.cons_ne_nil _ _))
    hrest₃
  have hsplit₁ : rest₁ = rest₁.takeWhile isGap ++ (name ++ rest₃) := by
    rw [← hrest₁, List.takeWhile_append_dropWhile]
  have hsplit₃ : rest₃
      = rest₃.takeWhile isGap ++ ((word ++ Entry.lengthText length) ++ rest₅) := by
    rw [← hrest₃, List.takeWhile_append_dropWhile]
  have hparts : ∀ x ∈ name, isNamePart x = true := by
    intro x hx
    have hmem : x ∈ cs := by
      rw [hcs, hsplit₁]
      simp [hx]
    simp [isNamePart, hchars x hx, hline x hmem]
  have htype := fun n => (hgap₃ n).seq (typeSpec_reads he.word he.length hstop₅)
  have hname := fun n => (name_reads hne hparts hstop₃).seq_of_eq
    (by rw [List.append_assoc]; exact hsplit₃) (htype (n + name.length))
  have hnames := fun n => (hgap₁ n).seq_of_eq
    (by rw [List.append_assoc, List.append_assoc, ← hsplit₃]) (hname _)
  have hentry := (offset_reads he.byte he.bit hstop₁).seq_of_eq
    (by rw [List.append_assoc, List.append_assoc, List.append_assoc, ← hsplit₃, ← hsplit₁])
    (hnames (n + (Entry.addressText byte bit).length))
  refine ⟨_, rest₅, _, ?_, hstop₅, htokens₅, hentry.rule .entry, rfl, rfl, ?_⟩
  · rw [hcs, List.append_assoc, List.append_assoc, List.append_assoc, List.append_assoc,
      ← hsplit₃, ← hsplit₁]
  · cases bit <;> cases length <;> rfl

end Grammar
end DataBlock
