import DataBlock.Layout.Peg
import DataBlock.Proofs.LayoutLanguage.Token

/-!
# What parsing expressions read

An expression reads a word in front of other characters if it finds a match that takes just
the word.  There is one law for each kind of expression, from which the reading of a whole
line is put together.  In the other direction an expression that passes from one place to
another is taken apart into its parts.

Main results:

- `Peg.run_star`: a repetition is the expression with the repetition behind it, or nothing.
- `Peg.run_star_char`: a repetition of characters takes all that belong to the class.
- `Peg.Reads.seq`: two expressions read two words one after the other.
- `Peg.Reads.rule`: what a rule makes of the word that its expression reads.
- `Peg.passes_seq_iff`: a sequence passes a place between its parts.
- `Peg.Local`: what is behind a line does not matter to what an expression finds in it.
-/

namespace DataBlock

/-- The place behind the characters of a class. -/
def Cursor.past (p : Char → Bool) (c : Cursor) : Cursor :=
  ⟨c.position + (c.rest.takeWhile p).length, c.rest.dropWhile p⟩

theorem Cursor.past_cons_of_pos {p : Char → Bool} {x : Char} (hx : p x = true) (n : Nat)
    (cs : List Char) : past p ⟨n, x :: cs⟩ = past p ⟨n + 1, cs⟩ := by
  simp only [past, List.takeWhile_cons_of_pos hx, List.dropWhile_cons_of_pos hx,
    List.length_cons, Cursor.mk.injEq, and_true]
  omega

theorem Cursor.past_cons_of_neg {p : Char → Bool} {x : Char} (hx : ¬ p x = true) (n : Nat)
    (cs : List Char) : past p ⟨n, x :: cs⟩ = ⟨n, x :: cs⟩ := by
  simp only [past, List.takeWhile_cons_of_neg hx, List.dropWhile_cons_of_neg hx,
    List.length_nil, Nat.add_zero]

namespace Peg

variable {a b e : Peg} {c d : Cursor} {nodes nodes' : List Node} {p : Char → Bool}

/-! ## Repetitions -/

/-- A match of the expression takes at least one character. -/
def Consumes (e : Peg) : Prop :=
  ∀ c d nodes, (e.run c).found = some (d, nodes) → d.rest.length < c.rest.length

theorem run_char_nil (p : Char → Bool) (n : Nat) : (char p).run ⟨n, []⟩ = ⟨none, []⟩ :=
  rfl

theorem run_char_cons (p : Char → Bool) (n : Nat) (x : Char) (cs : List Char) :
    (char p).run ⟨n, x :: cs⟩ = if p x then .here ⟨n + 1, cs⟩ else ⟨none, []⟩ :=
  rfl

theorem consumes_char (p : Char → Bool) : (char p).Consumes := by
  intro c d nodes h
  rcases c with ⟨n, _ | ⟨x, rest⟩⟩
  · cases h
  · rw [run_char_cons] at h
    split at h
    · cases h
      exact Nat.lt_succ_self _
    · cases h

theorem consumes_seq (ha : a.Consumes) (b : Peg) : (seq a b).Consumes := by
  intro c d nodes h
  rw [run, Match.found_andThen] at h
  rcases Option.bind_eq_some_iff.1 h with ⟨⟨c', nodes₁⟩, ha', h⟩
  rcases Option.map_eq_some_iff.1 h with ⟨⟨d', nodes₂⟩, hb', h⟩
  rcases Prod.mk.inj h with ⟨rfl, _⟩
  have hlt := ha c c' nodes₁ ha'
  rcases (run_goesOn b c').reaches d' nodes₂ hb' with ⟨taken, hrest, _⟩
  rw [hrest, List.length_append] at hlt
  exact Nat.lt_of_le_of_lt (Nat.le_add_left _ _) hlt

theorem consumes_orElse (ha : a.Consumes) (hb : b.Consumes) : (orElse a b).Consumes := by
  intro c d nodes h
  rw [run, Match.found_orElse, Option.or_eq_some_iff] at h
  rcases h with h | ⟨_, h⟩
  · exact ha c d nodes h
  · exact hb c d nodes h

/-- More matches than there are characters are never tried. -/
theorem repeated_eq (he : e.Consumes) {m n : Nat} (hm : c.rest.length < m)
    (hn : c.rest.length < n) : repeated e.run m c = repeated e.run n c := by
  induction m generalizing n c with
  | zero => omega
  | succ m ih =>
      cases n with
      | zero => omega
      | succ n =>
          rw [repeated, repeated]
          congr 1
          unfold Match.andThen
          cases hfound : (e.run c).found with
          | none => rfl
          | some found =>
              rcases found with ⟨d, nodes⟩
              have hlt := he c d nodes hfound
              simp only [ih (n := n) (c := d) (by omega) (by omega)]

/-- A repetition is the expression with the repetition behind it, or nothing. -/
theorem run_star (he : e.Consumes) (c : Cursor) :
    (star e).run c = ((e.run c).andThen (star e).run).orElse fun _ => .here c := by
  rw [run, repeated]
  congr 1
  unfold Match.andThen
  cases hfound : (e.run c).found with
  | none => rfl
  | some found =>
      rcases found with ⟨d, nodes⟩
      have hlt := he c d nodes hfound
      simp only [run]
      rw [repeated_eq he (n := d.rest.length + 1) hlt (Nat.lt_succ_self _)]

/-- A repetition of characters takes all that belong to the class. -/
theorem run_star_char (p : Char → Bool) (c : Cursor) :
    (star (char p)).run c = .here (c.past p) := by
  rcases c with ⟨n, cs⟩
  induction cs generalizing n with
  | nil => rfl
  | cons x cs ih =>
      rw [run_star (consumes_char p), run_char_cons]
      by_cases hx : p x = true
      · rw [if_pos hx, Cursor.past_cons_of_pos hx, Match.andThen]
        simp only [Match.here, ih]
        rfl
      · rw [if_neg hx, Cursor.past_cons_of_neg hx]
        rfl

/-- A character where another expression does not match is one of a class. -/
theorem run_unless {p : Char → Bool}
    (h : ∀ n c cs, (e.run ⟨n, c :: cs⟩).found.isSome = p c) :
    (seq (notAhead e) (char fun _ => true)).run = (char fun c => !p c).run := by
  funext c
  rcases c with ⟨n, _ | ⟨x, cs⟩⟩
  · simp only [run]
    split <;> rfl
  · have hx := h n x cs
    rw [run_char_cons]
    simp only [run]
    cases hp : p x with
    | true =>
        rw [hp, Option.isSome_iff_ne_none] at hx
        rw [if_neg hx]
        rfl
    | false =>
        rw [hp, Option.isSome_eq_false_iff, Option.isNone_iff_eq_none] at hx
        rw [if_pos hx]
        rfl

theorem isSome_run_char (p : Char → Bool) (n : Nat) (x : Char) (cs : List Char) :
    ((char p).run ⟨n, x :: cs⟩).found.isSome = p x := by
  rw [run_char_cons]
  cases hx : p x <;> rfl

/-! An expression goes by what its parts find. -/

theorem run_star_congr (h : a.run = b.run) : (star a).run = (star b).run := by
  funext c
  rw [run, run, h]

theorem run_plus_congr (h : a.run = b.run) : (plus a).run = (plus b).run := by
  funext c
  rw [plus, plus, run, run, h, run_star_congr h]

theorem run_rule_congr (h : a.run = b.run) (r : GrammarRule) : (rule r a).run = (rule r b).run := by
  funext c
  rw [run, run, h]

/-! ## Expressions without rules -/

/-- No rule is tried for the expression. -/
def Quiet (e : Peg) : Prop :=
  ∀ c, (e.run c).trials = []

theorem quiet_char (p : Char → Bool) : (char p).Quiet := by
  intro c
  rcases c with ⟨n, _ | ⟨x, cs⟩⟩
  · rfl
  · rw [run_char_cons]
    split <;> rfl

theorem quiet_seq (ha : a.Quiet) (hb : b.Quiet) : (seq a b).Quiet := by
  intro c
  rw [run, Match.andThen]
  split
  · exact ha c
  · next d nodes _ => rw [ha c, hb d, List.append_nil]

theorem quiet_orElse (ha : a.Quiet) (hb : b.Quiet) : (orElse a b).Quiet := by
  intro c
  rw [run, Match.orElse]
  split
  · rw [ha c, hb c, List.append_nil]
  · exact ha c

/-! ## Words that are read -/

/-- The expression finds a match that takes just the word in front of the other characters. -/
def Reads (e : Peg) (n : Nat) (word rest : List Char) (nodes : List Node) : Prop :=
  (e.run ⟨n, word ++ rest⟩).found = some (⟨n + word.length, rest⟩, nodes)

namespace Reads

variable {n : Nat} {word word' rest : List Char} {x : Char}

theorem char (hx : p x = true) : (char p).Reads n [x] rest [] := by
  rw [Reads, List.singleton_append, run_char_cons, if_pos hx]
  rfl

theorem seq (ha : a.Reads n word (word' ++ rest) nodes)
    (hb : b.Reads (n + word.length) word' rest nodes') :
    (seq a b).Reads n (word ++ word') rest (nodes ++ nodes') := by
  rw [Reads] at ha hb
  rw [Reads, run, Match.found_andThen, List.append_assoc, ha, Option.bind_some, hb,
    Option.map_some, List.length_append, Nat.add_assoc]

/-- The same where what is behind the first word is known to begin with the second one. -/
theorem seq_of_eq {cs : List Char} (ha : a.Reads n word cs nodes) (hcs : cs = word' ++ rest)
    (hb : b.Reads (n + word.length) word' rest nodes') :
    (Peg.seq a b).Reads n (word ++ word') rest (nodes ++ nodes') := by
  rw [hcs] at ha
  exact ha.seq hb

/-- The second part of a sequence may read nothing. -/
theorem seq_nil (ha : a.Reads n word rest nodes) (hb : b.Reads (n + word.length) [] rest nodes') :
    (Peg.seq a b).Reads n word rest (nodes ++ nodes') := by
  rw [← List.append_nil word]
  exact ha.seq hb

theorem optional (h : e.Reads n word rest nodes) : (optional e).Reads n word rest nodes := by
  rw [Reads] at h
  rw [Reads, Peg.optional, run, Match.found_orElse, h]
  rfl

/-- What is left out reads nothing. -/
theorem optional_nil (h : (e.run ⟨n, rest⟩).found = none) :
    (Peg.optional e).Reads n [] rest [] := by
  rw [Reads, Peg.optional, run, Match.found_orElse, List.nil_append, h]
  rfl

/-- A rule makes one node of the word that its expression reads. -/
theorem rule (h : e.Reads n word rest nodes) (r : GrammarRule) :
    (rule r e).Reads n word rest [⟨r, n, word, nodes⟩] := by
  rw [Reads] at h
  rw [Reads, run, Match.found_named, h, Option.map_some, Nat.add_sub_cancel_left,
    List.take_left]

/-- A repetition of characters reads a run of them. -/
theorem star_char (hword : ∀ c ∈ word, p c = true) (hrest : ∀ c ∈ rest.head?, p c = false) :
    (star (Peg.char p)).Reads n word rest [] := by
  rw [Reads, run_star_char, Cursor.past, takeWhile_run hword hrest, dropWhile_run hword hrest]
  rfl

theorem plus_char (hne : word ≠ []) (hword : ∀ c ∈ word, p c = true)
    (hrest : ∀ c ∈ rest.head?, p c = false) : (plus (Peg.char p)).Reads n word rest [] := by
  cases word with
  | nil => exact absurd rfl hne
  | cons x word =>
      rw [List.forall_mem_cons] at hword
      rw [← List.singleton_append]
      exact (Reads.char hword.1).seq (star_char hword.2 hrest)

end Reads

/-! ## Places that are passed -/

/-- The expression finds a match from one place to another. -/
def Passes (e : Peg) (c d : Cursor) : Prop :=
  ∃ nodes, (e.run c).found = some (d, nodes)

theorem Reads.passes {n : Nat} {word rest : List Char} (h : e.Reads n word rest nodes) :
    e.Passes ⟨n, word ++ rest⟩ ⟨n + word.length, rest⟩ :=
  ⟨nodes, h⟩

theorem found_eq_none_iff : (e.run c).found = none ↔ ∀ d, ¬ e.Passes c d := by
  rw [Option.eq_none_iff_forall_ne_some]
  simp [Passes]

theorem passes_char_iff :
    (char p).Passes c d ↔
      ∃ x, p x = true ∧ c.rest = x :: d.rest ∧ d.position = c.position + 1 := by
  rcases c with ⟨n, _ | ⟨x, cs⟩⟩
  · simp [Passes, run_char_nil]
  · rw [Passes, run_char_cons]
    constructor
    · intro h
      rcases h with ⟨nodes, h⟩
      split at h
      · next hx =>
          cases h
          exact ⟨x, hx, rfl, rfl⟩
      · cases h
    · intro h
      rcases d with ⟨m, rest⟩
      rcases h with ⟨y, hy, hrest, hm⟩
      cases hrest
      have hm : m = n + 1 := hm
      rw [if_pos hy, hm]
      exact ⟨[], rfl⟩

theorem passes_seq_iff {f : Cursor} :
    (seq a b).Passes c f ↔ ∃ d, a.Passes c d ∧ b.Passes d f := by
  unfold Passes
  rw [run, Match.found_andThen]
  constructor
  · intro h
    rcases h with ⟨nodes, h⟩
    rcases Option.bind_eq_some_iff.1 h with ⟨⟨d, nodes₁⟩, hd, h⟩
    rcases Option.map_eq_some_iff.1 h with ⟨⟨f', nodes₂⟩, hf, h⟩
    cases h
    exact ⟨d, ⟨nodes₁, hd⟩, nodes₂, hf⟩
  · intro h
    rcases h with ⟨d, ⟨nodes₁, hd⟩, nodes₂, hf⟩
    exact ⟨nodes₁ ++ nodes₂, by rw [hd, Option.bind_some, hf, Option.map_some]⟩

theorem passes_rule_iff {r : GrammarRule} : (rule r e).Passes c d ↔ e.Passes c d := by
  unfold Passes
  rw [run, Match.found_named]
  constructor
  · intro h
    rcases h with ⟨nodes, h⟩
    rcases Option.map_eq_some_iff.1 h with ⟨⟨d', nodes'⟩, hd, h⟩
    cases h
    exact ⟨nodes', hd⟩
  · intro h
    rcases h with ⟨nodes, hd⟩
    rw [hd]
    exact ⟨_, rfl⟩

/-- What may be left out passes on, or is left out. -/
theorem passes_optional_iff :
    (optional e).Passes c d ↔ e.Passes c d ∨ (e.run c).found = none ∧ d = c := by
  unfold Passes optional
  rw [run, Match.found_orElse]
  cases hfound : (e.run c).found with
  | none => simp [run, Match.here, eq_comm]
  | some found => simp

theorem passes_star_char_iff : (star (char p)).Passes c d ↔ d = c.past p := by
  simp [Passes, run_star_char, Match.here, eq_comm]

theorem passes_plus_char_iff :
    (plus (char p)).Passes c d ↔ c.rest.takeWhile p ≠ [] ∧ d = c.past p := by
  rcases c with ⟨n, _ | ⟨x, cs⟩⟩
  · simp [plus, passes_seq_iff, passes_char_iff]
  · rw [plus, passes_seq_iff]
    simp only [passes_star_char_iff, passes_char_iff]
    by_cases hx : p x = true
    · rw [List.takeWhile_cons_of_pos hx, Cursor.past_cons_of_pos hx]
      constructor
      · intro h
        rcases h with ⟨⟨m, rest⟩, ⟨y, _, hrest, hm⟩, rfl⟩
        cases hrest
        cases hm
        exact ⟨List.cons_ne_nil _ _, rfl⟩
      · intro h
        exact ⟨⟨n + 1, cs⟩, ⟨x, hx, rfl, rfl⟩, h.2⟩
    · rw [List.takeWhile_cons_of_neg hx]
      constructor
      · intro h
        rcases h with ⟨_, ⟨y, hy, hrest, _⟩, _⟩
        cases hrest
        exact absurd hy hx
      · intro h
        exact absurd rfl h.1

end Peg

/-! ## Expressions within a line -/

/-- The match with other characters behind the text. -/
def Match.inFrontOf (m : Match) (tail : List Char) : Match :=
  ⟨m.found.map fun r => (⟨r.1.position, r.1.rest ++ tail⟩, r.2), m.trials⟩

namespace Peg

variable {a b : Peg} {tail : List Char}

/-- What is behind a line does not matter to what the expression finds in the line. -/
def Local (e : Peg) : Prop :=
  ∀ n cs tail, (∀ x ∈ cs, isLineEnd x = false) → (∀ x ∈ tail.head?, isLineEnd x = true) →
    e.run ⟨n, cs ++ tail⟩ = (e.run ⟨n, cs⟩).inFrontOf tail

/-- Going on behind a match in a line. -/
theorem andThen_inFrontOf {n : Nat} {cs : List Char} {m : Match} (hm : m.GoesOn ⟨n, cs⟩)
    (hcs : ∀ x ∈ cs, isLineEnd x = false) {next : Cursor → Match}
    (hnext : ∀ d nodes, m.found = some (d, nodes) → (∀ x ∈ d.rest, isLineEnd x = false) →
      next ⟨d.position, d.rest ++ tail⟩ = (next d).inFrontOf tail) :
    (m.inFrontOf tail).andThen next = (m.andThen next).inFrontOf tail := by
  rcases m with ⟨_ | ⟨d, nodes⟩, trials⟩
  · rfl
  · rcases hm.reaches d nodes rfl with ⟨taken, hrest, _⟩
    have hd : ∀ x ∈ d.rest, isLineEnd x = false := by
      intro x hx
      apply hcs
      have hrest : cs = taken ++ d.rest := hrest
      rw [hrest]
      exact List.mem_append_right _ hx
    simp only [Match.inFrontOf, Match.andThen, Option.map_some, hnext d nodes rfl hd,
      Option.map_map, Function.comp_def]

theorem local_char {p : Char → Bool} (hp : ∀ x, isLineEnd x = true → p x = false) :
    (char p).Local := by
  intro n cs tail hcs htail
  cases cs with
  | nil =>
      cases tail with
      | nil => rfl
      | cons x tail =>
          rw [List.nil_append, run_char_cons, hp x (htail x rfl)]
          rfl
  | cons x cs =>
      rw [List.cons_append, run_char_cons, run_char_cons]
      split <;> rfl

theorem local_seq (ha : a.Local) (hb : b.Local) : (seq a b).Local := by
  intro n cs tail hcs htail
  rw [run, run, ha n cs tail hcs htail]
  refine andThen_inFrontOf (run_goesOn a _) hcs ?_
  intro d nodes _ hd
  exact hb d.position d.rest tail hd htail

theorem local_optional (ha : a.Local) : (optional a).Local := by
  intro n cs tail hcs htail
  simp only [optional, run, ha n cs tail hcs htail]
  rcases a.run ⟨n, cs⟩ with ⟨_ | found, trials⟩ <;> rfl

theorem local_star (ha : a.Local) (hconsumes : a.Consumes) : (star a).Local := by
  intro n cs tail hcs htail
  induction hlength : cs.length using Nat.strong_induction_on generalizing n cs with
  | _ length ih =>
      have hnext : ∀ d nodes, (a.run ⟨n, cs⟩).found = some (d, nodes) →
          (∀ x ∈ d.rest, isLineEnd x = false) →
          (star a).run ⟨d.position, d.rest ++ tail⟩ = ((star a).run d).inFrontOf tail := by
        intro d nodes hfound hd
        have hlt := hconsumes _ _ _ hfound
        exact ih _ (hlength ▸ hlt) d.position d.rest hd rfl
      rw [run_star hconsumes, run_star hconsumes, ha n cs tail hcs htail,
        andThen_inFrontOf (run_goesOn a _) hcs hnext]
      rcases (a.run ⟨n, cs⟩).andThen (star a).run with ⟨_ | found, trials⟩ <;> rfl

theorem local_plus (ha : a.Local) (hconsumes : a.Consumes) : (plus a).Local :=
  local_seq ha (local_star ha hconsumes)

theorem local_rule (ha : a.Local) (r : GrammarRule) : (rule r a).Local := by
  intro n cs tail hcs htail
  rw [run, run, ha n cs tail hcs htail]
  cases hfound : (a.run ⟨n, cs⟩).found with
  | none => simp only [Match.named, Match.inFrontOf, hfound, Option.map_none]
  | some found =>
      rcases found with ⟨d, nodes⟩
      rcases (run_goesOn a _).reaches d nodes hfound with ⟨taken, hrest, hposition⟩
      have hle : d.position - n ≤ cs.length := by
        have hrest : cs = taken ++ d.rest := hrest
        have hposition : d.position = n + taken.length := hposition
        rw [hrest, List.length_append]
        omega
      simp only [Match.named, Match.inFrontOf, hfound, Option.map_some,
        List.take_append_of_le_length hle]

/-- What is read of a line is read of it in front of other lines. -/
theorem Reads.inFrontOf {e : Peg} (he : e.Local) {n : Nat} {word : List Char} {nodes : List Node}
    (h : e.Reads n word [] nodes) (hword : ∀ x ∈ word, isLineEnd x = false)
    (htail : ∀ x ∈ tail.head?, isLineEnd x = true) : e.Reads n word tail nodes := by
  rw [Reads, List.append_nil] at h
  rw [Reads, he n word tail hword htail, Match.inFrontOf, h]
  rfl

/-- An expression with the same matches is local as well. -/
theorem Local.congr (h : a.run = b.run) (hb : b.Local) : a.Local := by
  intro n cs tail hcs htail
  rw [h]
  exact hb n cs tail hcs htail

end Peg
end DataBlock
