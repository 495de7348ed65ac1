import DataBlock.Fault.LayoutText

/-!
# Parsing expressions

Expressions that match a text from a place on.  A choice is ordered, a repetition takes
all it can, and a part of the expression that fails leaves the place as it was.  A match
comes with the nodes of the named rules that matched, and with all rules that were tried,
those in failed parts included.

Main results:

- `Match.andThen_assoc`: it does not matter how a sequence is put in brackets.
- `Match.GoesOn`: a match goes on in the text, and no rule is tried behind the text.
- `Peg.run_goesOn`: this holds of every expression.
-/

namespace DataBlock

/-! ## Places and nodes -/

/-- A place in a text: the number of characters in front of it, and those behind it. -/
structure Cursor where
  position : Nat
  rest : List Char
  deriving DecidableEq

/-- A rule that matched: the place where it begins, the characters that it takes, and the
rules that matched inside it. -/
structure Node where
  rule : GrammarRule
  start : Nat
  chars : List Char
  inner : List Node

/-- What happens to a rule that is tried. -/
inductive Trial where
  | begun (position : Nat)
  | failed (rule : GrammarRule) (position : Nat)
  | matched
  deriving DecidableEq

/-- What an expression finds at a place: if there is a match, the place behind it with the
nodes; and the rules that were tried on the way. -/
structure Match where
  found : Option (Cursor × List Node)
  trials : List Trial

namespace Match

/-- The match of nothing. -/
def here (c : Cursor) : Match :=
  ⟨some (c, []), []⟩

/-- Goes on behind a match. -/
def andThen (m : Match) (next : Cursor → Match) : Match :=
  match m.found with
  | none => m
  | some (c, nodes) =>
      ⟨(next c).found.map fun r => (r.1, nodes ++ r.2), m.trials ++ (next c).trials⟩

/-- Tries something else where there is no match. -/
def orElse (m : Match) (other : Unit → Match) : Match :=
  match m.found with
  | none => ⟨(other ()).found, m.trials ++ (other ()).trials⟩
  | some _ => m

/-- The match of a rule, from a match of its expression at a place. -/
def named (r : GrammarRule) (c : Cursor) (m : Match) : Match :=
  match m.found with
  | none => ⟨none, .begun c.position :: m.trials ++ [.failed r c.position]⟩
  | some (d, nodes) =>
      ⟨some (d, [⟨r, c.position, c.rest.take (d.position - c.position), nodes⟩]),
        .begun c.position :: m.trials ++ [.matched]⟩

theorem found_andThen (m : Match) (next : Cursor → Match) :
    (m.andThen next).found
      = m.found.bind fun r => (next r.1).found.map fun r' => (r'.1, r.2 ++ r'.2) := by
  rcases m with ⟨_ | found, trials⟩ <;> rfl

theorem found_orElse (m : Match) (other : Unit → Match) :
    (m.orElse other).found = m.found.or (other ()).found := by
  rcases m with ⟨_ | found, trials⟩ <;> rfl

theorem found_named (m : Match) (r : GrammarRule) (c : Cursor) :
    (m.named r c).found = m.found.map fun r' =>
      (r'.1, [⟨r, c.position, c.rest.take (r'.1.position - c.position), r'.2⟩]) := by
  rcases m with ⟨_ | found, trials⟩ <;> rfl

/-- It does not matter how a sequence is put in brackets. -/
theorem andThen_assoc (m : Match) (next next' : Cursor → Match) :
    (m.andThen next).andThen next' = m.andThen fun c => (next c).andThen next' := by
  rcases m with ⟨_ | ⟨c, nodes⟩, trials⟩
  · rfl
  · simp only [andThen]
    rcases next c with ⟨_ | ⟨d, nodes'⟩, trials'⟩
    · rfl
    · simp [Option.map_map, Function.comp_def]

end Match

/-! ## Expressions -/

/-- An expression that matches a part of a text. -/
inductive Peg where
  /-- The start of the text. -/
  | start
  /-- The end of the text. -/
  | done
  /-- A character of a class. -/
  | char (p : Char → Bool)
  | empty
  | seq (a b : Peg)
  | orElse (a b : Peg)
  | star (a : Peg)
  /-- Nothing, where the expression does not match.  No rule is named in it. -/
  | notAhead (a : Peg)
  | rule (r : GrammarRule) (a : Peg)

namespace Peg

/-- An expression that may be left out. -/
def optional (a : Peg) : Peg :=
  orElse a empty

/-- An expression once or more. -/
def plus (a : Peg) : Peg :=
  seq a (star a)

/-- One match after the other, up to so many. -/
def repeated (f : Cursor → Match) : Nat → Cursor → Match
  | 0, c => .here c
  | n + 1, c => ((f c).andThen (repeated f n)).orElse fun _ => .here c

/-- What an expression finds at a place.  As each match of a repetition takes a character,
there are no more of them than characters are left. -/
def run : Peg → Cursor → Match
  | start, c => if c.position = 0 then .here c else ⟨none, []⟩
  | done, c => if c.rest = [] then .here c else ⟨none, []⟩
  | char p, c =>
      match c.rest with
      | [] => ⟨none, []⟩
      | d :: rest => if p d then .here ⟨c.position + 1, rest⟩ else ⟨none, []⟩
  | empty, c => .here c
  | seq a b, c => (a.run c).andThen b.run
  | orElse a b, c => (a.run c).orElse fun _ => b.run c
  | star a, c => repeated a.run (c.rest.length + 1) c
  | notAhead a, c => if (a.run c).found = none then .here c else ⟨none, []⟩
  | rule r a, c => (a.run c).named r c

end Peg

/-! ## Where a match goes -/

/-- A place behind some of the characters at another one. -/
def Cursor.Reaches (c d : Cursor) : Prop :=
  ∃ taken, c.rest = taken ++ d.rest ∧ d.position = c.position + taken.length

/-- The position of the end of the text. -/
def Cursor.limit (c : Cursor) : Nat :=
  c.position + c.rest.length

namespace Cursor

variable {c d e : Cursor}

theorem Reaches.refl (c : Cursor) : c.Reaches c :=
  ⟨[], rfl, rfl⟩

theorem Reaches.trans (h : c.Reaches d) (h' : d.Reaches e) : c.Reaches e := by
  rcases h with ⟨taken, hrest, hposition⟩
  rcases h' with ⟨taken', hrest', hposition'⟩
  refine ⟨taken ++ taken', ?_, ?_⟩
  · rw [hrest, hrest', List.append_assoc]
  · rw [hposition', hposition, List.length_append, Nat.add_assoc]

theorem Reaches.limit_eq (h : c.Reaches d) : d.limit = c.limit := by
  rcases h with ⟨taken, hrest, hposition⟩
  rw [limit, limit, hrest, hposition, List.length_append, Nat.add_assoc]

theorem Reaches.position_le (h : c.Reaches d) : c.position ≤ d.position := by
  rcases h with ⟨taken, _, hposition⟩
  omega

end Cursor

/-- A match goes on in the text, and no rule fails behind the text. -/
structure Match.GoesOn (c : Cursor) (m : Match) : Prop where
  reaches : ∀ d nodes, m.found = some (d, nodes) → c.Reaches d
  within : ∀ r position, .failed r position ∈ m.trials → position ≤ c.limit

namespace Match

variable {c : Cursor} {m : Match}

theorem GoesOn.none (c : Cursor) : GoesOn c ⟨.none, []⟩ := by
  constructor
  · intro d nodes h
    cases h
  · intro r position h
    cases h

theorem GoesOn.here (c : Cursor) : GoesOn c (here c) := by
  constructor
  · intro d nodes h
    cases h
    exact .refl c
  · intro r position h
    cases h

theorem GoesOn.andThen (h : m.GoesOn c) {next : Cursor → Match}
    (hnext : ∀ d, (next d).GoesOn d) : (m.andThen next).GoesOn c := by
  rcases m with ⟨_ | ⟨d, nodes⟩, trials⟩
  · exact h
  · have hd : c.Reaches d := h.reaches d nodes rfl
    constructor
    · intro e nodes' he
      rcases Option.map_eq_some_iff.1 he with ⟨⟨e', found⟩, hfound, heq⟩
      cases heq
      exact hd.trans ((hnext d).reaches _ _ hfound)
    · intro r position htrial
      rcases List.mem_append.1 htrial with htrial | htrial
      · exact h.within r position htrial
      · rw [← hd.limit_eq]
        exact (hnext d).within r position htrial

theorem GoesOn.orElse (h : m.GoesOn c) {other : Unit → Match} (hother : (other ()).GoesOn c) :
    (m.orElse other).GoesOn c := by
  rcases m with ⟨_ | found, trials⟩
  · refine ⟨hother.reaches, ?_⟩
    intro r position htrial
    rcases List.mem_append.1 htrial with htrial | htrial
    · exact h.within r position htrial
    · exact hother.within r position htrial
  · exact h

theorem GoesOn.named (h : m.GoesOn c) (r : GrammarRule) : (m.named r c).GoesOn c := by
  rcases m with ⟨_ | ⟨d, nodes⟩, trials⟩
  · constructor
    · intro d nodes h
      cases h
    · intro r' position htrial
      simp only [Match.named, List.mem_cons, List.mem_append, reduceCtorEq, false_or,
        List.not_mem_nil, or_false, Trial.failed.injEq] at htrial
      rcases htrial with htrial | ⟨rfl, rfl⟩
      · exact h.within r' position htrial
      · exact Nat.le_add_right _ _
  · constructor
    · intro e nodes' he
      cases he
      exact h.reaches d nodes rfl
    · intro r' position htrial
      simp only [Match.named, List.mem_cons, List.mem_append, reduceCtorEq, false_or,
        List.not_mem_nil, or_false] at htrial
      exact h.within r' position htrial

end Match

namespace Peg

theorem repeated_goesOn {f : Cursor → Match} (hf : ∀ c, (f c).GoesOn c) (n : Nat) (c : Cursor) :
    (repeated f n c).GoesOn c := by
  induction n generalizing c with
  | zero => exact .here c
  | succ n ih => exact ((hf c).andThen ih).orElse (.here c)

/-- Every expression goes on in the text, and tries no rule behind the text. -/
theorem run_goesOn (e : Peg) (c : Cursor) : (e.run c).GoesOn c := by
  induction e generalizing c with
  | start =>
      rw [run]
      split
      · exact .here c
      · exact .none c
  | done =>
      rw [run]
      split
      · exact .here c
      · exact .none c
  | char p =>
      rcases c with ⟨position, _ | ⟨d, rest⟩⟩
      · exact .none _
      · simp only [run]
        split
        · constructor
          · intro e nodes h
            cases h
            exact ⟨[d], rfl, rfl⟩
          · intro r position h
            cases h
        · exact .none _
  | empty => exact .here c
  | seq a b iha ihb => exact (iha c).andThen ihb
  | orElse a b iha ihb => exact (iha c).orElse (ihb c)
  | star a ih => exact repeated_goesOn ih _ c
  | notAhead a ih =>
      rw [run]
      split
      · exact .here c
      · exact .none c
  | rule r a ih => exact (ih c).named r

end Peg
end DataBlock
