import DataBlock.Fault
import DataBlock.Layout.Peg
import DataBlock.Text.Blank

/-!
# What is told of a malformed text

A text that the grammar does not match is told of at the furthest place at which a rule
failed.

Main results:

- `Trial.le_furthest`, `Trial.furthest_le`: the furthest failure is the largest position of
  one.
- `Reporter.AtFurthest`: a reporter names the line of the furthest failure.
- `Reporter.atFurthest_standard`: the standard reporter does.
-/

namespace DataBlock

/-! ## Places in a text -/

/-- The number of the line at a position: one more than the line feeds in front of it. -/
def lineNumber (text : List Char) (position : Nat) : Nat :=
  (text.take position).count '\n' + 1

/-- What lies between two line feeds around a position, the second one included. -/
def lineAround (text : List Char) (position : Nat) : List Char :=
  let front := (text.take position).reverse.takeWhile (· != '\n')
  let back := text.drop position
  front.reverse ++ back.takeWhile (· != '\n') ++ (back.dropWhile (· != '\n')).take 1

/-! ## Reporters -/

/-- What is told of a text without a match. -/
structure Diagnosis where
  line : Nat
  expected : List GrammarRule
  shown : List Char

/-- The fault that is made of a diagnosis. -/
def Diagnosis.fault (d : Diagnosis) : Fault :=
  .layoutText d.line (.malformed d.expected (String.ofList d.shown))

/-- A way to tell what is wrong with a text from the rules that were tried. -/
abbrev Reporter : Type :=
  List Char → List Trial → Diagnosis

/-- The furthest position at which a rule failed. -/
def Trial.furthest : List Trial → Nat
  | [] => 0
  | .failed _ position :: trials => max position (furthest trials)
  | _ :: trials => furthest trials

theorem Trial.le_furthest {trials : List Trial} {r : GrammarRule} {position : Nat}
    (h : .failed r position ∈ trials) : position ≤ furthest trials := by
  induction trials with
  | nil => cases h
  | cons trial trials ih =>
      rcases List.mem_cons.1 h with rfl | hmem
      · exact Nat.le_max_left _ _
      · cases trial with
        | failed => exact Nat.le_trans (ih hmem) (Nat.le_max_right _ _)
        | begun => exact ih hmem
        | matched => exact ih hmem

theorem Trial.furthest_le {trials : List Trial} {limit : Nat}
    (h : ∀ r position, .failed r position ∈ trials → position ≤ limit) :
    furthest trials ≤ limit := by
  induction trials with
  | nil => exact Nat.zero_le _
  | cons trial trials ih =>
      have htrials := ih fun r position hmem => h r position (List.mem_cons_of_mem _ hmem)
      cases trial with
      | failed r position => exact Nat.max_le.2 ⟨h r position List.mem_cons_self, htrials⟩
      | begun => exact htrials
      | matched => exact htrials

/-- The line that is named is that of the furthest failure. -/
def Reporter.AtFurthest (report : Reporter) : Prop :=
  ∀ text trials, (report text trials).line = lineNumber text (Trial.furthest trials)

/-! ## The standard reporter -/

/-- What the standard reporter keeps of the rules that were tried: the furthest position
of a failure, the rules that failed there, and for every rule that is still being tried
the number of rules that had failed at its beginning. -/
structure Tracker where
  furthest : Nat
  expected : List GrammarRule
  pending : List Nat

namespace Tracker

/-- The number of rules that failed furthest, if that is at the given position. -/
def attemptsAt (t : Tracker) (position : Nat) : Nat :=
  if position = t.furthest then t.expected.length else 0

/-- Takes note of a rule that failed.  It takes the place of the rules that failed inside
it at its own beginning, unless there was only one of them. -/
def fail (t : Tracker) (r : GrammarRule) (position before : Nat) : Tracker :=
  if t.attemptsAt position = before + 1 then t
  else if position = t.furthest then { t with expected := t.expected.take before ++ [r] }
  else if t.furthest < position then { t with furthest := position, expected := [r] }
  else t

/-- Goes over what happens to a rule. -/
def step (t : Tracker) : Trial → Tracker
  | .begun position => { t with pending := t.attemptsAt position :: t.pending }
  | .failed r position =>
      { t.fail r position (t.pending.headD 0) with pending := t.pending.tail }
  | .matched => { t with pending := t.pending.tail }

/-- Goes over all rules that were tried. -/
def track (trials : List Trial) : Tracker :=
  trials.foldl step ⟨0, [], []⟩

theorem furthest_fail (t : Tracker) (r : GrammarRule) (position before : Nat) :
    (t.fail r position before).furthest = max t.furthest position := by
  unfold fail
  split
  · next hsame =>
      -- One more rule than before can only have failed at the furthest position.
      have hposition : position = t.furthest := by
        refine Decidable.byContradiction fun hne => ?_
        rw [attemptsAt, if_neg hne] at hsame
        omega
      rw [hposition, Nat.max_self]
  · split
    · next hposition => rw [hposition, Nat.max_self]
    · split
      · next hlt => exact (Nat.max_eq_right (Nat.le_of_lt hlt)).symm
      · next hge => exact (Nat.max_eq_left (Nat.not_lt.1 hge)).symm

theorem furthest_foldl_step (t : Tracker) (trials : List Trial) :
    (trials.foldl step t).furthest = max t.furthest (Trial.furthest trials) := by
  induction trials generalizing t with
  | nil => exact (Nat.max_eq_left (Nat.zero_le _)).symm
  | cons trial trials ih =>
      rw [List.foldl_cons, ih]
      cases trial with
      | begun position => rfl
      | failed r position =>
          rw [step, furthest_fail, Trial.furthest, Nat.max_assoc]
      | matched => rfl

theorem furthest_track (trials : List Trial) :
    (track trials).furthest = Trial.furthest trials := by
  rw [track, furthest_foldl_step, Nat.zero_max]

end Tracker

/-- The rules of the grammar, in order. -/
def GrammarRule.all : List GrammarRule :=
  [.endOfInput, .layout, .entry, .offset, .byteIndex, .bitIndex, .name, .typeSpec, .typeName,
    .length]

/-- The line around a position as it is shown.  Line ends are marked if the position is at
one, and left out otherwise. -/
def shownLine (text : List Char) (position : Nat) : List Char :=
  let line := lineAround text position
  Blank.trimEnd <|
    if (text.drop position).head?.any (fun c => c == '\n' || c == '\r') then
      line.map fun c => if c = '\r' then '\u240d' else if c = '\n' then '\u240a' else c
    else line.filter fun c => c != '\n' && c != '\r'

/-- Tells of the rules that failed furthest, each of them once and in the order of the
grammar. -/
def Reporter.standard : Reporter := fun text trials =>
  let t := Tracker.track trials
  ⟨lineNumber text t.furthest, GrammarRule.all.filter (· ∈ t.expected),
    shownLine text t.furthest⟩

/-- The standard reporter names the line of the furthest failure. -/
theorem Reporter.atFurthest_standard : standard.AtFurthest := by
  intro text trials
  rw [standard, Tracker.furthest_track]

end DataBlock
