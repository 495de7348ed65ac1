import DataBlock.Command
import Mathlib.Data.List.Perm.Basic

/-!
# Options may stand anywhere

Arguments are made of options, some of which have a text behind them, and of positional
arguments.  As long as no option is given twice and no text is the name of an option, each option
is found wherever it stands, and what is left of the arguments when it is taken out is made of the
other parts in the same order.  So the arguments ask for what their options and the order of their
positional arguments say, and the command does the same however the two are mixed.

Main results:

- `Command.takeNumber_words`: the flag of an offset is taken out with its text.
- `Command.ofArgs_words`: what arguments ask for, by their options and positional arguments.
- `Command.run_words_eq`: a run does not depend on where the options stand.
-/

namespace DataBlock
namespace Command

/-! ## The parts of arguments -/

/-- An offset that an option sets. -/
inductive OffsetFlag where
  | layout
  | block
  deriving DecidableEq, Repr

/-- The name of the option. -/
def OffsetFlag.word : OffsetFlag → String
  | layout => "--layout-offset"
  | block => "--db-offset"

/-- An option with the text behind it, or a positional argument. -/
inductive Part where
  | offset (flag : OffsetFlag) (text : String)
  | raw
  | positional (text : String)
  deriving DecidableEq, Repr

namespace Part

/-- The arguments that the part is given by. -/
def words : Part → List String
  | offset flag text => [flag.word, text]
  | raw => ["--raw"]
  | positional text => [text]

/-- The name of the option. -/
def option? : Part → Option String
  | offset flag _ => some flag.word
  | raw => some "--raw"
  | positional _ => none

/-- The text that can be any. -/
def text? : Part → Option String
  | offset _ text | positional text => some text
  | raw => none

/-- The positional argument. -/
def positional? : Part → Option String
  | positional text => some text
  | offset _ _ | raw => none

/-- The text behind the option that sets an offset. -/
def offsetText? (flag : OffsetFlag) : Part → Option String
  | offset flag' text => if flag' = flag then some text else none
  | raw | positional _ => none

end Part

/-- The names of all options. -/
def optionNames : List String :=
  ["--layout-offset", "--db-offset", "--raw"]

/-- The arguments that are given by parts, in order. -/
def words (parts : List Part) : List String :=
  parts.flatMap Part.words

/-- The parts other than an option. -/
def without (name : String) (parts : List Part) : List Part :=
  parts.filter fun part => part.option? ≠ some name

/-- The number that is given for an offset; zero if none is. -/
def offsetOf (flag : OffsetFlag) (parts : List Part) : Except Failure Nat :=
  match parts.findSome? (Part.offsetText? flag) with
  | none => .ok 0
  | some text => numberOf flag.word text

/-- What is asked for by the numbers that are given for the offsets, by whether the option for the
bytes is given, and by the positional arguments in their order. -/
def Request.ofParts (parts : List Part) : Except Failure Request := do
  let layoutOffset ← offsetOf .layout parts
  let dbOffset ← offsetOf .block parts
  Request.ofPositionals layoutOffset dbOffset (decide (.raw ∈ parts))
    (parts.filterMap Part.positional?)

/-- No option is given twice, and no text is the name of an option. -/
structure WellFormed (parts : List Part) : Prop where
  once : (parts.filterMap Part.option?).Nodup
  plain : ∀ part ∈ parts, ∀ text ∈ part.text?, text ∉ optionNames

theorem OffsetFlag.word_mem (flag : OffsetFlag) : flag.word ∈ optionNames := by
  cases flag <;> decide

theorem Part.positional?_eq_some_iff {part : Part} {text : String} :
    part.positional? = some text ↔ part = .positional text := by
  cases part <;> simp [positional?]

theorem Part.offsetText?_eq_some_iff {part : Part} {flag : OffsetFlag} {text : String} :
    part.offsetText? flag = some text ↔ part = .offset flag text := by
  cases part <;> simp [offsetText?]

namespace WellFormed

variable {part : Part} {parts : List Part}

theorem tail (h : WellFormed (part :: parts)) : WellFormed parts where
  once := by
    have honce := h.once
    rw [List.filterMap_cons] at honce
    split at honce
    · exact honce
    · exact honce.of_cons
  plain part hpart := h.plain part (List.mem_cons_of_mem _ hpart)

/-- An option is not given again. -/
theorem without_tail (h : WellFormed (part :: parts)) {name : String}
    (hname : part.option? = some name) : without name parts = parts := by
  have honce := h.once
  rw [List.filterMap_cons, hname, List.nodup_cons] at honce
  refine List.filter_eq_self.2 fun other hother => decide_eq_true fun heq => honce.1 ?_
  exact List.mem_filterMap.2 ⟨other, hother, heq⟩

theorem filter (h : WellFormed parts) (p : Part → Bool) : WellFormed (parts.filter p) where
  once := h.once.sublist (List.filter_sublist.filterMap _)
  plain part hpart := h.plain part (List.mem_of_mem_filter hpart)

/-- The text that is found for an offset is the one that is given. -/
theorem findSome?_eq_some_iff (h : WellFormed parts) {flag : OffsetFlag} {text : String} :
    parts.findSome? (Part.offsetText? flag) = some text ↔ .offset flag text ∈ parts := by
  induction parts with
  | nil => simp
  | cons part parts ih =>
      rw [List.findSome?_cons, List.mem_cons]
      cases hpart : part.offsetText? flag with
      | none =>
          have hne : .offset flag text ≠ part := by
            rintro rfl
            rw [Part.offsetText?_eq_some_iff.2 rfl] at hpart
            cases hpart
          simp only [ih h.tail, hne, false_or]
      | some text' =>
          have hnot : .offset flag text ∉ parts := by
            rw [← h.without_tail (congrArg Part.option? (Part.offsetText?_eq_some_iff.1 hpart))]
            simp [without, Part.option?]
          rw [Part.offsetText?_eq_some_iff.1 hpart]
          simp [hnot, eq_comm]

/-- The name of an option is among the arguments of no other part. -/
theorem not_mem_words (h : WellFormed parts) (hpart : part ∈ parts) {name : String}
    (hname : name ∈ optionNames) (hother : part.option? ≠ some name) : name ∉ part.words := by
  have hplain : ∀ text ∈ part.text?, name ≠ text := fun text htext heq =>
    h.plain part hpart text htext (heq ▸ hname)
  cases part with
  | offset flag text =>
      have hword : name ≠ flag.word := fun heq => hother (congrArg some heq.symm)
      simp [Part.words, hword, hplain text rfl]
  | raw =>
      have hword : name ≠ "--raw" := fun heq => hother (congrArg some heq.symm)
      simp [Part.words, hword]
  | positional text => simp [Part.words, hplain text rfl]

end WellFormed

/-! ## Options are taken out -/

theorem words_cons (part : Part) (parts : List Part) :
    words (part :: parts) = part.words ++ words parts :=
  List.flatMap_cons

theorem without_cons_of_ne {part : Part} {name : String} (h : part.option? ≠ some name)
    (parts : List Part) : without name (part :: parts) = part :: without name parts :=
  List.filter_cons_of_pos (decide_eq_true h)

theorem without_cons_self {part : Part} {name : String} (h : part.option? = some name)
    (parts : List Part) : without name (part :: parts) = without name parts :=
  List.filter_cons_of_neg (by simp [h])

theorem option?_eq_word_iff {part : Part} {flag : OffsetFlag} :
    part.option? = some flag.word ↔ ∃ text, part = .offset flag text := by
  cases part with
  | offset flag' text => cases flag <;> cases flag' <;> simp [Part.option?, OffsetFlag.word]
  | raw => cases flag <;> simp [Part.option?, OffsetFlag.word]
  | positional text => simp [Part.option?]

theorem option?_eq_raw_iff {part : Part} : part.option? = some "--raw" ↔ part = .raw := by
  cases part with
  | offset flag text => cases flag <;> simp [Part.option?, OffsetFlag.word]
  | raw => simp [Part.option?]
  | positional text => simp [Part.option?]

theorem offsetOf_cons_self (flag : OffsetFlag) (text : String) (parts : List Part) :
    offsetOf flag (.offset flag text :: parts) = numberOf flag.word text := by
  simp [offsetOf, Part.offsetText?]

theorem offsetOf_cons_of_ne {part : Part} {flag : OffsetFlag} (h : part.option? ≠ some flag.word)
    (parts : List Part) : offsetOf flag (part :: parts) = offsetOf flag parts := by
  have hnone : part.offsetText? flag = none := by
    cases part with
    | offset flag' text => exact if_neg fun heq => h (option?_eq_word_iff.2 ⟨text, by rw [heq]⟩)
    | raw => rfl
    | positional text => rfl
  rw [offsetOf, List.findSome?_cons, hnone]
  rfl

/-- Without another option, the number for an offset is still the same. -/
theorem offsetOf_without {flag : OffsetFlag} {name : String} (h : name ≠ flag.word)
    (parts : List Part) : offsetOf flag (without name parts) = offsetOf flag parts := by
  induction parts with
  | nil => rfl
  | cons part parts ih =>
      by_cases hname : part.option? = some name
      · have hother : part.option? ≠ some flag.word := fun heq =>
          h (Option.some.inj (hname.symm.trans heq))
        rw [without_cons_self hname, ih, offsetOf_cons_of_ne hother]
      · rw [without_cons_of_ne hname]
        by_cases hflag : part.option? = some flag.word
        · obtain ⟨text, rfl⟩ := option?_eq_word_iff.1 hflag
          rw [offsetOf_cons_self, offsetOf_cons_self]
        · rw [offsetOf_cons_of_ne hflag, offsetOf_cons_of_ne hflag, ih]

/-- The flag of an offset is taken out with the text behind it, wherever it stands; all other
parts stay as they are. -/
theorem takeNumber_words (flag : OffsetFlag) {parts : List Part} (h : WellFormed parts) :
    takeNumber flag.word (words parts) =
      (offsetOf flag parts).map fun n => (n, words (without flag.word parts)) := by
  induction parts with
  | nil => rfl
  | cons part parts ih =>
      by_cases hpart : part.option? = some flag.word
      · obtain ⟨text, rfl⟩ := option?_eq_word_iff.1 hpart
        rw [without_cons_self hpart, h.without_tail hpart, offsetOf_cons_self]
        exact takeNumber_cons_self flag.word text (words parts)
      · have hmem := h.not_mem_words List.mem_cons_self flag.word_mem hpart
        rw [words_cons, takeNumber_append hmem, ih h.tail, offsetOf_cons_of_ne hpart,
          without_cons_of_ne hpart, words_cons]
        cases offsetOf flag parts <;> rfl

/-- The option for the bytes is taken out, wherever it stands. -/
theorem erase_words {parts : List Part} (h : WellFormed parts) :
    (words parts).erase "--raw" = words (without "--raw" parts) := by
  induction parts with
  | nil => rfl
  | cons part parts ih =>
      by_cases hpart : part.option? = some "--raw"
      · rw [without_cons_self hpart, h.without_tail hpart, words_cons, option?_eq_raw_iff.1 hpart]
        exact List.erase_cons_head "--raw" (words parts)
      · rw [words_cons, without_cons_of_ne hpart, words_cons,
          List.erase_append_right _ (h.not_mem_words List.mem_cons_self (by decide) hpart),
          ih h.tail]

theorem raw_mem_words {parts : List Part} (h : WellFormed parts) :
    "--raw" ∈ words parts ↔ .raw ∈ parts := by
  rw [words, List.mem_flatMap]
  constructor
  · rintro ⟨part, hpart, hmem⟩
    have hraw : part.option? = some "--raw" := by
      by_contra hother
      exact h.not_mem_words hpart (by decide) hother hmem
    rwa [← option?_eq_raw_iff.1 hraw]
  · intro hmem
    exact ⟨.raw, hmem, List.mem_cons_self⟩

/-- When all options are taken out, the positional arguments are left in their order. -/
theorem words_without_options (parts : List Part) :
    words (without "--raw" (without "--db-offset" (without "--layout-offset" parts))) =
      parts.filterMap Part.positional? := by
  induction parts with
  | nil => rfl
  | cons part parts ih =>
      cases part with
      | offset flag text => cases flag <;> exact ih
      | raw => exact ih
      | positional text => exact congrArg (text :: ·) ih

/-- Arguments ask for what their parts do, wherever the options stand. -/
theorem ofArgs_words {parts : List Part} (h : WellFormed parts) :
    Request.ofArgs (words parts) = Request.ofParts parts := by
  have h' : WellFormed (without "--layout-offset" parts) := h.filter _
  have h'' : WellFormed (without "--db-offset" (without "--layout-offset" parts)) := h'.filter _
  have hlayout : takeNumber "--layout-offset" (words parts) = _ := takeNumber_words .layout h
  have hblock : takeNumber "--db-offset" (words (without "--layout-offset" parts)) = _ :=
    takeNumber_words .block h'
  have hraw : (words (without "--db-offset" (without "--layout-offset" parts))).contains "--raw"
      = decide (.raw ∈ parts) := by
    rw [Bool.eq_iff_iff, List.contains_iff_mem, raw_mem_words h'', decide_eq_true_iff]
    simp [without, Part.option?]
  rw [offsetOf_without (by decide)] at hblock
  rw [Request.ofArgs, hlayout, Request.ofParts]
  cases offsetOf .layout parts with
  | error fault => rfl
  | ok layoutOffset =>
      simp only [Outcome.map_ok, Outcome.ok_bind]
      rw [OffsetFlag.word, hblock]
      cases offsetOf .block parts with
      | error fault => rfl
      | ok dbOffset =>
          simp only [Outcome.map_ok, Outcome.ok_bind]
          rw [OffsetFlag.word, hraw, erase_words h'', words_without_options]

/-! ## Options in another place -/

/-- The same options, in whatever order and place, among the same positional arguments in the same
order. -/
structure Rearranged (parts parts' : List Part) : Prop where
  options : (parts.filter (·.option?.isSome)).Perm (parts'.filter (·.option?.isSome))
  positionals : parts.filterMap Part.positional? = parts'.filterMap Part.positional?

theorem filterMap_option?_filter (parts : List Part) :
    (parts.filter (·.option?.isSome)).filterMap Part.option? = parts.filterMap Part.option? := by
  rw [List.filterMap_filter]
  refine List.filterMap_congr fun part _ => ?_
  cases part.option? <;> rfl

namespace Rearranged

variable {parts parts' : List Part}

theorem symm (h : Rearranged parts parts') : Rearranged parts' parts :=
  ⟨h.options.symm, h.positionals.symm⟩

theorem mem (h : Rearranged parts parts') {part : Part} (hpart : part ∈ parts) : part ∈ parts' := by
  cases hoption : part.option? with
  | some name =>
      have hmem : part ∈ parts.filter (·.option?.isSome) :=
        List.mem_filter.2 ⟨hpart, by rw [hoption]; rfl⟩
      exact List.mem_of_mem_filter (h.options.mem_iff.1 hmem)
  | none =>
      cases part with
      | offset flag text => cases hoption
      | raw => cases hoption
      | positional text =>
          have hmem : text ∈ parts'.filterMap Part.positional? :=
            h.positionals ▸ List.mem_filterMap.2 ⟨_, hpart, rfl⟩
          obtain ⟨part', hpart', heq⟩ := List.mem_filterMap.1 hmem
          rwa [← Part.positional?_eq_some_iff.1 heq]

theorem wellFormed (h : Rearranged parts parts') (hparts : WellFormed parts) :
    WellFormed parts' where
  once := by
    have honce := hparts.once
    rw [← filterMap_option?_filter] at honce ⊢
    exact (h.options.filterMap _).nodup_iff.1 honce
  plain part hpart := hparts.plain part (h.symm.mem hpart)

/-- The same numbers are given for the offsets. -/
theorem offsetOf_eq (h : Rearranged parts parts') (hparts : WellFormed parts) (flag : OffsetFlag) :
    offsetOf flag parts = offsetOf flag parts' := by
  have htext : parts.findSome? (Part.offsetText? flag)
      = parts'.findSome? (Part.offsetText? flag) := by
    apply Option.ext
    intro text
    rw [hparts.findSome?_eq_some_iff, (h.wellFormed hparts).findSome?_eq_some_iff]
    exact ⟨h.mem, h.symm.mem⟩
  rw [offsetOf, offsetOf, htext]

/-- Arguments with their options in other places ask for the same. -/
theorem ofParts_eq (h : Rearranged parts parts') (hparts : WellFormed parts) :
    Request.ofParts parts = Request.ofParts parts' := by
  have hraw : decide (Part.raw ∈ parts) = decide (.raw ∈ parts') :=
    decide_eq_decide.2 ⟨h.mem, h.symm.mem⟩
  rw [Request.ofParts, Request.ofParts, h.offsetOf_eq hparts, h.offsetOf_eq hparts, hraw,
    h.positionals]

end Rearranged

/-- Whatever the files are: with its options in other places, and in another order among each
other, the command ends with the same code and prints the same, for what the arguments ask is said
by the texts of their options and by the order of their positional arguments. -/
theorem run_words_eq {m : Type → Type} [Monad m] (readFile : String → m (Except String Bytes))
    {parts parts' : List Part} (hparts : WellFormed parts) (h : Rearranged parts parts') :
    run readFile (words parts) = run readFile (words parts')
      ∧ Request.ofArgs (words parts') = Request.ofParts parts := by
  have hargs : Request.ofArgs (words parts') = Request.ofParts parts := by
    rw [ofArgs_words (h.wellFormed hparts), h.ofParts_eq hparts]
  refine ⟨?_, hargs⟩
  rw [run, run, hargs, ofArgs_words hparts]

/-- Options around the positional arguments, the last of them with a text that is no number. -/
def looseParts : List Part :=
  [.offset .layout "4", .positional "layout.txt", .raw, .positional "block.bin",
    .offset .block "x"]

/-- The options in another order and in other places. -/
def regroupedParts : List Part :=
  [.positional "layout.txt", .offset .block "x", .raw, .offset .layout "4",
    .positional "block.bin"]

/-- The text that is no number is blamed wherever it stands. -/
theorem run_words_eq_of_looseParts :
    WellFormed looseParts ∧ Rearranged looseParts regroupedParts
    ∧ words regroupedParts = ["layout.txt", "--db-offset", "x", "--raw", "--layout-offset", "4",
      "block.bin"]
    ∧ run (m := Id) (fun _ => .error "missing") (words looseParts)
      = run (m := Id) (fun _ => .error "missing") (words regroupedParts)
    ∧ Request.ofArgs (words regroupedParts)
      = .error (.notANumber "--db-offset" "x" .notADigit) := by
  have hparts : WellFormed looseParts := ⟨by decide, by decide⟩
  have hregrouped : Rearranged looseParts regroupedParts := ⟨by decide, by decide⟩
  obtain ⟨hrun, hargs⟩ := run_words_eq (m := Id) (fun _ => .error "missing") hparts hregrouped
  exact ⟨hparts, hregrouped, rfl, hrun, hargs.trans (by decide +kernel)⟩

end Command
end DataBlock
