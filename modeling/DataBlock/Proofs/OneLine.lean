import DataBlock.Fault
import DataBlock.Proofs.LayoutLanguage.Declarable
import DataBlock.Proofs.Printing.Clock
import DataBlock.Proofs.Printing.Real
import DataBlock.Text.Blank

/-!
# Texts of one line

A text has one line if no line feed and no carriage return is in it.  Numbers, dates and
times are written without either, and quoted text writes both as escapes, so every value has a
text of one line.  The message of a fault may take over names and other texts as they are; it
has one line if these have.

Main results:

- `Quoted.oneLine_text`: quoted text has one line, whatever the text.
- `Value.oneLine_text`: every value has a text of one line.
- `Fault.oneLine_message`: a message has one line if the texts that it takes over have.
-/

namespace DataBlock

/-- There is no line end in the text. -/
def OneLine (s : String) : Prop :=
  ∀ c ∈ s.toList, isLineEnd c = false

instance (s : String) : Decidable (OneLine s) :=
  List.decidableBAll (fun c => isLineEnd c = false) s.toList

/-! ## Joined texts -/

@[simp] theorem oneLine_append {s s' : String} : OneLine (s ++ s') ↔ OneLine s ∧ OneLine s' := by
  simp only [OneLine, String.toList_append, List.forall_mem_append]

@[simp] theorem oneLine_toString {s : String} : OneLine (toString s) ↔ OneLine s :=
  Iff.rfl

theorem oneLine_ofList {cs : List Char} :
    OneLine (String.ofList cs) ↔ ∀ c ∈ cs, isLineEnd c = false := by
  rw [OneLine, String.toList_ofList]

/-- Texts of one line make one line between separators of one line. -/
theorem oneLine_intercalate {s : String} (hs : OneLine s) {parts : List String}
    (hparts : ∀ part ∈ parts, OneLine part) : OneLine (s.intercalate parts) := by
  induction parts with
  | nil => simp [OneLine]
  | cons part parts ih =>
      rw [List.forall_mem_cons] at hparts
      cases parts with
      | nil => simpa using hparts.1
      | cons next parts =>
          rw [String.intercalate_cons_cons, oneLine_append, oneLine_append]
          exact ⟨⟨hparts.1, hs⟩, ih hparts.2⟩

@[simp] theorem Column.oneLine_spaces (n : Nat) : OneLine (spaces n) := by
  rw [spaces, oneLine_ofList]
  intro c hc
  rw [List.eq_of_mem_replicate hc]
  decide

/-! ## Numbers -/

theorem isLineEnd_of_isDigit {c : Char} (h : c.isDigit = true) : isLineEnd c = false :=
  isLineEnd_of_isWordChar (by simp [isWordChar, Char.isAlphanum, h])

@[simp] theorem oneLine_repr (n : Nat) : OneLine n.repr :=
  (isDigits_toString n).isLineEnd

@[simp] theorem oneLine_int_repr (n : Int) : OneLine n.repr := by
  cases n with
  | ofNat n => exact oneLine_repr n
  | negSucc n => exact oneLine_append.2 ⟨by decide, oneLine_repr (n + 1)⟩

@[simp] theorem Decimal.oneLine_padded (width n : Nat) : OneLine (padded width n) :=
  fun _ hc => isLineEnd_of_isDigit (isDigit_of_mem_padded hc)

namespace Hex

theorem isLineEnd_of_mem_digits {n : Nat} {c : Char} (h : c ∈ digits n) : isLineEnd c = false := by
  rcases exists_digitChar_of_mem_digits h with ⟨k, rfl⟩
  rw [isLineEnd, Bool.or_eq_false_iff, beq_eq_false_iff_ne, beq_eq_false_iff_ne]
  exact ⟨Nat.digitChar_ne '\n' (by decide), Nat.digitChar_ne '\r' (by decide)⟩

@[simp] theorem oneLine_padded (width n : Nat) : OneLine (padded width n) := by
  rw [padded, oneLine_ofList, List.leftpad, List.forall_mem_append]
  refine ⟨?_, fun c hc => isLineEnd_of_mem_digits hc⟩
  intro c hc
  rw [List.eq_of_mem_replicate hc]
  decide

@[simp] theorem oneLine_spaced (bs : Bytes) : OneLine (spaced bs) := by
  apply oneLine_intercalate (by decide)
  intro part hpart
  rcases List.mem_map.1 hpart with ⟨b, _, rfl⟩
  exact oneLine_padded 2 b.toNat

end Hex

@[simp] theorem Binary.oneLine_text (f : Binary) (bits : Nat) : OneLine (f.text bits) := by
  have hmagnitude : OneLine (f.magnitudeText bits) := by
    intro c hc
    rcases isDigit_or_eq_of_mem_magnitudeText hc with h | rfl
    · exact isLineEnd_of_isDigit h
    · decide
  have hunsigned : OneLine (f.unsignedText bits) := by
    unfold unsignedText
    split
    · decide
    · exact hmagnitude
  by_cases hnan : f.IsNaN bits
  · rw [text, if_pos hnan]
    decide
  · rw [text_of_not_isNaN hnan]
    split
    · exact oneLine_append.2 ⟨by decide, hunsigned⟩
    · exact hunsigned

/-! ## Quoted text -/

namespace Quoted

variable {c : Char}

/-- Line ends have a letter that is written for them. -/
theorem letter?_of_isLineEnd (h : isLineEnd c = true) : letter? c ≠ none := by
  rw [isLineEnd, Bool.or_eq_true, beq_iff_eq, beq_iff_eq] at h
  rcases h with rfl | rfl
  · decide
  · decide

/-- No letter that is written for a character is a line end. -/
theorem isLineEnd_of_letter? {l : Char} (h : letter? c = some l) : isLineEnd l = false := by
  unfold letter? at h
  repeat' split at h
  all_goals cases h
  all_goals decide

theorem isLineEnd_of_mem_codePoint (c : Char) : ∀ d ∈ codePoint c, isLineEnd d = false := by
  simp only [codePoint, List.forall_mem_cons, List.forall_mem_append]
  exact ⟨by decide, by decide, by decide, fun d hd => Hex.isLineEnd_of_mem_digits hd, by decide,
    by simp⟩

/-- No character is written with a line end, not even a line end. -/
theorem isLineEnd_of_mem_escape (quote c : Char) : ∀ d ∈ escape quote c, isLineEnd d = false := by
  have hslash : isLineEnd '\\' = false := by decide
  unfold escape
  cases hletter : letter? c with
  | some l => simp [hslash, isLineEnd_of_letter? hletter]
  | none =>
      have hc : isLineEnd c = false := by
        by_contra hend
        exact letter?_of_isLineEnd (Bool.not_eq_false _ ▸ hend) hletter
      simp only
      split
      · simp [hslash, hc]
      · split
        · exact isLineEnd_of_mem_codePoint c
        · simp [hc]

@[simp] theorem oneLine_char (c : Char) : OneLine (char c) := by
  rw [char, oneLine_ofList, List.forall_mem_cons, List.forall_mem_append, List.forall_mem_singleton]
  exact ⟨by decide, isLineEnd_of_mem_escape '\'' c, by decide⟩

/-- Quoted text has one line, whatever the text. -/
@[simp] theorem oneLine_text (s : String) : OneLine (text s) := by
  rw [text, oneLine_ofList, List.forall_mem_cons, List.forall_mem_append, List.forall_mem_singleton]
  refine ⟨by decide, ?_, by decide⟩
  intro d hd
  rcases List.mem_flatMap.1 hd with ⟨c, _, hc⟩
  exact isLineEnd_of_mem_escape '"' c d hc

end Quoted

/-! ## Dates and times -/

@[simp] theorem Span.oneLine_text (d : Span) : OneLine d.text := by
  rw [text, oneLine_append]
  exact ⟨oneLine_int_repr d.millis, by decide⟩

@[simp] theorem Date.oneLine_yearText (year : Int) : OneLine (yearText year) := by
  unfold yearText
  split
  · rw [oneLine_append]
    exact ⟨by decide, Decimal.oneLine_padded 4 _⟩
  · split
    · rw [oneLine_append]
      exact ⟨by decide, Decimal.oneLine_padded 4 _⟩
    · exact Decimal.oneLine_padded 4 _

@[simp] theorem Date.oneLine_text (d : Date) : OneLine d.text := by
  simp +decide [text]

@[simp] theorem TimeOfDay.oneLine_fractionText (nanos : Nat) : OneLine (fractionText nanos) := by
  unfold fractionText
  repeat' split
  all_goals simp +decide

@[simp] theorem TimeOfDay.oneLine_text (t : TimeOfDay) : OneLine t.text := by
  simp +decide [text]

@[simp] theorem DateTime.oneLine_text (t : DateTime) : OneLine t.text := by
  simp +decide [text]

/-! ## Values -/

/-- Every value has a text of one line. -/
@[simp] theorem Value.oneLine_text (v : Value) : OneLine v.text := by
  cases v with
  | bool b => cases b <;> decide
  | bytes bs => simp +decide [text]
  | _ => simp [text]

/-- The name of the kind of a value is a word. -/
@[simp] theorem Value.oneLine_kindName (v : Value) : OneLine v.kindName := by
  cases v with
  | integer n =>
      rw [kindName]
      cases n.kind <;> decide
  | _ =>
      rw [kindName]
      decide

/-! ## Types -/

@[simp] theorem FieldType.oneLine_name (t : FieldType) : OneLine t.name := by
  intro c hc
  exact (t.isWord_name).1.isLineEnd c hc

@[simp] theorem FieldType.oneLine_text (t : FieldType) : OneLine t.text := by
  unfold text
  split
  · simp +decide
  · exact t.oneLine_name

/-! ## Messages -/

/-- The word that the message takes over. -/
def WordFault.word : WordFault → String
  | unknown word | needsLength word | lengthZero word | lengthAbove word _ _
  | takesNoLength word => word

/-- The texts that the message takes over as they are. -/
def EntryFault.texts : EntryFault → List String
  | numberTooLarge digits => [digits]
  | word cause => [cause.word]
  | missingBit name => [name]
  | bitIndex _ | needlessBit _ | missing _ => []

/-- The texts that the message takes over as they are; the line is quoted. -/
def LineFault.texts : LineFault → List String
  | malformed _ _ | noLayout => []
  | entry cause _ => cause.texts
  | duplicateName name _ => [name]

/-- The texts that the message takes over as they are; characters are quoted. -/
def InvalidCause.texts : InvalidCause → List String
  | beforeLayout name _ _ | duplicateName name => [name]
  | _ => []

/-- The texts that the message takes over as they are. -/
def MissingCause.texts : MissingCause → List String
  | row _ _ => []
  | id field _ => [field]

/-- The names and the texts from outside that the message takes over as they are. -/
def Fault.texts : Fault → List String
  | layoutText _ cause => cause.texts
  | unknownField name => [name]
  | invalid cause => cause.texts
  | notFound cause => cause.texts
  | unreadable text | device text => [text]
  | outOfRange _ | malformedBcd _ _ | typeMismatch _ _ | tooLarge _ | bufferTooSmall _ _ _ => []

theorem WordFault.oneLine_message {cause : WordFault} (h : OneLine cause.word) :
    OneLine cause.message := by
  cases cause with
  | _ word =>
      have hword : OneLine word := h
      simp +decide [message, hword]

theorem EntryFault.oneLine_message {cause : EntryFault} (h : ∀ s ∈ cause.texts, OneLine s) :
    OneLine cause.message := by
  unfold message
  cases cause with
  | numberTooLarge digits =>
      have hdigits : OneLine digits := h digits List.mem_cons_self
      simp +decide [hdigits]
  | bitIndex => simp +decide
  | word cause => exact cause.oneLine_message (h cause.word List.mem_cons_self)
  | missingBit name =>
      have hname : OneLine name := h name List.mem_cons_self
      simp +decide [hname]
  | needlessBit => simp +decide
  | missing part => cases part <;> decide

theorem GrammarRule.oneLine_title (r : GrammarRule) : OneLine r.title := by
  cases r <;> decide

theorem GrammarRule.oneLine_alternatives (rules : List GrammarRule) :
    OneLine (alternatives rules) := by
  unfold alternatives
  split
  · decide
  · next r => simp +decide [oneLine_title]
  · next r r' => simp +decide [oneLine_title]
  · next r rs _ _ =>
      have htitles : ∀ s ∈ (r :: rs.dropLast).map title, OneLine s := by
        intro s hs
        rcases List.mem_map.1 hs with ⟨r', _, rfl⟩
        exact r'.oneLine_title
      have hjoined := oneLine_intercalate (s := ", ") (by decide) htitles
      simp +decide only [oneLine_append, oneLine_title, hjoined, and_true]

theorem LineFault.oneLine_message {cause : LineFault} (h : ∀ s ∈ cause.texts, OneLine s) :
    OneLine cause.message := by
  unfold message
  cases cause with
  | malformed expected shown => simp +decide [GrammarRule.oneLine_alternatives]
  | entry cause shown =>
      have hcause : OneLine cause.message := cause.oneLine_message h
      simp +decide [hcause]
  | duplicateName name firstLine =>
      have hname : OneLine name := h name List.mem_cons_self
      simp +decide [hname]
  | noLayout => decide

theorem InvalidCause.oneLine_message {cause : InvalidCause} (h : ∀ s ∈ cause.texts, OneLine s) :
    OneLine cause.message := by
  unfold message
  cases cause with
  | beforeLayout name _ _ =>
      have hname : OneLine name := h name List.mem_cons_self
      simp +decide [hname]
  | duplicateName name => exact oneLine_append.2 ⟨by decide, h name List.mem_cons_self⟩
  | missingBit | emptyRows | noIdField => decide
  | _ => simp +decide

theorem RangeCause.oneLine_message (cause : RangeCause) : OneLine cause.message := by
  unfold message
  cases cause <;> simp +decide

theorem SizeCause.oneLine_message (cause : SizeCause) : OneLine cause.message := by
  unfold message
  cases cause <;> simp +decide

theorem MissingCause.oneLine_message {cause : MissingCause} (h : ∀ s ∈ cause.texts, OneLine s) :
    OneLine cause.message := by
  unfold message
  cases cause with
  | row => simp +decide
  | id field value =>
      have hfield : OneLine field := h field List.mem_cons_self
      simp +decide [hfield]

/-- A message has one line if the texts that it takes over have. -/
theorem Fault.oneLine_message {fault : Fault} (h : ∀ s ∈ fault.texts, OneLine s) :
    OneLine fault.message := by
  unfold message
  cases fault with
  | layoutText line cause => simp +decide [cause.oneLine_message h]
  | invalid cause => exact oneLine_append.2 ⟨by decide, cause.oneLine_message h⟩
  | outOfRange cause => exact oneLine_append.2 ⟨by decide, cause.oneLine_message⟩
  | tooLarge cause => exact oneLine_append.2 ⟨by decide, cause.oneLine_message⟩
  | notFound cause => exact oneLine_append.2 ⟨by decide, cause.oneLine_message h⟩
  | unknownField text | unreadable text | device text =>
      exact oneLine_append.2 ⟨by decide, h text List.mem_cons_self⟩
  | malformedBcd => simp +decide [Hex.byte]
  | typeMismatch | bufferTooSmall => simp +decide

end DataBlock
