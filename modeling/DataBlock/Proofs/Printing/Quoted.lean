import DataBlock.Proofs.Printing.Numeral
import DataBlock.Text.Quoted

/-!
# Quoted text is read back

How a character is written between quotes tells which one it is, and where what comes after
it begins: a character that is written as itself is neither the backslash nor the quote, one
letter after a backslash stands for one character, and a code point ends with its brace.

Main results:

- `Quoted.Written.of_escape`: the three ways in which characters are written.
- `Quoted.Written.append_inj`: what is written begins with one character only.
- `Quoted.char_inj`, `Quoted.text_inj`: quoted characters and texts are told apart.
-/

namespace DataBlock
namespace Quoted

/-- The character that a letter after a backslash stands for. -/
def meant (letter : Char) : Char :=
  if letter = '0' then '\x00'
  else if letter = 't' then '\t'
  else if letter = 'r' then '\r'
  else if letter = 'n' then '\n'
  else letter

/-- The quotes that are used around characters and around texts. -/
def IsQuote (quote : Char) : Prop :=
  quote = '\'' ∨ quote = '"'

variable {quote c d : Char}

/-- How a character is written inside quotes. -/
inductive Written (quote c : Char) : List Char → Prop where
  | itself (hslash : c ≠ '\\') (hquote : c ≠ quote) : Written quote c [c]
  | letter (l : Char) (hl : l ≠ 'u') (hmeant : meant l = c) : Written quote c ['\\', l]
  | codePoint : Written quote c (codePoint c)

/-- A letter stands for the character that is written with it. -/
theorem meant_of_letter? {l : Char} (h : letter? c = some l) : l ≠ 'u' ∧ meant l = c := by
  unfold letter? at h
  repeat' split at h
  all_goals cases h
  all_goals refine ⟨by decide, ?_⟩
  all_goals symm; assumption

/-- There are three ways in which characters are written. -/
theorem Written.of_escape (hquote : IsQuote quote) (c : Char) :
    Written quote c (escape quote c) := by
  unfold escape
  cases hletter : letter? c with
  | some l =>
      rcases meant_of_letter? hletter with ⟨hl, hmeant⟩
      exact .letter l hl hmeant
  | none =>
      simp only
      by_cases hsame : c = quote
      · have hc : c ≠ 'u' ∧ meant c = c := by
          rcases hquote with rfl | rfl
          · rw [hsame]
            decide
          · rw [hsame]
            decide
        rw [if_pos hsame]
        exact .letter c hc.1 hc.2
      · rw [if_neg hsame]
        split
        · exact .codePoint
        · refine .itself ?_ hsame
          rintro rfl
          cases hletter

/-- No code point has a brace among its digits. -/
theorem brace_not_mem_digits (n : Nat) : '\x7d' ∉ Hex.digits n := by
  intro h
  rcases Hex.exists_digitChar_of_mem_digits h with ⟨k, hk⟩
  exact Nat.digitChar_ne '\x7d' (by decide) hk.symm

/-- A code point ends with its brace. -/
theorem codePoint_append_inj {rest rest' : List Char}
    (h : codePoint c ++ rest = codePoint d ++ rest') : c = d ∧ rest = rest' := by
  simp only [codePoint, List.cons_append, List.append_assoc, List.nil_append, List.cons.injEq,
    true_and] at h
  have hsplit := congrArg (List.splitOn '\x7d') h
  rw [List.splitOn_append_cons_self_of_not_mem (brace_not_mem_digits _),
    List.splitOn_append_cons_self_of_not_mem (brace_not_mem_digits _)] at hsplit
  have hdigits := (List.cons.inj hsplit).1
  rw [hdigits] at h
  exact ⟨Char.toNat_inj.1 (Hex.digits_inj hdigits),
    (List.cons.inj (List.append_cancel_left h)).2⟩

/-- What is written begins with one character only. -/
theorem Written.append_inj {cs ds rest rest' : List Char} (hc : Written quote c cs)
    (hd : Written quote d ds) (h : cs ++ rest = ds ++ rest') : c = d ∧ rest = rest' := by
  cases hc with
  | itself hslash _ =>
      cases hd with
      | itself _ _ => exact List.cons.inj h
      | letter l hl hmeant => exact absurd (List.cons.inj h).1 hslash
      | codePoint => exact absurd (List.cons.inj h).1 hslash
  | letter l hl hmeant =>
      cases hd with
      | itself hslash _ => exact absurd (List.cons.inj h).1.symm hslash
      | letter l' hl' hmeant' =>
          rcases List.cons.inj (List.cons.inj h).2 with ⟨hsame, hrest⟩
          exact ⟨by rw [← hmeant, ← hmeant', hsame], hrest⟩
      | codePoint => exact absurd (List.cons.inj (List.cons.inj h).2).1 hl
  | codePoint =>
      cases hd with
      | itself hslash _ => exact absurd (List.cons.inj h).1.symm hslash
      | letter l hl hmeant => exact absurd (List.cons.inj (List.cons.inj h).2).1.symm hl
      | codePoint => exact codePoint_append_inj h

/-- What is written inside quotes does not begin with the quote. -/
theorem Written.append_ne_quote (hquote : IsQuote quote) {cs rest rest' : List Char}
    (hc : Written quote c cs) : cs ++ rest ≠ quote :: rest' := by
  have hslash : '\\' ≠ quote := by
    rcases hquote with rfl | rfl
    · decide
    · decide
  intro h
  cases hc with
  | itself _ hne => exact hne (List.cons.inj h).1
  | letter l _ _ => exact hslash (List.cons.inj h).1
  | codePoint => exact hslash (List.cons.inj h).1

/-! ## Characters and texts -/

/-- Quoted characters are told apart. -/
theorem char_inj (h : char c = char d) : c = d := by
  rw [char, char, String.ofList_inj] at h
  have hc := Written.of_escape (.inl rfl) c
  exact (hc.append_inj (Written.of_escape (.inl rfl) d) (List.cons.inj h).2).1

/-- Characters up to the quote at the end are told apart. -/
theorem flatMap_escape_inj (hquote : IsQuote quote) {cs ds : List Char}
    (h : cs.flatMap (escape quote) ++ [quote] = ds.flatMap (escape quote) ++ [quote]) :
    cs = ds := by
  induction cs generalizing ds with
  | nil =>
      cases ds with
      | nil => rfl
      | cons d ds =>
          rw [List.flatMap_cons, List.append_assoc] at h
          exact absurd h.symm ((Written.of_escape hquote d).append_ne_quote hquote)
  | cons c cs ih =>
      cases ds with
      | nil =>
          rw [List.flatMap_cons, List.append_assoc] at h
          exact absurd h ((Written.of_escape hquote c).append_ne_quote hquote)
      | cons d ds =>
          rw [List.flatMap_cons, List.flatMap_cons, List.append_assoc, List.append_assoc] at h
          rcases (Written.of_escape hquote c).append_inj (Written.of_escape hquote d) h
            with ⟨rfl, hrest⟩
          rw [ih hrest]

/-- Quoted texts are told apart. -/
theorem text_inj {s s' : String} (h : text s = text s') : s = s' := by
  rw [text, text, String.ofList_inj] at h
  exact String.toList_injective (flatMap_escape_inj (.inr rfl) (List.cons.inj h).2)

end Quoted
end DataBlock
