import DataBlock.Calendar.Span
import DataBlock.Proofs.Calendar
import DataBlock.Proofs.Printing.Numeral
import Mathlib

/-!
# Printed times are read back

The parts of a date and of a time of day have as many digits each whatever they are, so that
the text is cut at the same places; a year has a sign if it has not four digits, and a
fraction of a second as many digits as it needs.  A leap second is written as the second after it,
and is left out here.

Main results:

- `Span.text_ofMillis_inj`: spans of whole milliseconds are told apart.
- `Date.text_inj`, `TimeOfDay.text_inj`, `DateTime.text_inj`: dates and times are told apart.
-/

namespace DataBlock

/-! ## Spans -/

theorem Span.millis_ofMillis (ms : Int) : (ofMillis ms).millis = ms := by
  rw [ofMillis, millis]
  exact Int.mul_tdiv_cancel ms (by decide)

/-- Spans of whole milliseconds are told apart. -/
theorem Span.text_ofMillis_inj {m n : Int} (h : (ofMillis m).text = (ofMillis n).text) :
    m = n := by
  rw [text, text, String.append_left_inj, Int.toString_eq_repr, Int.toString_eq_repr,
    Int.repr_inj, millis_ofMillis, millis_ofMillis] at h
  exact h

/-! ## Dates -/

namespace Date

/-- The sign of a year that has not four digits. -/
def yearSign (year : Int) : List Char :=
  if year < 0 then ['-'] else if 9999 < year then ['+'] else []

theorem toList_yearText (year : Int) :
    (yearText year).toList = yearSign year ++ (Decimal.padded 4 year.natAbs).toList := by
  unfold yearText yearSign
  repeat' split
  · rw [String.toList_append]
    rfl
  · rw [String.toList_append]
    rfl
  · rw [List.nil_append]

/-- A sign has no digits. -/
theorem not_isDigit_of_mem_yearSign {year : Int} {c : Char} (h : c ∈ yearSign year) :
    c.isDigit = false := by
  unfold yearSign at h
  repeat' split at h
  · rw [List.mem_singleton] at h
    rw [h]
    decide
  · rw [List.mem_singleton] at h
    rw [h]
    decide
  · cases h

/-- The digits of a year are those of its magnitude. -/
theorem filter_isDigit_yearText (year : Int) :
    (yearText year).toList.filter Char.isDigit = (Decimal.padded 4 year.natAbs).toList := by
  have hsign : (yearSign year).filter Char.isDigit = [] := by
    rw [List.filter_eq_nil_iff]
    intro c hc
    simp [not_isDigit_of_mem_yearSign hc]
  have hdigits : (Decimal.padded 4 year.natAbs).toList.filter Char.isDigit
      = (Decimal.padded 4 year.natAbs).toList :=
    List.filter_eq_self.2 fun _ => Decimal.isDigit_of_mem_padded
  rw [toList_yearText, List.filter_append, hsign, hdigits, List.nil_append]

/-- Years are told apart. -/
theorem yearText_inj {year year' : Int} (h : yearText year = yearText year') : year = year' := by
  have hdigits := congrArg (fun s : String => s.toList.filter Char.isDigit) h
  simp only [filter_isDigit_yearText] at hdigits
  have habs : year.natAbs = year'.natAbs := Decimal.padded_inj (String.toList_injective hdigits)
  have hlist := congrArg String.toList h
  rw [toList_yearText, toList_yearText, habs, List.append_left_inj] at hlist
  unfold yearSign at hlist
  repeat' split at hlist
  all_goals first | omega | cases hlist

/-- The parts of a date between its hyphens. -/
theorem toList_text (d : Date) :
    d.text.toList = (yearText d.year).toList ++ ('-' :: ((Decimal.padded 2 d.month).toList
      ++ '-' :: (Decimal.padded 2 d.day).toList)) := by
  simp [text]

/-- Dates are told apart. -/
theorem text_inj {d d' : Date} (h : d.text = d'.text) : d = d' := by
  have hmonth : ∀ e : Date, (Decimal.padded 2 e.month).toList.length = 2 := fun e =>
    Decimal.length_padded (by decide) (by have := e.month_valid; omega)
  have hday : ∀ e : Date, (Decimal.padded 2 e.day).toList.length = 2 := fun e =>
    Decimal.length_padded (by decide) (by have := e.day_le; omega)
  have hlist := congrArg String.toList h
  rw [toList_text, toList_text] at hlist
  rcases List.append_inj' hlist (by simp [hmonth, hday]) with ⟨hyear, hrest⟩
  rcases List.append_inj (List.cons.inj hrest).2 (by rw [hmonth, hmonth]) with ⟨hmonths, hdays⟩
  have hyears := yearText_inj (String.toList_injective hyear)
  have hmonths := Decimal.padded_inj (String.toList_injective hmonths)
  have hdays := Decimal.padded_inj (String.toList_injective (List.cons.inj hdays).2)
  cases d
  cases d'
  cases hyears
  cases hmonths
  cases hdays
  rfl

/-- A date has no space in it. -/
theorem space_not_mem_text (d : Date) : ' ' ∉ d.text.toList := by
  have hdigits : ∀ width n, ' ' ∉ (Decimal.padded width n).toList := fun width n h =>
    absurd (Decimal.isDigit_of_mem_padded h) (by decide)
  have hsign : ' ' ∉ yearSign d.year := by
    unfold yearSign
    repeat' split
    all_goals decide
  simp [toList_text, toList_yearText, hdigits, hsign]

end Date

/-! ## Times of day -/

namespace TimeOfDay

/-- A fraction of a second has as many digits as it needs. -/
theorem exists_fractionText {nanos : Nat} (h : nanos < nanosPerSecond) :
    ∃ places n, n < 10 ^ places ∧ nanos = n * 10 ^ (9 - places)
      ∧ (fractionText nanos).toList
        = if places = 0 then [] else '.' :: (Decimal.padded places n).toList := by
  unfold nanosPerSecond at h
  unfold fractionText
  by_cases hzero : nanos = 0
  · exact ⟨0, 0, by decide, by omega, by rw [if_pos hzero]; rfl⟩
  rw [if_neg hzero]
  by_cases hmillis : nanos % 1000000 = 0
  · refine ⟨3, nanos / 1000000, by omega, by omega, ?_⟩
    rw [if_pos hmillis, String.toList_append]
    rfl
  rw [if_neg hmillis]
  by_cases hmicros : nanos % 1000 = 0
  · refine ⟨6, nanos / 1000, by omega, by omega, ?_⟩
    rw [if_pos hmicros, String.toList_append]
    rfl
  · refine ⟨9, nanos, by omega, by omega, ?_⟩
    rw [if_neg hmicros, String.toList_append]
    rfl

/-- Fractions of a second are told apart. -/
theorem fractionText_inj {m n : Nat} (hm : m < nanosPerSecond) (hn : n < nanosPerSecond)
    (h : fractionText m = fractionText n) : m = n := by
  rcases exists_fractionText hm with ⟨places, i, hi, rfl, htext⟩
  rcases exists_fractionText hn with ⟨places', j, hj, rfl, htext'⟩
  rw [h, htext'] at htext
  by_cases hplaces : places = 0
  · by_cases hplaces' : places' = 0
    · rw [hplaces] at hi
      rw [hplaces'] at hj
      have hzero : i = 0 ∧ j = 0 := by omega
      rw [hzero.1, hzero.2, Nat.zero_mul, Nat.zero_mul]
    · rw [if_pos hplaces, if_neg hplaces'] at htext
      cases htext
  · by_cases hplaces' : places' = 0
    · rw [if_neg hplaces, if_pos hplaces'] at htext
      cases htext
    · rw [if_neg hplaces, if_neg hplaces'] at htext
      have hdigits := (List.cons.inj htext).2
      have hlength := congrArg List.length hdigits
      rw [Decimal.length_padded (by omega) hj, Decimal.length_padded (by omega) hi] at hlength
      rw [hlength, Decimal.padded_inj (String.toList_injective hdigits)]

/-- The parts of a time outside of leap seconds, between its colons. -/
theorem toList_text {t : TimeOfDay} (h : ¬ t.IsLeap) :
    t.text.toList = (Decimal.padded 2 t.hour).toList ++ (':' :: ((Decimal.padded 2 t.minute).toList
      ++ (':' :: ((Decimal.padded 2 t.second).toList ++ (fractionText t.nanos).toList)))) := by
  have hnanos : t.nanos % nanosPerSecond = t.nanos := Nat.mod_eq_of_lt (Nat.not_le.1 h)
  simp [text, h, hnanos]

/-- Times of day outside of leap seconds are told apart. -/
theorem text_inj {t t' : TimeOfDay} (hleap : ¬ t.IsLeap) (hleap' : ¬ t'.IsLeap)
    (h : t.text = t'.text) : t = t' := by
  have htwo : ∀ m n, m < 60 → n < 60 →
      (Decimal.padded 2 m).toList.length = (Decimal.padded 2 n).toList.length := by
    intro m n hm hn
    rw [Decimal.length_padded (by decide) (Nat.lt_trans hm (by decide)),
      Decimal.length_padded (by decide) (Nat.lt_trans hn (by decide))]
  have hhour : t.hour < 60 := Nat.lt_trans t.hour_lt (by decide)
  have hhour' : t'.hour < 60 := Nat.lt_trans t'.hour_lt (by decide)
  have hlist := congrArg String.toList h
  rw [toList_text hleap, toList_text hleap'] at hlist
  rcases List.append_inj hlist (htwo _ _ hhour hhour') with ⟨hhours, hrest⟩
  rcases List.append_inj (List.cons.inj hrest).2 (htwo _ _ t.minute_lt t'.minute_lt)
    with ⟨hminutes, hrest⟩
  rcases List.append_inj (List.cons.inj hrest).2 (htwo _ _ t.second_lt t'.second_lt)
    with ⟨hseconds, hfractions⟩
  have hnanos := fractionText_inj (Nat.not_le.1 hleap) (Nat.not_le.1 hleap')
    (String.toList_injective hfractions)
  have hsome : some t = some t' := by
    rw [← ofParts?_parts hleap, ← ofParts?_parts hleap', hnanos,
      Decimal.padded_inj (String.toList_injective hhours),
      Decimal.padded_inj (String.toList_injective hminutes),
      Decimal.padded_inj (String.toList_injective hseconds)]
  exact Option.some.inj hsome

end TimeOfDay

/-- Dates with a time outside of leap seconds are told apart. -/
theorem DateTime.text_inj {t t' : DateTime} (hleap : ¬ t.time.IsLeap) (hleap' : ¬ t'.time.IsLeap)
    (h : t.text = t'.text) : t = t' := by
  have hlist : ∀ u : DateTime, u.text.toList = u.date.text.toList ++ ' ' :: u.time.text.toList := by
    intro u
    simp [text]
  have hchars := congrArg String.toList h
  rw [hlist, hlist] at hchars
  have hsplit := congrArg (List.splitOn ' ') hchars
  rw [List.splitOn_append_cons_self_of_not_mem t.date.space_not_mem_text,
    List.splitOn_append_cons_self_of_not_mem t'.date.space_not_mem_text] at hsplit
  have hdate := (List.cons.inj hsplit).1
  rw [hdate] at hchars
  have htime := (List.cons.inj (List.append_cancel_left hchars)).2
  cases t
  cases t'
  cases Date.text_inj (String.toList_injective hdate)
  cases TimeOfDay.text_inj hleap hleap' (String.toList_injective htime)
  rfl

end DataBlock
