import DataBlock.FieldType

/-!
# Type words

The words that name field types in a layout, in capital or small letters, with
the length that some of them take.

Main result:

- `FieldType.Sizing.build_eq_ok`: a family builds only types of a positive length
  within its limit.
-/

namespace DataBlock

/-- Why a word with its length is not a type. -/
inductive WordFault where
  | unknown (word : String)
  | needsLength (word : String)
  | lengthZero (word : String)
  | lengthAbove (word : String) (length limit : Nat)
  | takesNoLength (word : String)
  deriving DecidableEq, Repr

/-- The wording of a fault. -/
def WordFault.message : WordFault → String
  | unknown word => "Unknown type: " ++ word
  | needsLength word => word ++ " requires a length, e.g. " ++ word ++ "[10]"
  | lengthZero word => word ++ "[0]: length must be at least 1"
  | lengthAbove word length limit =>
      word ++ "[" ++ toString length ++ "]: length exceeds maximum " ++ toString limit
  | takesNoLength word => word ++ " does not take a length"

namespace FieldType

/-- The words for types without a length. -/
def plainWords : List (String × FieldType) :=
  [("BOOL", bool), ("BYTE", integer .byte), ("CHAR", char .narrow), ("WCHAR", char .wide),
    ("SINT", integer .sint), ("USINT", integer .usint), ("INT", integer .int),
    ("UINT", integer .uint), ("WORD", integer .uint), ("DINT", integer .dint),
    ("UDINT", integer .udint), ("DWORD", integer .udint), ("REAL", real),
    ("LREAL", longReal), ("S5TIME", s5time), ("TIME", time), ("DATE", date),
    ("TOD", timeOfDay), ("TIME_OF_DAY", timeOfDay), ("DT", dateAndTime),
    ("DATE_AND_TIME", dateAndTime), ("DTL", dateTimeLong)]

/-- A family of types with a length: the length that is meant when none is given,
and the largest one. -/
structure Sizing where
  make : Nat → FieldType
  usual : Option Nat
  limit : Option Nat

/-- The words for types with a length. -/
def sizedWords : List (String × Sizing) :=
  [("STRING", ⟨counted .narrow, some 254, some CharWidth.narrow.maxCapacity⟩),
    ("WSTRING", ⟨counted .wide, some 254, some CharWidth.wide.maxCapacity⟩),
    ("FSTRING", ⟨padded, none, none⟩),
    ("BYTES", ⟨raw, none, none⟩)]

/-- The type of a family with the given length. -/
def Sizing.build (s : Sizing) (word : String) (length : Option Nat) :
    Except WordFault FieldType :=
  match length.or s.usual with
  | none => .error (.needsLength word)
  | some 0 => .error (.lengthZero word)
  | some n =>
      match s.limit with
      | some limit => if limit < n then .error (.lengthAbove word n limit) else .ok (s.make n)
      | none => .ok (s.make n)

/-- The type that a word names, with its length if one is given.  Small letters
count as capitals. -/
def ofWord (word : String) (length : Option Nat) : Except WordFault FieldType :=
  let upper := word.map Char.toUpper
  match sizedWords.lookup upper with
  | some sizing => sizing.build upper length
  | none =>
      match plainWords.lookup upper, length with
      | some t, none => .ok t
      | some _, some _ => .error (.takesNoLength upper)
      | none, _ => .error (.unknown word)

/-- A family builds only types of a positive length within its limit. -/
theorem Sizing.build_eq_ok {s : Sizing} {word : String} {length : Option Nat}
    {t : FieldType} (h : s.build word length = .ok t) :
    ∃ n, length.or s.usual = some n ∧ 0 < n ∧ (∀ limit, s.limit = some limit → n ≤ limit)
      ∧ t = s.make n := by
  unfold build at h
  split at h
  · exact absurd h (by simp)
  · exact absurd h (by simp)
  · next n hzero hn =>
      have hpos : 0 < n := Nat.pos_of_ne_zero hzero
      split at h
      · next limit hlimit =>
          split at h
          · exact absurd h (by simp)
          · next hle =>
              refine ⟨n, hn, hpos, fun l hl => ?_, (Except.ok.inj h).symm⟩
              rw [hlimit] at hl
              cases hl
              omega
      · next hlimit =>
          refine ⟨n, hn, hpos, fun l hl => ?_, (Except.ok.inj h).symm⟩
          rw [hlimit] at hl
          cases hl

end FieldType
end DataBlock
