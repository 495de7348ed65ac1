import DataBlock.Proofs.Printing
import DataBlock.Table

/-!
# Rows with the same id

When a table is made, the rows are told of whose id cannot be read or has the text of an
earlier one.  A row is looked up by an id with another comparison, that of keys.  The two
agree on all ids but floating-point ones that are no numbers, which have one text and are
never the same key, and zeros of opposite sign, which are the same key and have two texts.

Main results:

- `Table.idReport`: what is to be told of the ids, for a given comparison.
- `Table.idEvents_eq_idReport`: what is told of is a report on the texts of the ids.
- `FieldType.Yields.sameText_iff_sameKey`: ids on which text and key agree.
- `Table.events_report_keys_iff`: when what is told of is a report on keys.
-/

namespace DataBlock

/-! ## Reports -/

namespace Table

variable (t : Table) (name : String) (same : Value → Value → Prop) [DecidableRel same]

/-- A row has an id that is the same as a given one. -/
def hasId (v : Value) (i : Nat) : Bool :=
  match (t.row i).get name with
  | .ok w => decide (same w v)
  | .error _ => false

/-- The first of the rows before `j` that has a given id. -/
def firstBefore? (v : Value) (j : Nat) : Option Nat :=
  (List.range j).find? (t.hasId name same v)

/-- What is to be told of the id of a row: that it cannot be read, or which row before has
the same one. -/
def idEvent? (j : Nat) : Option Event :=
  match (t.row j).get name with
  | .error fault => some (.idNotDecodable j fault)
  | .ok v => (t.firstBefore? name same v j).map fun first => .duplicateId v.text first j

/-- What is to be told of the ids of all rows, in order. -/
def idReport : List Event :=
  (List.range t.size).filterMap (t.idEvent? name same)

end Table

/-- The row whose id an event is about. -/
def Event.idRow? : Event → Option Nat
  | idNotDecodable row _ => some row
  | duplicateId _ _ duplicate => some duplicate
  | _ => none

/-- The values have the same text. -/
def Value.SameText (v w : Value) : Prop :=
  v.text = w.text

instance : DecidableRel Value.SameText :=
  fun v w => inferInstanceAs (Decidable (v.text = w.text))

namespace Table

variable {t : Table} {name : String} {same : Value → Value → Prop} [DecidableRel same]

theorem hasId_of_ok {v w : Value} {i : Nat} (h : (t.row i).get name = .ok w) :
    t.hasId name same v i = decide (same w v) := by
  rw [hasId, h]

theorem hasId_of_error {v : Value} {i : Nat} {fault : Fault}
    (h : (t.row i).get name = .error fault) : t.hasId name same v i = false := by
  rw [hasId, h]

/-- One more row is looked at if no row before it has the id. -/
theorem firstBefore?_succ (v : Value) (j : Nat) :
    t.firstBefore? name same v (j + 1)
      = (t.firstBefore? name same v j).or (if t.hasId name same v j then some j else none) := by
  rw [firstBefore?, firstBefore?, List.range_succ, List.find?_append, List.find?_singleton]

/-- The rows in order are those with the indices in order. -/
theorem rows_eq_map (t : Table) : t.rows = (List.range t.size).map t.row := by
  apply List.ext_getElem?
  intro i
  rw [getElem?_rows, List.getElem?_map]
  by_cases h : i < t.size
  · rw [if_pos h, List.getElem?_range h, Option.map_some]
  · rw [if_neg h, List.getElem?_eq_none (by simpa using h), Option.map_none]

/-! ## What is told of -/

/-- The texts seen before a row are those of the ids of the rows before it, each with the
first row that has it. -/
def Seen (t : Table) (name : String) (seen : List (String × Nat)) (i : Nat) : Prop :=
  ∀ v : Value, seen.lookup v.text = t.firstBefore? name Value.SameText v i

theorem seen_nil (t : Table) (name : String) : t.Seen name [] 0 :=
  fun _ => rfl

theorem Seen.succ_of_error {seen : List (String × Nat)} {i : Nat} {fault : Fault}
    (h : t.Seen name seen i) (hid : (t.row i).get name = .error fault) :
    t.Seen name seen (i + 1) := by
  intro v
  rw [firstBefore?_succ, hasId_of_error hid, if_neg Bool.false_ne_true, Option.or_none, h v]

/-- A text that was seen before keeps its first row. -/
theorem Seen.succ_of_seen {seen : List (String × Nat)} {i first : Nat} {w : Value}
    (h : t.Seen name seen i) (hid : (t.row i).get name = .ok w)
    (hseen : seen.lookup w.text = some first) : t.Seen name seen (i + 1) := by
  intro v
  rw [firstBefore?_succ, hasId_of_ok hid, ← h v]
  by_cases hsame : w.SameText v
  · have htext : w.text = v.text := hsame
    rw [← htext, hseen, Option.some_or]
  · rw [if_neg (mt of_decide_eq_true hsame), Option.or_none]

/-- A new text is seen with its row. -/
theorem Seen.succ_of_new {seen : List (String × Nat)} {i : Nat} {w : Value}
    (h : t.Seen name seen i) (hid : (t.row i).get name = .ok w)
    (hseen : seen.lookup w.text = none) : t.Seen name ((w.text, i) :: seen) (i + 1) := by
  intro v
  rw [firstBefore?_succ, hasId_of_ok hid, ← h v, List.lookup_cons]
  by_cases hsame : w.SameText v
  · have htext : w.text = v.text := hsame
    rw [← htext, hseen, Option.none_or, if_pos (decide_eq_true hsame), beq_self_eq_true]
  · have hne : (v.text == w.text) = false := beq_eq_false_iff_ne.2 (Ne.symm hsame)
    rw [hne, if_neg (mt of_decide_eq_true hsame), Option.or_none]

/-- The events from a row on are those of a report on texts. -/
theorem idEventsFrom_eq {seen : List (String × Nat)} {i : Nat} (h : t.Seen name seen i)
    (n : Nat) :
    idEventsFrom name seen i ((List.range' i n).map t.row)
      = (List.range' i n).filterMap (t.idEvent? name Value.SameText) := by
  -- On the rows that are left, where the texts seen before the next one are carried along.
  induction n generalizing seen i with
  | zero => rfl
  | succ n ih =>
      rw [List.range'_succ, List.map_cons, idEventsFrom]
      cases hid : (t.row i).get name with
      | error fault =>
          have hevent : t.idEvent? name Value.SameText i = some (.idNotDecodable i fault) := by
            rw [idEvent?, hid]
          rw [List.filterMap_cons_some hevent, ← ih (h.succ_of_error hid)]
      | ok v =>
          have hevent : t.idEvent? name Value.SameText i
              = (seen.lookup v.text).map fun first => .duplicateId v.text first i := by
            rw [idEvent?, hid, h v]
          cases hseen : seen.lookup v.text with
          | some first =>
              rw [hseen, Option.map_some] at hevent
              simp only [hseen]
              rw [List.filterMap_cons_some hevent, ← ih (h.succ_of_seen hid hseen)]
          | none =>
              rw [hseen, Option.map_none] at hevent
              simp only [hseen]
              rw [List.filterMap_cons_none hevent, ← ih (h.succ_of_new hid hseen)]

/-- What is told of the ids of a table is a report on their texts. -/
theorem idEvents_eq_idReport (h : t.options.idField = some name) :
    t.idEvents = t.idReport name Value.SameText := by
  rw [idEvents, h, rows_eq_map, idReport, List.range_eq_range']
  exact idEventsFrom_eq (seen_nil t name) t.size

end Table

/-! ## Texts and keys -/

/-- Two values that have one text and are not the same key, or are the same key and have two
texts: both no numbers, or zeros of opposite sign. -/
def Value.Doubtful (v w : Value) : Prop :=
  v.IsNaN ∧ w.IsNaN ∨ v ≠ w ∧ v.IsZero ∧ w.IsZero

instance (v w : Value) : Decidable (v.Doubtful w) :=
  inferInstanceAs (Decidable (_ ∧ _ ∨ _ ∧ _ ∧ _))

/-- On values of a type, text and key agree but for those that are doubtful. -/
theorem FieldType.Yields.sameText_iff_sameKey {type : FieldType} {v w : Value}
    (hv : type.Yields v) (hw : type.Yields w) (h : ¬ v.Doubtful w) :
    v.SameText w ↔ v.SameKey w := by
  unfold Value.Doubtful at h
  rw [Value.SameText, hv.text_eq_iff hw, hv.sameKey_iff hw]
  by_cases heq : v = w
  · subst heq
    tauto
  · tauto

namespace Table

variable {t : Table} {name : String} {same : Value → Value → Prop} [DecidableRel same]

/-- The ids of all rows are values of one type. -/
theorem exists_yields (t : Table) (name : String) :
    ∃ type : FieldType, ∀ i v, (t.row i).get name = .ok v → type.Yields v := by
  cases hfield : t.layout.field name with
  | error fault =>
      refine ⟨.bool, fun i v h => ?_⟩
      have hrow : (t.row i).layout.field name = .error fault := hfield
      rw [Row.get, hrow, Outcome.error_bind] at h
      cases h
  | ok f =>
      refine ⟨f.type, fun i v h => ?_⟩
      have hrow : (t.row i).layout.field name = .ok f := hfield
      rw [Row.get, hrow, Outcome.ok_bind, Row.read] at h
      rcases Outcome.bind_eq_ok_iff.1 h with ⟨offset, _, hdecode⟩
      exact FieldType.yields_of_decode hdecode

/-- A row before has the id exactly if there is a first one. -/
theorem isSome_firstBefore?_iff {w : Value} {j : Nat} :
    (t.firstBefore? name same w j).isSome = true
      ↔ ∃ i < j, ∃ v, (t.row i).get name = .ok v ∧ same v w := by
  rw [firstBefore?, List.find?_isSome]
  constructor
  · rintro ⟨i, hi, hhas⟩
    cases hid : (t.row i).get name with
    | error fault =>
        rw [hasId_of_error hid] at hhas
        cases hhas
    | ok v =>
        rw [hasId_of_ok hid] at hhas
        exact ⟨i, List.mem_range.1 hi, v, hid, of_decide_eq_true hhas⟩
  · rintro ⟨i, hi, v, hid, hsame⟩
    refine ⟨i, List.mem_range.2 hi, ?_⟩
    rw [hasId_of_ok hid]
    exact decide_eq_true hsame

/-! ## Reports on texts and on keys -/

theorem idRow?_of_idEvent? {j : Nat} {e : Event} (h : t.idEvent? name same j = some e) :
    e.idRow? = some j := by
  unfold idEvent? at h
  split at h
  · cases h
    rfl
  · rcases Option.map_eq_some_iff.1 h with ⟨first, _, rfl⟩
    rfl

/-- A report tells of each row what there is to be told of it. -/
theorem idEvent?_of_mem_idReport {j : Nat} {e : Event} (h : e ∈ t.idReport name same)
    (hrow : e.idRow? = some j) : t.idEvent? name same j = some e := by
  rcases List.mem_filterMap.1 h with ⟨i, _, hi⟩
  have hsame := (idRow?_of_idEvent? hi).symm.trans hrow
  rwa [Option.some.inj hsame] at hi

/-- Reports that are the same tell the same of each row. -/
theorem idEvent?_eq_of_idReport_eq {same' : Value → Value → Prop} [DecidableRel same']
    (h : t.idReport name same = t.idReport name same') {j : Nat} (hj : j < t.size) :
    t.idEvent? name same j = t.idEvent? name same' j := by
  have hmem : ∀ {rel : Value → Value → Prop} [DecidableRel rel] {e : Event},
      t.idEvent? name rel j = some e → e ∈ t.idReport name rel := fun hevent =>
    List.mem_filterMap.2 ⟨j, List.mem_range.2 hj, hevent⟩
  apply Option.ext
  intro e
  constructor
  · intro hevent
    exact idEvent?_of_mem_idReport (h ▸ hmem hevent) (idRow?_of_idEvent? hevent)
  · intro hevent
    exact idEvent?_of_mem_idReport (h ▸ hmem hevent) (idRow?_of_idEvent? hevent)

/-- No ids of two rows are doubtful. -/
def Clear (t : Table) (name : String) : Prop :=
  ∀ i j v w, i < j → j < t.size → (t.row i).get name = .ok v → (t.row j).get name = .ok w →
    ¬ v.Doubtful w

/-- Where no ids are doubtful, a report on texts is one on keys. -/
theorem idReport_eq_of_clear (h : t.Clear name) :
    t.idReport name Value.SameText = t.idReport name Value.SameKey := by
  rcases t.exists_yields name with ⟨type, hyields⟩
  unfold idReport
  apply List.filterMap_congr
  intro j hj
  rw [List.mem_range] at hj
  unfold idEvent?
  cases hw : (t.row j).get name with
  | error fault => rfl
  | ok w =>
      have hfirst : t.firstBefore? name Value.SameText w j
          = t.firstBefore? name Value.SameKey w j := by
        unfold firstBefore?
        apply List.find?_congr
        intro i hi
        cases hv : (t.row i).get name with
        | error fault => rw [hasId_of_error hv, hasId_of_error hv]
        | ok v =>
            have hclear := h i j v w (List.mem_range.1 hi) hj hv hw
            rw [hasId_of_ok hv, hasId_of_ok hv, decide_eq_decide]
            exact (hyields i v hv).sameText_iff_sameKey (hyields j w hw) hclear
      simp only [hfirst]

/-- Where reports on texts and on keys are the same, a row has an earlier one with the same
text exactly if it has an earlier one with the same key. -/
theorem exists_sameText_iff_exists_sameKey
    (h : t.idReport name Value.SameText = t.idReport name Value.SameKey) {j : Nat}
    (hj : j < t.size) {w : Value} (hw : (t.row j).get name = .ok w) :
    (∃ i < j, ∃ v, (t.row i).get name = .ok v ∧ v.SameText w)
      ↔ ∃ i < j, ∃ v, (t.row i).get name = .ok v ∧ v.SameKey w := by
  have hevent := congrArg Option.isSome (idEvent?_eq_of_idReport_eq h hj)
  simp only [idEvent?, hw, Option.isSome_map] at hevent
  rw [← isSome_firstBefore?_iff, ← isSome_firstBefore?_iff, hevent]

/-- Where reports on texts and on keys are the same, no ids are doubtful. -/
theorem clear_of_idReport_eq
    (h : t.idReport name Value.SameText = t.idReport name Value.SameKey) : t.Clear name := by
  rcases t.exists_yields name with ⟨type, hyields⟩
  intro i j
  -- The first row with a doubtful id shows the difference, so the rows before it are clear.
  induction j using Nat.strongRecOn generalizing i with
  | ind j ih =>
      intro v w hij hj hv hw hdoubtful
      have htype := hyields j w hw
      have hiff := exists_sameText_iff_exists_sameKey h hj hw
      rcases hdoubtful with ⟨hnan, hnan'⟩ | ⟨hne, hzero, hzero'⟩
      · have htext : v.SameText w := ((hyields i v hv).text_eq_iff htype).2 (.inl ⟨hnan, hnan'⟩)
        rcases hiff.1 ⟨i, hij, v, hv, htext⟩ with ⟨k, hk, u, hu, hkey⟩
        rcases ((hyields k u hu).sameKey_iff htype).1 hkey with ⟨hnumber, rfl | ⟨_, hzero⟩⟩
        · exact hnumber hnan'
        · exact Value.not_isNaN_of_isZero hzero hnan'
      · have hkey : v.SameKey w := ((hyields i v hv).sameKey_iff htype).2
          ⟨Value.not_isNaN_of_isZero hzero, .inr ⟨hzero, hzero'⟩⟩
        rcases hiff.2 ⟨i, hij, v, hv, hkey⟩ with ⟨k, hk, u, hu, htext⟩
        rcases ((hyields k u hu).text_eq_iff htype).1 htext with ⟨_, hnan⟩ | rfl
        · exact Value.not_isNaN_of_isZero hzero' hnan
        · rcases Nat.lt_trichotomy i k with hlt | rfl | hgt
          · exact ih k hk i v u hlt (by omega) hv hu (.inr ⟨hne, hzero, hzero'⟩)
          · rw [hv] at hu
            exact hne (Except.ok.inj hu)
          · exact ih i hij k u v hgt (by omega) hu hv (.inr ⟨hne.symm, hzero', hzero⟩)

/-- When a table is made with an id field, what is told of is a report on the texts of the
ids, with the rows that have the same id and those whose id cannot be read.  It is a report on
the ids as keys, by which rows are looked up, exactly if no two ids are both no numbers, or
zeros of opposite sign. -/
theorem events_report_keys_iff {l : Layout} {bytes : Bytes} {o : TableOptions} {t : Table}
    (htable : (ofBytes l bytes o).value = .ok t) {name : String} (hid : o.idField = some name) :
    (ofBytes l bytes o).events = t.idReport name Value.SameText ++ [t.boundEvent]
      ∧ ((ofBytes l bytes o).events = t.idReport name Value.SameKey ++ [t.boundEvent]
        ↔ t.Clear name) := by
  rcases ofBytes_eq_ok htable with ⟨_, hoptions, _, hevents⟩
  have htext : (ofBytes l bytes o).events = t.idReport name Value.SameText ++ [t.boundEvent] := by
    rw [hevents, idEvents_eq_idReport (by rw [hoptions, hid])]
  refine ⟨htext, ?_⟩
  rw [htext, List.append_left_inj]
  exact ⟨clear_of_idReport_eq, idReport_eq_of_clear⟩

/-- Four rows with a span as id.  The first and the third have the same span, of different
bytes; the second has no span. -/
def spanIds : Table where
  layout := ⟨[⟨"id", 0, none, .s5time⟩], by decide⟩
  options := ⟨.dataBlock, 1, none, 0, 4, 0, 0, some "id"⟩
  bytes := [0x00, 0x10, 0x0a, 0x00, 0x10, 0x01, 0x00, 0x02]
  rowSize := 2
  stride := 2
  fits := TableOptions.fits_of_check (by decide)

/-- What is told of spans is a report on keys, and so no two of them are doubtful. -/
theorem events_report_keys_of_spans :
    (ofBytes spanIds.layout spanIds.bytes spanIds.options).value = .ok spanIds
    ∧ (ofBytes spanIds.layout spanIds.bytes spanIds.options).events
      = [.idNotDecodable 1 (.malformedBcd 0 0x0a), .duplicateId "100ms" 0 2, spanIds.boundEvent]
    ∧ spanIds.Clear "id" := by
  have htable : (ofBytes spanIds.layout spanIds.bytes spanIds.options).value = .ok spanIds := by
    decide +kernel
  have hevents : (ofBytes spanIds.layout spanIds.bytes spanIds.options).events
      = [.idNotDecodable 1 (.malformedBcd 0 0x0a), .duplicateId "100ms" 0 2,
        spanIds.boundEvent] := by
    decide +kernel
  have hreport : spanIds.idReport "id" Value.SameKey ++ [spanIds.boundEvent]
      = [.idNotDecodable 1 (.malformedBcd 0 0x0a), .duplicateId "100ms" 0 2,
        spanIds.boundEvent] := by
    decide +kernel
  exact ⟨htable, hevents, (events_report_keys_iff htable rfl).2.1 (hevents.trans hreport.symm)⟩

/-- Two rows with a floating-point number as id, both of which are no numbers. -/
def nanIds : Table where
  layout := ⟨[⟨"id", 0, none, .real⟩], by decide⟩
  options := ⟨.dataBlock, 1, none, 0, 2, 0, 0, some "id"⟩
  bytes := [0x7f, 0xc0, 0x00, 0x00, 0x7f, 0xc0, 0x00, 0x00]
  rowSize := 4
  stride := 4
  fits := TableOptions.fits_of_check (by decide)

/-- Two rows with zeros of opposite sign as ids. -/
def signedZeroIds : Table where
  layout := ⟨[⟨"id", 0, none, .real⟩], by decide⟩
  options := ⟨.dataBlock, 1, none, 0, 2, 0, 0, some "id"⟩
  bytes := [0x00, 0x00, 0x00, 0x00, 0x80, 0x00, 0x00, 0x00]
  rowSize := 4
  stride := 4
  fits := TableOptions.fits_of_check (by decide)

/-- Rows whose ids are no numbers are told of as duplicates, though neither is found by its
id.  A row that is not found by its id since an earlier one has a zero of the other sign is
not told of. -/
theorem events_differ_from_keys :
    (ofBytes nanIds.layout nanIds.bytes nanIds.options).events
      = [.duplicateId "NaN" 0 1, nanIds.boundEvent]
    ∧ nanIds.idReport "id" Value.SameKey = []
    ∧ (nanIds.row 0).get "id" = .ok (.single 0x7fc00000)
    ∧ nanIds.indexOf (.single 0x7fc00000)
      = .error (.notFound (.id "id" (.single 0x7fc00000)))
    ∧ (ofBytes signedZeroIds.layout signedZeroIds.bytes signedZeroIds.options).events
      = [signedZeroIds.boundEvent]
    ∧ signedZeroIds.idReport "id" Value.SameKey = [.duplicateId "-0" 0 1]
    ∧ (signedZeroIds.row 1).get "id" = .ok (.single 0x80000000)
    ∧ signedZeroIds.indexOf (.single 0x80000000) = .ok 0 := by
  decide +kernel

end Table
end DataBlock
