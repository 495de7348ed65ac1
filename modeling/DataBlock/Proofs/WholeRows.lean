import DataBlock.Command
import DataBlock.Proofs.ByteDump
import DataBlock.Proofs.TableGeometry

/-!
# The command shows every whole row

The command cuts a block of bytes into as many whole rows as there are in it, and has a table check
the rows again.  Of the requirements of a table, only four can be unmet: that no field lies before
the first byte of a row, that there is an address behind every field, that the layout is no longer
than a row, and that the first row begins within the block.  A row must also have a byte.  If all
this holds, the rows are printed one after the other, each from its own bytes, and fewer bytes than
a row has are left out.

Main results:

- `Command.Request.check_tableOptions`: the four requirements that whole rows may not meet.
- `Command.rowsText_of_no_stop`: what is printed for rows that pass the check.
- `Command.run_shows_whole_rows`: how the command ends, and what it prints.
- `Command.run_stops_at_end`: the command stops where there is no address behind a field.
-/

namespace DataBlock
namespace Command

/-! ## Files -/

/-- The bytes of a file with a text. -/
def fileBytes (s : String) : Bytes :=
  s.toUTF8.data.toList

/-- The layout in the file of a text is the one that the text is parsed as. -/
theorem layoutOf_fileBytes (s : String) :
    layoutOf (.ok (fileBytes s)) = (Layout.parse s).value := by
  have hvalid : String.fromUTF8? s.toUTF8 = some s := dif_pos s.isValidUTF8
  have hbytes : (⟨(fileBytes s).toArray⟩ : ByteArray) = s.toUTF8 := by
    rw [fileBytes, Array.toArray_toList]
  simp only [layoutOf, Outcome.mapError_ok, Outcome.ok_bind, hbytes, hvalid]

/-! ## The rows of a block -/

namespace Request

variable (q : Request) (l : Layout) (data : Bytes) (size : Nat)

/-- The bytes of a row: as many as the fields take if nothing is said. -/
def rowLength : Nat :=
  q.rowSize.getD (l.extent q.layoutOffset)

/-- It is said how long a row is, or there is an address behind every field. -/
def LengthKnown : Prop :=
  q.rowSize = none → ∀ f ∈ l.fields, f.behind < countLimit

/-- The options with which the table of the rows is made. -/
def cutting : TableOptions :=
  q.tableOptions (q.rowLength l) size

/-- How many whole rows there are in a block of `size` bytes. -/
def wholeRows : Nat :=
  (size - q.dbOffset) / q.rowLength l

/-- The index of the first byte of a row. -/
def rowStart (i : Nat) : Nat :=
  q.dbOffset + i * q.rowLength l

/-- The bytes of a row. -/
def rowBytes (i : Nat) : Bytes :=
  data.slice (q.rowStart l i) (q.rowLength l)

/-- What is to be printed for a row: a heading with its index and its place, its bytes in lines
that are indented by two spaces, if they are asked for, and its fields in lines that are indented
once. -/
def shownRow (i : Nat) : String :=
  let row : Row := ⟨l, q.layoutOffset, ⟨.dataBlock, 0, q.rowStart l i⟩, q.rowBytes l data i⟩
  let heading := "\nrow " ++ toString i ++ " @ " ++ toString (q.rowStart l i) ++ "\n"
  let dump := (textLines (Dump.text (q.rowBytes l data i))).map fun line => "  " ++ line ++ "\n"
  heading ++ (if q.raw then String.join dump else "") ++ row.listing 1 ++ "\n"

@[simp] theorem rowCount_cutting : (q.cutting l size).rowCount = q.wholeRows l size :=
  rfl

variable {q l data size}

/-- The command tells the length of a row, if it is known. -/
theorem rowLength?_eq_some (h : q.LengthKnown l) : q.rowLength? l = some (q.rowLength l) := by
  cases hsize : q.rowSize with
  | some length => simp only [rowLength?, rowLength, hsize, Option.getD_some]
  | none =>
      simp only [rowLength?, rowLength, hsize, Option.getD_none]
      exact Layout.span_eq_some_iff.2 ⟨h hsize, rfl⟩

theorem rowLength?_eq_none (h : ¬ q.LengthKnown l) : q.rowLength? l = none := by
  rw [LengthKnown, Classical.not_imp] at h
  rw [rowLength?, h.1]
  exact Layout.span_eq_none_iff.2 h.2

/-- The length of a row is a count, if it is known. -/
theorem rowLength_lt (hcount : ∀ n ∈ q.rowSize, n < countLimit) (h : q.LengthKnown l) :
    q.rowLength l < countLimit := by
  cases hsize : q.rowSize with
  | some length =>
      rw [rowLength, hsize]
      exact hcount length hsize
  | none =>
      rw [rowLength, hsize]
      exact Layout.extent_lt (h hsize) q.layoutOffset

/-- The whole rows fit into the block behind the first of them. -/
theorem wholeRows_mul_le : q.rowLength l * q.wholeRows l size ≤ size - q.dbOffset :=
  Nat.mul_div_le _ _

/-- Fewer bytes than a row has are left behind the last whole row. -/
theorem left_lt (hpos : 0 < q.rowLength l) :
    size - q.rowStart l (q.wholeRows l size) < q.rowLength l := by
  have hlt := Nat.lt_mul_div_succ (size - q.dbOffset) hpos
  have hcomm : q.wholeRows l size * q.rowLength l
      = q.rowLength l * ((size - q.dbOffset) / q.rowLength l) := Nat.mul_comm _ _
  rw [Nat.mul_add, Nat.mul_one] at hlt
  rw [rowStart, hcomm]
  omega

/-- Every whole row lies within the block. -/
theorem length_rowBytes (hpos : 0 < q.rowLength l) {i : Nat}
    (hi : i < q.wholeRows l data.length) : (q.rowBytes l data i).length = q.rowLength l := by
  have hfits : q.rowLength l * q.wholeRows l data.length ≤ data.length - q.dbOffset :=
    wholeRows_mul_le
  have hlast : q.rowLength l * (i + 1) ≤ q.rowLength l * q.wholeRows l data.length :=
    Nat.mul_le_mul_left _ hi
  have hcomm : i * q.rowLength l = q.rowLength l * i := Nat.mul_comm _ _
  rw [Nat.mul_add, Nat.mul_one] at hlast
  apply Bytes.length_slice
  rw [rowStart, hcomm]
  omega

open TableOptions.Requirement

/-- What is wrong with the first of the four requirements that whole rows may not meet. -/
def rowsStop? (q : Request) (l : Layout) (size : Nat) : Option Stop :=
  [fieldsBehind, endsCounted, layoutFits, startWithin].findSome? (stop? (q.cutting l size) l size)

/-- The check of a table finds nothing else wrong with whole rows. -/
theorem check_tableOptions (hpos : 0 < q.rowLength l) (hlt : q.rowLength l < countLimit)
    (hsize : size < countLimit) :
    (q.cutting l size).check l size =
      match q.rowsStop? l size with
      | some stop => .error stop
      | none => .ok (q.rowLength l, q.rowLength l) := by
  have hcounted : distanceCounted.stop? (q.cutting l size) l size = none :=
    (stop?_eq_none_iff hsize).2 hlt
  have hadvance : rowsAdvance.stop? (q.cutting l size) l size = none :=
    (stop?_eq_none_iff hsize).2 hpos
  have hwithin : rowsWithin.stop? (q.cutting l size) l size = none :=
    (stop?_eq_none_iff hsize).2 wholeRows_mul_le
  have hid : idFound.stop? (q.cutting l size) l size = none := rfl
  have hfirst : TableOptions.requirements.findSome? (stop? (q.cutting l size) l size)
      = q.rowsStop? l size := by
    simp only [TableOptions.requirements, rowsStop?, List.findSome?_cons, List.findSome?_nil,
      hcounted, hadvance, hwithin, hid]
  rw [← hfirst]
  exact TableOptions.check_eq

theorem fieldsBehind_stop? (h : ∀ f ∈ l.fields, q.layoutOffset ≤ f.offset) :
    fieldsBehind.stop? (q.cutting l size) l size = none := by
  have hnone : (l.fields.find? fun f => f.offset < q.layoutOffset) = none :=
    List.find?_eq_none.2 fun f hf => by simpa using h f hf
  exact congrArg (Option.map _) hnone

/-- A field before the first byte of a row is looked for first. -/
theorem rowsStop?_of_before {f : Field}
    (h : (l.fields.find? fun f => f.offset < q.layoutOffset) = some f) :
    q.rowsStop? l size
      = some (.fault (.invalid (.beforeLayout f.name f.offset q.layoutOffset))) := by
  have hfound : fieldsBehind.stop? (q.cutting l size) l size
      = some (.fault (.invalid (.beforeLayout f.name f.offset q.layoutOffset))) :=
    congrArg (Option.map _) h
  rw [rowsStop?, List.findSome?_cons, hfound]

/-- Then the addresses behind the fields are looked for. -/
theorem rowsStop?_of_uncounted (h : ∀ f ∈ l.fields, q.layoutOffset ≤ f.offset)
    (hends : ¬ ∀ f ∈ l.fields, f.behind < countLimit) :
    q.rowsStop? l size = some .overflow := by
  have hfound : endsCounted.stop? (q.cutting l size) l size = some .overflow := if_neg hends
  rw [rowsStop?, List.findSome?_cons, fieldsBehind_stop? h, List.findSome?_cons, hfound]

/-- With fields that end at counts, the layout is compared with the row, and last the first row is
looked for. -/
theorem rowsStop?_of_counted (h : ∀ f ∈ l.fields, q.layoutOffset ≤ f.offset)
    (hends : ∀ f ∈ l.fields, f.behind < countLimit) (size : Nat) :
    q.rowsStop? l size =
      if q.rowLength l < l.extent q.layoutOffset then
        some (.fault (.tooLarge (.row (l.extent q.layoutOffset) (q.rowLength l))))
      else if size < q.dbOffset then some (.fault (.bufferTooSmall q.dbOffset 0 size))
      else none := by
  have hcounted : endsCounted.stop? (q.cutting l size) l size = none := if_pos hends
  have hlayout : layoutFits.stop? (q.cutting l size) l size
      = if q.rowLength l < l.extent q.layoutOffset then
          some (.fault (.tooLarge (.row (l.extent q.layoutOffset) (q.rowLength l))))
        else none := rfl
  have hstart : startWithin.stop? (q.cutting l size) l size
      = if size < q.dbOffset then some (.fault (.bufferTooSmall q.dbOffset 0 size))
        else none := rfl
  simp only [rowsStop?, List.findSome?_cons, List.findSome?_nil, fieldsBehind_stop? h, hcounted,
    hlayout, hstart]
  by_cases hlonger : q.rowLength l < l.extent q.layoutOffset
  · simp only [if_pos hlonger]
  · by_cases hbefore : size < q.dbOffset
    · simp only [if_neg hlonger, if_pos hbefore]
    · simp only [if_neg hlonger, if_neg hbefore]

end Request

/-! ## What is printed -/

variable {q : Request} {l : Layout} {data : Bytes}

/-- Nothing is printed for rows whose length cannot be told. -/
theorem rowsText_of_unknown (h : ¬ q.LengthKnown l) : rowsText q l data = none := by
  rw [rowsText, Request.rowLength?_eq_none h]
  rfl

/-- Rows whose length is known are those of a table, if they have a byte. -/
theorem rowsText_of_known (h : q.LengthKnown l) :
    rowsText q l data =
      if q.rowLength l = 0 then some (.error .emptyRows)
      else
        match (Table.ofBytes l data (q.cutting l data.length)).value with
        | .ok t => some (.ok (String.join (t.rows.mapIdx (rowText q.raw))))
        | .error (.fault fault) => some (.error (.table fault))
        | .error .overflow => none := by
  rw [rowsText, Request.rowLength?_eq_some h]
  rfl

/-- Rows that do not pass the check are refused with what is found wrong, or the program stops. -/
theorem rowsText_of_stop (h : q.LengthKnown l) (hpos : 0 < q.rowLength l)
    (hlt : q.rowLength l < countLimit) (hsize : data.length < countLimit) {stop : Stop}
    (hstop : q.rowsStop? l data.length = some stop) :
    rowsText q l data =
      match stop with
      | .fault fault => some (.error (.table fault))
      | .overflow => none := by
  have hcheck := Request.check_tableOptions hpos hlt hsize
  rw [hstop, ← Table.value_ofBytes, Outcome.map_eq_error_iff] at hcheck
  rw [rowsText_of_known h, if_neg hpos.ne', hcheck]
  cases stop <;> rfl

/-- What the command prints for a row that is cut out of the block is what is to be printed. -/
theorem rowText_cutRow (hpos : 0 < q.rowLength l) {i : Nat}
    (hi : i < q.wholeRows l data.length) :
    rowText q.raw i ((q.cutting l data.length).cutRow l data i) = q.shownRow l data i := by
  have hne : q.rowBytes l data i ≠ [] := by
    rw [← List.length_pos_iff, Request.length_rowBytes hpos hi]
    exact hpos
  have hdump : rawText (q.rowBytes l data i) = String.join
      ((textLines (Dump.text (q.rowBytes l data i))).map fun line => "  " ++ line ++ "\n") := by
    rw [rawText, Dump.textLines_text hne]
  have hrow : (q.cutting l data.length).cutRow l data i
      = ⟨l, q.layoutOffset, ⟨.dataBlock, 0, q.rowStart l i⟩, q.rowBytes l data i⟩ := rfl
  rw [hrow, rowText, Request.shownRow, hdump]

/-- Rows that pass the check are printed one after the other. -/
theorem rowsText_of_no_stop (h : q.LengthKnown l) (hpos : 0 < q.rowLength l)
    (hlt : q.rowLength l < countLimit) (hsize : data.length < countLimit)
    (hstop : q.rowsStop? l data.length = none) :
    rowsText q l data = some (.ok
      (String.join ((List.range (q.wholeRows l data.length)).map (q.shownRow l data)))) := by
  have hcheck := Request.check_tableOptions hpos hlt hsize
  rw [hstop, ← Table.value_ofBytes, Outcome.map_eq_ok_iff] at hcheck
  obtain ⟨t, ht, -⟩ := hcheck
  obtain ⟨rfl, hoptions, rfl, -⟩ := Table.ofBytes_eq_ok ht
  have hrows := t.hasGeometry.rows
  rw [hoptions] at hrows
  have hprinted : t.rows.mapIdx (rowText q.raw)
      = (List.range (q.wholeRows t.layout t.bytes.length)).map (q.shownRow t.layout t.bytes) := by
    apply List.ext_getElem?
    intro i
    rw [hrows, List.getElem?_mapIdx, List.getElem?_map, List.getElem?_map]
    by_cases hi : i < q.wholeRows t.layout t.bytes.length
    · rw [Request.rowCount_cutting, List.getElem?_range hi, Option.map_some, Option.map_some,
        Option.map_some, rowText_cutRow hpos hi]
    · have hlength : (List.range (q.wholeRows t.layout t.bytes.length)).length ≤ i := by
        rw [List.length_range]
        exact Nat.not_lt.1 hi
      rw [Request.rowCount_cutting, List.getElem?_eq_none hlength, Option.map_none,
        Option.map_none, Option.map_none]
  simp only [rowsText_of_known h, if_neg hpos.ne', ht, hprinted]

/-- A fault of a table is told by its message, and the command ends with code one. -/
theorem failed_table (printed : String) (fault : Fault) :
    Outcome.failed printed (.table fault) = ⟨1, printed, "Error: " ++ fault.message ++ "\n"⟩ := by
  have hreport : (Failure.table fault).report = "Error: " ++ fault.message ++ "\n" := by
    show "Error: " ++ fault.message ++ "" ++ "\n" = _
    rw [String.append_empty]
  rw [Outcome.failed, hreport]
  rfl

/-- How the command ends when it was given a block of bytes for a layout: stopped or with a
fault, in this order, after nothing but the listing of the layout, or with all whole rows
printed behind it. -/
structure ShowsWholeRows (q : Request) (l : Layout) (data : Bytes) (ending : Ending) : Prop where
  lengthUnknown : ¬ q.LengthKnown l → ending = .stopped (l.listing ++ "\n")
  emptyRows : q.LengthKnown l → q.rowLength l = 0 →
    ending = .exited
      ⟨1, l.listing ++ "\n", "Error: row size is zero; pass ROW_SIZE explicitly\n"⟩
  fieldBefore : q.LengthKnown l → 0 < q.rowLength l →
    ∀ f, (l.fields.find? fun f => f.offset < q.layoutOffset) = some f →
    ending = .exited ⟨1, l.listing ++ "\n",
      "Error: " ++ (Fault.invalid (.beforeLayout f.name f.offset q.layoutOffset)).message ++ "\n"⟩
  uncounted : q.LengthKnown l → 0 < q.rowLength l → (∀ f ∈ l.fields, q.layoutOffset ≤ f.offset) →
    (¬ ∀ f ∈ l.fields, f.behind < countLimit) → ending = .stopped (l.listing ++ "\n")
  layoutLonger : 0 < q.rowLength l → (∀ f ∈ l.fields, q.layoutOffset ≤ f.offset) →
    (∀ f ∈ l.fields, f.behind < countLimit) → q.rowLength l < l.extent q.layoutOffset →
    ending = .exited ⟨1, l.listing ++ "\n", "Error: "
      ++ (Fault.tooLarge (.row (l.extent q.layoutOffset) (q.rowLength l))).message ++ "\n"⟩
  startBehind : 0 < q.rowLength l → (∀ f ∈ l.fields, q.layoutOffset ≤ f.offset) →
    (∀ f ∈ l.fields, f.behind < countLimit) → l.extent q.layoutOffset ≤ q.rowLength l →
    data.length < q.dbOffset →
    ending = .exited ⟨1, l.listing ++ "\n",
      "Error: " ++ (Fault.bufferTooSmall q.dbOffset 0 data.length).message ++ "\n"⟩
  rows : 0 < q.rowLength l → (∀ f ∈ l.fields, q.layoutOffset ≤ f.offset) →
    (∀ f ∈ l.fields, f.behind < countLimit) → l.extent q.layoutOffset ≤ q.rowLength l →
    q.dbOffset ≤ data.length →
    ending = .exited ⟨0, l.listing ++ "\n" ++ String.join
      ((List.range ((data.length - q.dbOffset) / q.rowLength l)).map (q.shownRow l data)), ""⟩
  /-- A row that is printed has all its bytes. -/
  length_rowBytes : 0 < q.rowLength l → ∀ i < (data.length - q.dbOffset) / q.rowLength l,
    (q.rowBytes l data i).length = q.rowLength l
  /-- Behind the last row, fewer bytes are left than a row has. -/
  left_lt : 0 < q.rowLength l →
    data.length - q.rowStart l ((data.length - q.dbOffset) / q.rowLength l) < q.rowLength l

/-- A run that finds its files comes to what is printed for the rows. -/
theorem run_eq {files : String → Except String Bytes} {args : List String} {source path : String}
    (hargs : Request.ofArgs args = .ok q)
    (hlayout : files q.layoutPath = .ok (fileBytes source))
    (hparse : (Layout.parse source).value = .ok l) (hpath : q.dataPath = some path)
    (hdata : files path = .ok data) :
    (run (m := Id) files args).run =
      match rowsText q l data with
      | some (.error f) => .exited (.failed (l.listing ++ "\n") f)
      | some (.ok rows) => .exited ⟨0, l.listing ++ "\n" ++ rows, ""⟩
      | none => .stopped (l.listing ++ "\n") := by
  have hread : layoutOf (files q.layoutPath) = .ok l := by
    rw [hlayout, layoutOf_fileBytes, hparse]
  simp only [run, hargs, hpath, bind, hread, hdata]
  rcases rowsText q l data with _ | _ | _ <;> rfl

/-- A length of rows that stands behind the paths is a count. -/
theorem rowSize_lt_of_positionals {layoutOffset dbOffset : Nat} {raw : Bool} {ws : List String}
    (h : Request.ofPositionals layoutOffset dbOffset raw ws = .ok q) :
    ∀ n ∈ q.rowSize, n < countLimit := by
  match ws, h with
  | [_], h =>
      cases h
      nofun
  | [_, _], h =>
      cases h
      nofun
  | [_, _, text], h =>
      rcases Outcome.map_eq_ok_iff.1 h with ⟨n, hn, rfl⟩
      intro m hm
      cases hm
      exact Decimal.readCount_lt (Outcome.mapError_eq_ok_iff.1 hn)
  | [], h => cases h
  | _ :: _ :: _ :: _ :: _, h => cases h

/-- A length of rows that is given is a count. -/
theorem rowSize_lt {args : List String} (h : Request.ofArgs args = .ok q) :
    ∀ n ∈ q.rowSize, n < countLimit := by
  rcases Outcome.bind_eq_ok_iff.1 h with ⟨⟨layoutOffset, rest⟩, _, h⟩
  rcases Outcome.bind_eq_ok_iff.1 h with ⟨⟨dbOffset, rest'⟩, _, h⟩
  exact rowSize_lt_of_positionals h

/-- Whatever the arguments, the layout and the block are: if both files are found, the command shows
every whole row of the block, or tells the first reason why it cannot, or stops at a field behind
which there is no address.  The block has fewer than `countLimit` bytes, as all that can be held in
memory. -/
theorem run_shows_whole_rows {files : String → Except String Bytes} {args : List String}
    {source path : String} (hargs : Request.ofArgs args = .ok q)
    (hlayout : files q.layoutPath = .ok (fileBytes source))
    (hparse : (Layout.parse source).value = .ok l) (hpath : q.dataPath = some path)
    (hdata : files path = .ok data) (hsize : data.length < countLimit) :
    ShowsWholeRows q l data (run (m := Id) files args).run := by
  have hlt : q.LengthKnown l → q.rowLength l < countLimit :=
    Request.rowLength_lt (rowSize_lt hargs)
  rw [run_eq hargs hlayout hparse hpath hdata]
  exact {
    lengthUnknown := fun h => by rw [rowsText_of_unknown h]
    emptyRows := fun h hzero => by
      rw [rowsText_of_known h, if_pos hzero]
      rfl
    fieldBefore := fun h hpos f hf => by
      rw [rowsText_of_stop h hpos (hlt h) hsize (Request.rowsStop?_of_before hf)]
      exact congrArg Ending.exited (failed_table _ _)
    uncounted := fun h hpos hbehind hends => by
      rw [rowsText_of_stop h hpos (hlt h) hsize (Request.rowsStop?_of_uncounted hbehind hends)]
    layoutLonger := fun hpos hbehind hends hlonger => by
      have hstop := Request.rowsStop?_of_counted hbehind hends data.length
      rw [if_pos hlonger] at hstop
      rw [rowsText_of_stop (fun _ => hends) hpos (hlt fun _ => hends) hsize hstop]
      exact congrArg Ending.exited (failed_table _ _)
    startBehind := fun hpos hbehind hends hfits hstart => by
      have hstop := Request.rowsStop?_of_counted hbehind hends data.length
      rw [if_neg (Nat.not_lt.2 hfits), if_pos hstart] at hstop
      rw [rowsText_of_stop (fun _ => hends) hpos (hlt fun _ => hends) hsize hstop]
      exact congrArg Ending.exited (failed_table _ _)
    rows := fun hpos hbehind hends hfits hstart => by
      have hstop := Request.rowsStop?_of_counted hbehind hends data.length
      rw [if_neg (Nat.not_lt.2 hfits), if_neg (Nat.not_lt.2 hstart)] at hstop
      rw [rowsText_of_no_stop (fun _ => hends) hpos (hlt fun _ => hends) hsize hstop]
      rfl
    length_rowBytes := fun hpos i hi => Request.length_rowBytes hpos hi
    left_lt := fun hpos => Request.left_lt hpos }

/-- Two fields behind four bytes that are not in the rows. -/
def switchLayout : Layout :=
  ⟨[⟨"id", 4, none, .integer .byte⟩, ⟨"on", 5, some 3, .bool⟩], by decide⟩

/-- The rows are dumped that begin at the third byte of a file. -/
def switchRequest : Request :=
  ⟨"layout.txt", some "block.bin", none, 4, 2, true⟩

/-- A file with the layout, and seven bytes in all others. -/
def switchFiles (path : String) : Except String Bytes :=
  if path = "layout.txt" then .ok (fileBytes "4 id BYTE\n5.3 on BOOL\n")
  else .ok [9, 9, 65, 8, 66, 0, 67]

/-- Behind two bytes there are two rows of two bytes.  The last byte is left out. -/
theorem run_shows_whole_rows_of_switches :
    Request.ofArgs ["layout.txt", "--db-offset", "2", "block.bin", "--layout-offset", "4", "--raw"]
      = .ok switchRequest
    ∧ switchFiles "layout.txt" = .ok (fileBytes "4 id BYTE\n5.3 on BOOL\n")
    ∧ (Layout.parse "4 id BYTE\n5.3 on BOOL\n").value = .ok switchLayout
    ∧ switchFiles "block.bin" = .ok [9, 9, 65, 8, 66, 0, 67]
    ∧ (run (m := Id) switchFiles
        ["layout.txt", "--db-offset", "2", "block.bin", "--layout-offset", "4", "--raw"]).run
      = .exited ⟨0, "4       id  BYTE\n5.3     on  BOOL\n"
        ++ "\nrow 0 @ 2\n  0\n  65,8,\n  A , ,\n"
        ++ "  4       id  BYTE = 65\n  5.3     on  BOOL = true\n"
        ++ "\nrow 1 @ 4\n  0\n  66,0,\n  B , ,\n"
        ++ "  4       id  BYTE = 66\n  5.3     on  BOOL = false\n",
        ""⟩ := by
  have hargs : Request.ofArgs
      ["layout.txt", "--db-offset", "2", "block.bin", "--layout-offset", "4", "--raw"]
      = .ok switchRequest := by
    decide +kernel
  have hparse : (Layout.parse "4 id BYTE\n5.3 on BOOL\n").value = .ok switchLayout := by
    decide +kernel
  have hlayout : switchFiles "layout.txt" = .ok (fileBytes "4 id BYTE\n5.3 on BOOL\n") := rfl
  have hdata : switchFiles "block.bin" = .ok [9, 9, 65, 8, 66, 0, 67] := rfl
  have hshows := run_shows_whole_rows hargs hlayout hparse rfl hdata (by decide)
  refine ⟨hargs, hlayout, hparse, hdata, ?_⟩
  rw [hshows.rows (by decide) (by decide) (by decide) (by decide) (by decide)]
  decide +kernel

/-- A file with a byte at the last address that is a count, and one byte in all others. -/
def lastFiles (path : String) : Except String Bytes :=
  if path = "layout.txt" then .ok (fileBytes "18446744073709551615 x BYTE\n") else .ok [0]

/-- The layout is longer than its rows by far, which is not told of: the command stops, since there
is no address behind the field.  So it does if the length of the rows is not given. -/
theorem run_stops_at_end :
    (Layout.parse "18446744073709551615 x BYTE\n").value = .ok Table.lastLayout
    ∧ 1 < Table.lastLayout.extent 0
    ∧ (run (m := Id) lastFiles ["layout.txt", "block.bin", "1"]).run
      = .stopped "18446744073709551615x  BYTE\n"
    ∧ (run (m := Id) lastFiles ["layout.txt", "block.bin"]).run
      = .stopped "18446744073709551615x  BYTE\n" := by
  decide +kernel

end Command
end DataBlock
