import DataBlock.Dump
import DataBlock.Layout.Parse
import DataBlock.Table

/-!
# The command line

A command that prints a layout and, if it is given the bytes of a data block, all
whole rows of it.  The command is a function of its arguments and of the files it
reads; it tells what it prints and with which code it ends.

Main results:

- `Command.takeNumber_append`: arguments in front of a flag stay where they are.
- `Command.takeNumber_cons_self`: a flag in front is taken out with its number.
-/

namespace DataBlock
namespace Command

/-! ## Failures -/

/-- Why the command fails. -/
inductive Failure where
  /-- The arguments are not of any known form. -/
  | usage
  | needsValue (flag : String)
  | notANumber (what text : String) (cause : Decimal.CountFault)
  | layout (path : String) (fault : Fault)
  | data (path text : String)
  | emptyRows
  | table (fault : Fault)
  deriving DecidableEq

/-- What the command accepts. -/
def usageText : String :=
  "Usage: layout_dump [--layout-offset N] [--db-offset N] [--raw] "
    ++ "<LAYOUT> [<DATA> [ROW_SIZE]]"

namespace Failure

/-- What went wrong, as seen from outside. -/
def summary : Failure → String
  | usage => usageText
  | needsValue flag => flag ++ " needs a value"
  | notANumber what text _ => s!"{what}: '{text}' is not a number"
  | layout path _ => "parsing " ++ path
  | data path _ => "reading " ++ path
  | emptyRows => "row size is zero; pass ROW_SIZE explicitly"
  | table fault => fault.message

/-- What lies behind it, each cause after the one that it brought about. -/
def causes : Failure → List String
  | notANumber _ _ cause => [cause.message]
  | layout _ (.unreadable text) => [(Fault.unreadable text).message, text]
  | layout _ fault => [fault.message]
  | data _ text => [text]
  | usage | needsValue _ | emptyRows | table _ => []

/-- The lines of the causes; two or more are numbered. -/
def causeLines (cs : List String) : List String :=
  match cs with
  | [c] => ["    " ++ c]
  | cs => cs.mapIdx fun i c => "    " ++ toString i ++ ": " ++ c

/-- What is printed about a failure. -/
def report (f : Failure) : String :=
  match f with
  | usage => usageText ++ "\n"
  | f =>
      let behind :=
        if f.causes.isEmpty then ""
        else "\n\nCaused by:\n" ++ "\n".intercalate (causeLines f.causes)
      "Error: " ++ f.summary ++ behind ++ "\n"

/-- The code with which the command ends. -/
def exit : Failure → Nat
  | usage => 2
  | _ => 1

end Failure

/-! ## Arguments -/

/-- What the arguments ask for. -/
structure Request where
  layoutPath : String
  dataPath : Option String
  rowSize : Option Nat
  layoutOffset : Nat
  dbOffset : Nat
  /-- Whether the bytes of each row are printed too. -/
  raw : Bool
  deriving DecidableEq

/-- The number that a text is, or the failure with what it was meant to be. -/
def numberOf (what text : String) : Except Failure Nat :=
  (Decimal.readCount text.toList).mapError fun cause => .notANumber what text cause

/-- Takes the first occurrence of a flag and the number behind it out of the
arguments.  Without the flag the number is zero. -/
def takeNumber (flag : String) (args : List String) : Except Failure (Nat × List String) :=
  let before := args.takeWhile (· != flag)
  match args.dropWhile (· != flag) with
  | [] => .ok (0, args)
  | [_] => .error (.needsValue flag)
  | _ :: text :: after => (numberOf flag text).map fun n => (n, before ++ after)

/-- What is asked for by the arguments that are left when all flags are taken out. -/
def Request.ofPositionals (layoutOffset dbOffset : Nat) (raw : Bool) :
    List String → Except Failure Request
  | [layoutPath] => .ok ⟨layoutPath, none, none, layoutOffset, dbOffset, raw⟩
  | [layoutPath, dataPath] => .ok ⟨layoutPath, some dataPath, none, layoutOffset, dbOffset, raw⟩
  | [layoutPath, dataPath, text] =>
      (numberOf "ROW_SIZE" text).map fun rowSize =>
        ⟨layoutPath, some dataPath, some rowSize, layoutOffset, dbOffset, raw⟩
  | _ => .error .usage

/-- What the arguments ask for.  Flags may stand anywhere. -/
def Request.ofArgs (args : List String) : Except Failure Request := do
  let (layoutOffset, args) ← takeNumber "--layout-offset" args
  let (dbOffset, args) ← takeNumber "--db-offset" args
  Request.ofPositionals layoutOffset dbOffset (args.contains "--raw") (args.erase "--raw")

/-- Arguments in front of the flag stay in front of what is left. -/
theorem takeNumber_append {flag : String} {ws : List String} (h : flag ∉ ws)
    (args : List String) :
    takeNumber flag (ws ++ args) =
      (takeNumber flag args).map fun (n, rest) => (n, ws ++ rest) := by
  have hne : ∀ w ∈ ws, (w != flag) = true := fun w hw => bne_iff_ne.2 fun heq => h (heq ▸ hw)
  simp only [takeNumber, List.takeWhile_append_of_pos hne, List.dropWhile_append_of_pos hne]
  match args.dropWhile (· != flag) with
  | [] => rfl
  | [_] => rfl
  | _ :: text :: after =>
      dsimp only
      cases numberOf flag text with
      | error fault => rfl
      | ok n => simp only [Except.map, List.append_assoc]

/-- A flag in front is taken out with the text behind it. -/
theorem takeNumber_cons_self (flag text : String) (args : List String) :
    takeNumber flag (flag :: text :: args) = (numberOf flag text).map fun n => (n, args) := by
  simp [takeNumber]

/-! ## Output -/

/-- What the command prints, and the code with which it ends. -/
structure Outcome where
  exit : Nat
  stdout : String
  stderr : String
  deriving DecidableEq

/-- The outcome of a failure after something was printed. -/
def Outcome.failed (printed : String) (f : Failure) : Outcome :=
  ⟨f.exit, printed, f.report⟩

/-- How the command ends: with an outcome, or stopped at a sum that is no count, after something was
printed. -/
inductive Ending where
  | exited (outcome : Outcome)
  | stopped (printed : String)
  deriving DecidableEq

/-- The bytes of a row in three lines that are indented by two spaces. -/
def rawText (bs : Bytes) : String :=
  String.join ((Dump.lines bs).map fun line => "  " ++ line ++ "\n")

/-- What is printed for a row. -/
def rowText (raw : Bool) (i : Nat) (row : Row) : String :=
  "\nrow " ++ toString i ++ " @ " ++ toString row.address.start ++ "\n"
    ++ (if raw then rawText row.bytes else "") ++ row.listing 1 ++ "\n"

/-- The bytes of a row: as many as the layout spans if nothing is said. -/
def Request.rowLength? (r : Request) (l : Layout) : Option Nat :=
  match r.rowSize with
  | some length => some length
  | none => l.span r.layoutOffset

/-- As many whole rows of a length as there are in a block of `size` bytes. -/
def Request.tableOptions (r : Request) (length size : Nat) : TableOptions :=
  { TableOptions.usual with
    rowSize? := some length
    rowCount := (size - r.dbOffset) / length
    layoutOffset := r.layoutOffset
    dbOffset := r.dbOffset }

/-- The whole rows of a data block, printed, unless the program stops at a sum that is no count. -/
def rowsText (r : Request) (l : Layout) (data : Bytes) : Option (Except Failure String) := do
  let length ← r.rowLength? l
  if length = 0 then return .error .emptyRows
  else
    match (Table.ofBytes l data (r.tableOptions length data.length)).value with
    | .ok t => return .ok (String.join (t.rows.mapIdx (rowText r.raw)))
    | .error (.fault fault) => return .error (.table fault)
    | .error .overflow => none

/-! ## The run -/

/-- The layout in the bytes of a file. -/
def layoutOf (content : Except String Bytes) : Except Fault Layout := do
  let bytes ← content.mapError .unreadable
  match String.fromUTF8? ⟨bytes.toArray⟩ with
  | some text => (Layout.parse text).value
  | none => throw (.unreadable "stream did not contain valid UTF-8")

/-- Runs the command.  Files are read with `readFile`, which answers with the text
of the system where a file cannot be read. -/
def run {m : Type → Type} [Monad m] (readFile : String → m (Except String Bytes))
    (args : List String) : m Ending :=
  match Request.ofArgs args with
  | .error f => return .exited (.failed "" f)
  | .ok r => do
      match layoutOf (← readFile r.layoutPath) with
      | .error fault => return .exited (.failed "" (.layout r.layoutPath fault))
      | .ok l =>
          let listing := l.listing ++ "\n"
          match r.dataPath with
          | none => return .exited ⟨0, listing, ""⟩
          | some path =>
              match (← readFile path) with
              | .error text => return .exited (.failed listing (.data path text))
              | .ok data =>
                  match rowsText r l data with
                  | some (.error f) => return .exited (.failed listing f)
                  | some (.ok rows) => return .exited ⟨0, listing ++ rows, ""⟩
                  | none => return .stopped listing

end Command
end DataBlock
