import DataBlock.Event
import DataBlock.Layout
import DataBlock.Layout.Entry
import DataBlock.Layout.Grammar
import DataBlock.Layout.Report

/-!
# From text to layout

A text is read in two rounds.  First the grammar has to match all of it; then its entries
are declared one after the other.  So a malformed line wins over anything that is wrong
with the meaning of an entry.
-/

namespace DataBlock
namespace Layout

/-- Declares the entries of a text in order, up to the first that is refused.  The names
declared before are given with their line numbers. -/
def declare (text : List Char) (seen : List (String × Nat)) :
    List Node → Traced (Except Fault (List Field))
  | [] => ⟨.ok [], []⟩
  | node :: rest =>
      let number := lineNumber text node.start
      match node.field with
      | .error cause =>
          let shown := String.ofList (Blank.trimEnd (lineAround text node.start))
          ⟨.error (.layoutText number (.entry cause shown)), []⟩
      | .ok field =>
          match seen.lookup field.name with
          | some first =>
              ⟨.error (.layoutText number (.duplicateName field.name first)), []⟩
          | none =>
              let later := declare text ((field.name, number) :: seen) rest
              ⟨later.value.map (field :: ·), .layoutEntry number field :: later.events⟩

/-- The layout that the nodes of a text describe, and the entries that were accepted on
the way.  All entries stand in the first node. -/
def ofNodes (text : List Char) : List Node → Traced (Except Fault Layout)
  | [] => ⟨.error (.layoutText 0 .noLayout), []⟩
  | root :: _ =>
      (declare text [] (root.inner.filter (·.rule = .entry))).map fun fields =>
        fields.bind ofFields

/-- The layout that a text describes, where a malformed text is told of by a reporter. -/
def parseWith (report : Reporter) (text : String) : Traced (Except Fault Layout) :=
  let chars := text.toList
  let found := Grammar.layout.run ⟨0, chars⟩
  match found.found with
  | none => ⟨.error (report chars found.trials).fault, []⟩
  | some (_, nodes) => ofNodes chars nodes

/-- The layout that a text describes. -/
def parse : String → Traced (Except Fault Layout) :=
  parseWith .standard

end Layout
end DataBlock
