import TestScript.Step.Basic
import TestScript.Text

namespace TestScript

/-- One row for each step, its texts in order. -/
structure Table where
  rows : List (List String)
  deriving DecidableEq, Repr

namespace Table

/-- The head of each column. -/
def heads : List String :=
  ["Test ID", "Description", "Action", "Locator Type", "Locator", "Test Data", "Expected Result"]

def ofSteps (steps : List Step) : Table := ⟨steps.map Step.texts⟩

@[simp] theorem rows_ofSteps (steps : List Step) : (ofSteps steps).rows = steps.map Step.texts :=
  rfl

/-- The widths of the columns: each is as wide as its widest cell, the head included. -/
def widths (t : Table) : List Nat :=
  t.rows.foldl (List.zipWith fun width cell => max width cell.length) (heads.map String.length)

/-- One line of text: the cells in their columns, nothing after the last that shows. There is none
if a column is too wide. -/
def line? (widths : List Nat) (cells : List String) : Option String := do
  let filled ← (widths.zip cells).mapM fun (width, cell) => Text.padEnd? width cell
  return Text.trimEnd ("  ".intercalate filled)

/-- The line of dashes under the heads, as wide as the table. -/
def rule (widths : List Nat) : String :=
  "  ".intercalate (widths.map fun width => String.ofList (List.replicate width '-'))

/-- The heads, a line of dashes, and a line for each row. -/
def text? (t : Table) : Option String := do
  let head ← line? t.widths heads
  let rows ← t.rows.mapM (line? t.widths)
  return "\n".intercalate (head :: rule t.widths :: rows)

/-- The lengths of the runs of dashes. -/
def ruleWidths (rule : String) : List Nat :=
  ((rule.toList.splitOn ' ').filter (· ≠ [])).map List.length

/-- The columns of a line, which is taken to be filled up with spaces. -/
def cut : List Nat → List Char → List (List Char)
  | [], _ => []
  | width :: widths, cs => (cs.rightpad width ' ').take width :: cut widths (cs.drop (width + 2))

/-- The cells of a line. White space at their ends cannot be told from what fills the column. -/
def cells (rule line : String) : List String :=
  (cut (ruleWidths rule) line.toList).map fun cell => String.ofList (Text.withoutBlankEnd cell)

/-- The heads and the rows that a text shows, if it has a line of dashes. -/
def read? (text : String) : Option (List (List String)) :=
  match (text.toList.splitOn '\n').map String.ofList with
  | heads :: rule :: rows => some ((heads :: rows).map (cells rule))
  | _ => none

end Table

end TestScript
