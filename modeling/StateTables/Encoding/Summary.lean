import StateTables.Encoding.Basic

/-! # Summaries of encodings

The columns of an encoding as rows of texts, and rows of texts as lines in which
cells stand below each other.
-/

namespace StateTables

namespace Encoding

def summaryRows (encoding : Encoding) : List (List String) :=
  ["Table", "Type", "Length", "Bytes"] :: encoding.columns.map fun column =>
    [column.name, column.type.name, toString column.values.size, toString column.storedBytes]

def summaryLine (encoding : Encoding) : String :=
  let size := encoding.size
  encoding.name ++ ": " ++ encoding.kind.name ++ " encoding, " ++ toString encoding.stateCount ++
    " states, " ++ toString size.columns ++ " tables, " ++ toString size.values ++ " values, " ++
    toString size.bytes ++ " bytes"

end Encoding

def headWidth (rows : List (List String)) : Nat :=
  (rows.filterMap fun row => row.head?.map String.length).foldl max 0

/-- Rows as lines: all cells but the last of a row are filled up with blanks to the
width of their column, and bars stand between them. All rows have as many cells
as there are columns. -/
def alignedLines : (columns : Nat) → (rows : List (List String)) → List String
  | 0, rows => rows.map fun _ => ""
  | 1, rows => rows.map fun row => row.head?.getD ""
  | columns + 2, rows =>
    let width := headWidth rows
    let tails := alignedLines (columns + 1) (rows.map (List.drop 1))
    (rows.zip tails).map fun (row, tail) =>
      let cell := row.head?.getD ""
      cell.pushn ' ' (width - cell.length) ++ " | " ++ tail

end StateTables
