/-! # Cells

A laid-out text is a sequence of glyphs. Tabs cut its lines into cells, and cells
that stand below each other in adjacent lines are made equally wide. Blanks at the
end of a line are left out.
-/

namespace StateTables.Format

inductive Glyph where
  /-- Text that stays as it is. -/
  | text (content : String)
  | blank
  /-- The end of a cell that takes room even if its column is empty. -/
  | tab
  /-- The end of a cell. -/
  | cell
  | newline
  /-- The end of a line whose cells have nothing to do with those below. -/
  | formfeed
deriving DecidableEq, Repr, Inhabited

namespace Glyph

def endsLine : Glyph → Bool
  | .newline => true
  | .formfeed => true
  | _ => false

end Glyph

namespace Cells

inductive Segment where
  | text (content : String)
  | space (content : String)
deriving DecidableEq, Repr

structure Cell where
  segments : Array Segment
  width : Nat
  /-- Does it take room even if its column is empty? -/
  isHard : Bool
deriving DecidableEq, Repr, Inhabited

def Cell.empty : Cell := ⟨#[], 0, false⟩

/-- The cells of a line. The last one is not part of a column. -/
abbrev Line := Array Cell

/-! ## Cutting -/

structure Cutting where
  cell : Cell
  line : Line
  /-- The lines of the section, last first. -/
  lines : List Line
  /-- The sections before, last first. -/
  sections : List (List Line)

namespace Cutting

def start : Cutting := ⟨.empty, #[], [], []⟩

def add (cutting : Cutting) (segment : Segment) (width : Nat) : Cutting :=
  { cutting with cell :=
    { cutting.cell with
      segments := cutting.cell.segments.push segment, width := cutting.cell.width + width } }

def endCell (cutting : Cutting) (isHard : Bool) : Cutting :=
  { cutting with
    line := cutting.line.push { cutting.cell with isHard := isHard }, cell := .empty }

def endLine (cutting : Cutting) : Cutting :=
  let cutting := cutting.endCell false
  { cutting with lines := cutting.line :: cutting.lines, line := #[] }

def endSection (cutting : Cutting) : Cutting :=
  { cutting with sections := cutting.lines.reverse :: cutting.sections, lines := [] }

def step (cutting : Cutting) : Glyph → Cutting
  | .text content => cutting.add (.text content) content.length
  | .blank => cutting.add (.space " ") 1
  | .tab => cutting.endCell true
  | .cell => cutting.endCell false
  | .newline => cutting.endLine
  | .formfeed => cutting.endLine.endSection

def sectionsOf (glyphs : Array Glyph) : List (List Line) :=
  (glyphs.foldl step start).endLine.endSection.sections.reverse

end Cutting

/-! ## Columns -/

/-- The width of a column in adjacent lines: one more than its widest cell, or none if
all cells are empty and soft. -/
def runWidth (run : List Cell) : Nat :=
  if run.all fun cell => cell.width = 0 && !cell.isHard then 0
  else (run.map Cell.width).foldl max 0 + 1

/-- The widths of a column line by line. A line without the column ends a run. -/
def columnWidths (run : List Cell) : List (Option Cell) → List (Option Nat)
  | [] => List.replicate run.length (some (runWidth run))
  | some cell :: rest => columnWidths (cell :: run) rest
  | none :: rest =>
    List.replicate run.length (some (runWidth run)) ++ none :: columnWidths [] rest

def widths (lines : List Line) : List (List Nat) :=
  let columns := (lines.map fun line => line.size - 1).foldl max 0
  let none : List (List Nat) := lines.map fun _ => []
  (List.range columns).reverse.foldl (fun widths column =>
    let cells := lines.map fun row =>
      if column + 1 < row.size then row[column]? else Option.none
    List.zipWith (fun width? widths => match width? with
      | some width => width :: widths
      | Option.none => widths) (columnWidths [] cells) widths) none

/-! ## Lines -/

def tabWidth : Nat := 8

def segments (leading : Bool) : List Cell → List Nat → List Segment
  | [], _ => []
  | cell :: rest, [] => cell.segments.toList ++ segments false rest []
  | cell :: rest, width :: widths =>
    if cell.segments.isEmpty then
      let room := if leading then "".pushn '\t' ((width + tabWidth - 1) / tabWidth)
        else "".pushn ' ' width
      .space room :: segments leading rest widths
    else
      cell.segments.toList ++ .space ("".pushn ' ' (width - cell.width)) ::
        segments false rest widths

def isSpace : Segment → Bool
  | .space _ => true
  | .text _ => false

def lineText (line : Line) (widths : List Nat) : String :=
  let kept := ((segments true line.toList widths).reverse.dropWhile isSpace).reverse
  String.join (kept.map fun
    | .text content => content
    | .space content => content)

def sectionLines (lines : List Line) : List String :=
  List.zipWith lineText lines (widths lines)

def render (glyphs : Array Glyph) : String :=
  "\n".intercalate ((Cutting.sectionsOf glyphs).flatMap sectionLines)

end Cells

/-- The number of bytes of glyphs on a single line. There is no answer for glyphs that
need several lines. -/
def lineSize? (glyphs : Array Glyph) : Option Nat :=
  let needsLines : Glyph → Bool
    | .text content => content.contains '\n' || content.contains '\x0c'
    | glyph => glyph.endsLine
  let isSpace : Glyph → Bool
    | .text _ => false
    | _ => true
  if glyphs.any needsLines then none
  else
    let kept := glyphs.toList.reverse.dropWhile isSpace
    some <| kept.foldl (fun size glyph => match glyph with
      | .text content => size + content.utf8ByteSize
      | _ => size + 1) 0

end StateTables.Format
