import StateTables.Format.Printer
import StateTables.Format.Tree

/-! # Laying out trees: the frame

Terms and statements contain each other. What lays out one of them is given the
others as a `Layout`. A small tree may be laid out on a line of its own to find its
size, and the size decides how the text around it is laid out.
-/

namespace StateTables.Format

structure Layout where
  /-- Print a term among operators that bind as tight as the first number tells. The
  second number tells how deep the term is nested. -/
  term : Term → Nat → Nat → Printer Unit
  /-- Print a statement, which may stand right before a closing brace. -/
  statement : Statement → Bool → Printer Unit

namespace Layout

open Printer

/-! ## Tightness -/

def unaryTightness : Nat := 6

def highestTightness : Nat := 7

/-! ## Sizes -/

/-- The number of bytes that something takes on one line. There is no answer if it
takes several lines. -/
def sizeOf? (indentation : Nat) (print : Printer Unit) : Option Nat :=
  let whole : Printer Unit := do
    print
    modify fun state => { state with impliesEnd := false }
    let _ ← flush ⟨beyond, beyond, 0⟩ .finish
  let start := { State.start [] with indentation := indentation, isMeasured := true }
  lineSize? (whole.run start).2.output

def termSize (layout : Layout) (limit : Nat) (term : Term) : Nat :=
  match sizeOf? 0 (layout.term term 0 1) with
  | some size => min size (limit + 1)
  | none => limit + 1

def statementSize (layout : Layout) (limit : Nat) (statement : Statement) : Nat :=
  let indentation := if statement.labels > 0 then 1 else 0
  match sizeOf? indentation (layout.statement statement false) with
  | some size => min size (limit + 1)
  | none => limit + 1

/-- A size that no line has. -/
def sizeLimit : Nat := 1000000

/-! ## Lists -/

structure ListMode where
  /-- Does a comma follow the last item if the line ends there? -/
  endsWithComma : Bool
  /-- Are lines behind the first one indented? -/
  isIndented : Bool

def ListMode.plain : ListMode := ⟨false, true⟩

def line (term : Term) : Nat :=
  term.start.line

structure ListState where
  /-- The space to print with the next line end. -/
  margin : Space
  /-- The number of the item that the last line end stands before. -/
  broken : Option Nat
  /-- The size of the last item, or of its key, or zero. -/
  size : Nat
  /-- The sizes of the items that are aligned. -/
  sizes : List Nat
  line : Nat

/-- Is a size far from the geometric mean of others, by a factor of two and a half? -/
def isFarFrom (sizes : List Nat) (size : Nat) : Bool :=
  let count := sizes.length
  let product := sizes.foldl (· * ·) 1
  Nat.pow (5 * size) count ≤ Nat.pow 2 count * product ||
    Nat.pow 5 count * product ≤ Nat.pow (2 * size) count

def itemSize (layout : Layout) (item : Term) : Nat :=
  if layout.termSize sizeLimit item > sizeLimit then 0
  else match item.form with
    | .pair key _ _ => layout.termSize sizeLimit key
    | _ => layout.termSize sizeLimit item

def endsSection (state : ListState) (size : Nat) : Bool :=
  if state.size > 0 && size > 0 then
    if state.sizes.isEmpty || (state.size ≤ 40 && size ≤ 40) then false
    else isFarFrom state.sizes size
  else true

def separator (index line : Nat) (breaks endsSection : Bool) (state : ListState) :
    Printer ListState := do
  let count ← if breaks then
      let isFirst := match state.broken with
        | some broken => broken + 1 < index
        | none => 0 < index
      lineBreak line 0 state.margin (endsSection || isFirst)
    else pure 0
  if count = 0 then
    space .blank
    return state
  else
    return { state with
      margin := .ignored
      broken := some index
      sizes := if count > 1 then [] else state.sizes }

def listItem (layout : Layout) (depth : Nat) (isPlaced isOnly : Bool) (index : Nat)
    (item : Term) (state : ListState) : Printer ListState := do
  let line := line item
  let isMeasured := (← get).isMeasured
  let size := if isPlaced && !isMeasured then layout.itemSize item else 0
  let breaks := 0 < state.line && state.line < line
  let state ← if index > 0 then
      if !breaks then moveTo item.start
      symbol .comma
      separator index line breaks (endsSection state size) state
    else pure state
  match item.form with
  | .pair key colon value =>
    if !isOnly && size > 0 && breaks then
      layout.term key 0 1
      symbolAt colon .colon
      space .cell
      layout.term value 0 1
    else layout.term item 0 depth
  | _ => layout.term item 0 depth
  let sizes := if size > 0 then size :: state.sizes else state.sizes
  return { state with size := size, sizes := sizes, line := line }

def listItems (layout : Layout) (depth : Nat) (isPlaced isOnly : Bool) :
    Nat → List Term → ListState → Printer ListState
  | _, [], state => return state
  | index, item :: rest, state => do
    let state ← layout.listItem depth isPlaced isOnly index item state
    listItems layout depth isPlaced isOnly (index + 1) rest state

def singleLine (layout : Layout) (depth : Nat) : Bool → List Term → Printer Unit
  | _, [] => return
  | isFirst, item :: rest => do
    if !isFirst then
      symbolAt item.start .comma
      space .blank
    layout.term item 0 depth
    singleLine layout depth false rest

def severalLines (layout : Layout) (previous : Place) (items : List Term) (depth : Nat)
    (mode : ListMode) (next : Place) (first : Nat) : Printer Unit := do
  let margin := if mode.isIndented then Space.indent else .ignored
  let count ← if previous.isKnown && previous.line < first then lineBreak first 0 margin true
    else pure 0
  let start : ListState :=
    { margin := if count > 0 then .ignored else margin
      broken := if count > 0 then some 0 else none
      size := 0, sizes := [], line := previous.line }
  let isPlaced := previous.isKnown && next.isKnown
  let state ← layout.listItems depth isPlaced (items.length = 1) 0 items start
  let wasIndented := mode.isIndented && state.margin = .ignored
  let endsWithComma := mode.endsWithComma && next.isKnown && (← get).place.line < next.line
  if endsWithComma then symbol .comma
  if wasIndented then space .unindent
  if endsWithComma then space .formfeed

/-- Print items between commas. They stand between two places that need not be
known. -/
def list (layout : Layout) (previous : Place) (items : List Term) (depth : Nat)
    (mode : ListMode) (next : Place) : Printer Unit := do
  match items with
  | [] => return
  | item :: _ =>
    let first := line item
    let last := (items.getLast?.map Term.stopLine).getD 0
    if previous.isKnown && previous.line = first && first = last then
      layout.singleLine depth true items
    else layout.severalLines previous items depth mode next first

def names (layout : Layout) (names : List Term) (isIndented : Bool) : Printer Unit :=
  layout.list .unknown names 1 ⟨false, isIndented⟩ .unknown

end Layout

end StateTables.Format
