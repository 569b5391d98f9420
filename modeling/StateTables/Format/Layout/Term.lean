import StateTables.Format.Layout.Basic
import StateTables.Format.Exposed

/-! # Laying out terms -/

namespace StateTables.Format

namespace Layout

open Printer

/-! ## Operations -/

structure Mixture where
  /-- Is there an operator like plus? -/
  hasSums : Bool
  /-- Is there an operator like times? -/
  hasProducts : Bool
  /-- The tightness of the operators that would be misread without blanks. -/
  misread : Nat

namespace Mixture

def none : Mixture := ⟨false, false, 0⟩

def union (mixture other : Mixture) : Mixture :=
  ⟨mixture.hasSums || other.hasSums, mixture.hasProducts || other.hasProducts,
    max mixture.misread other.misread⟩

/-- The tightness of an operator that would be misread before the operator of its
right operand. -/
def misreadBefore (operator : Symbol) (right : Term) : Nat :=
  match right.form with
  | .star _ => if operator = .slash then 5 else 0
  | .unary inner _ =>
    if operator = .and && (inner = .and || inner = .xor) then 5
    else if operator = .plus && inner = .plus || operator = .minus && inner = .minus then 4
    else 0
  | _ => 0

/-- The mixture of an operation. Operations between parentheses do not count. -/
def ofTerm : Term → Mixture
  | .mk _ _ (.binary left operator _ right) =>
    let tightness := operator.precedence
    let own : Mixture := ⟨tightness = 4, tightness = 5, misreadBefore operator right⟩
    (own.union (ofTerm left)).union (ofTerm right)
  | _ => none

def blankLimit (mixture : Mixture) (depth : Nat) : Nat :=
  if mixture.misread > 0 then mixture.misread + 1
  else if mixture.hasSums && mixture.hasProducts then (if depth = 1 then 5 else 4)
  else if depth = 1 then 6 else 4

end Mixture

def isOperation (tightness : Nat) (term : Term) : Bool :=
  match term.form with
  | .binary _ operator _ _ => operator.precedence = tightness
  | _ => false

/-- The depth between parentheses. -/
def reduced (depth : Nat) : Nat :=
  max 1 (depth - 1)

def binary (layout : Layout) (whole left : Term) (operator : Symbol) (place : Place)
    (right : Term) (least depth : Nat) : Printer Unit := do
  let tightness := operator.precedence
  if tightness < least then
    symbol .openParen
    layout.term whole 0 (reduced depth)
    symbol .closeParen
  else
    let hasBlanks := tightness < (Mixture.ofTerm whole).blankLimit depth
    layout.term left tightness (if isOperation tightness left then depth else depth + 1)
    if hasBlanks then space .blank
    let above := (← get).place.line
    let below := line right
    symbolAt place operator
    let count ← if above != below && above > 0 && below > 0 then lineBreak below 1 .indent true
      else pure 0
    if hasBlanks && count = 0 then space .blank
    layout.term right (tightness + 1) (depth + 1)
    if count > 0 then space .unindent

/-! ## Fields -/

def combinesWithName : Term → Bool
  | .mk _ _ (.star operand) => !operand.isTypeElement
  | .mk _ _ (.binary left _ _ right) => combinesWithName left && !right.isTypeElement
  | .mk _ _ (.paren inner _) => !inner.isTypeElement
  | _ => false

inductive ParameterKind where
  | values
  /-- The type parameters of a function. -/
  | functionTypes
  /-- The type parameters of a type. -/
  | types
deriving DecidableEq, Repr

def parameter (layout : Layout) (isFirst : Bool) (margin : Space) (above : Nat)
    (field : Field) : Printer (Space × Nat) := do
  let first := field.start.line
  let breaks := 0 < above && above < first
  if !isFirst then
    if !breaks then moveTo field.start
    symbol .comma
  let count ← if breaks then lineBreak first 0 margin true else pure 0
  let margin := if count > 0 then .ignored else margin
  if count = 0 && !isFirst then space .blank
  if !field.names.isEmpty then
    layout.names field.names (margin = .indent)
    space .blank
  layout.term field.type.withoutParens 0 1
  return (margin, field.type.stopLine)

def parameterItems (layout : Layout) : Bool → Space → Nat → List Field →
    Printer (Space × Nat)
  | _, margin, above, [] => return (margin, above)
  | isFirst, margin, above, field :: rest => do
    let (margin, above) ← layout.parameter isFirst margin above field
    parameterItems layout false margin above rest

def parameters (layout : Layout) (kind : ParameterKind) (fields : Fields) : Printer Unit := do
  symbolAt fields.opening (if kind = .values then .openParen else .openBracket)
  if !fields.fields.isEmpty then
    let (margin, above) ←
      layout.parameterItems true .indent fields.opening.line fields.fields
    let closing := fields.closing.line
    let readsAsLength := match fields.fields with
      | [field] => fields.count = 1 && combinesWithName field.type.withoutParens
      | _ => false
    if 0 < above && above < closing then
      symbol .comma
      let _ ← lineBreak closing 0 .ignored true
    else if kind = .types && readsAsLength then symbol .comma
    if margin = .ignored then space .unindent
  symbolAt fields.closing (if kind = .values then .closeParen else .closeBracket)

def signature (layout : Layout) : Signature → Printer Unit
  | .mk typeParameters parameters results => do
    if let some fields := typeParameters then layout.parameters .functionTypes fields
    layout.parameters .values parameters
    match results with
    | none => return
    | some results =>
      match results.fields with
      | [] => return
      | [.mk [] type _ _] =>
        space .blank
        layout.term type.withoutParens 0 1
      | _ =>
        space .blank
        layout.parameters .values results

def method (layout : Layout) (field : Field) : Printer Unit := do
  match field.names, field.type.form with
  | name :: _, .functionType signature =>
    layout.term name 0 1
    layout.signature signature
  | _, _ => layout.term field.type 0 1

def smallField (layout : Layout) (isStruct : Bool) (field : Field) : Printer Unit := do
  if isStruct then
    for (name, index) in field.names.zipIdx do
      if index > 0 then
        symbol .comma
        space .blank
      layout.term name 0 1
    if !field.names.isEmpty then space .blank
    layout.term field.type 0 1
  else layout.method field

def isSmall (layout : Layout) (field : Field) : Bool :=
  let limit := 30
  field.tag.isNone && !field.hasComment &&
    (if field.names.isEmpty then 0 else 1) + layout.termSize limit field.type ≤ limit

def structField (layout : Layout) (gap : Space) (field : Field) : Printer Unit := do
  let isNamed := !field.names.isEmpty
  if isNamed then
    layout.names field.names false
    space gap
  layout.term field.type 0 1
  if let some tag := field.tag then
    if isNamed && gap = .cell then space gap
    space gap
    layout.term tag 0 1
  if field.hasComment && field.tag.isNone then
    space gap
    if !isNamed then space gap

def lines {α : Type} (start : α → Place) (print : α → Printer Unit) (slot : Nat) :
    Bool → List α → Printer Unit
  | _, [] => return
  | isFirst, item :: rest => do
    if !isFirst then
      let newSection ← isBelow slot
      let _ ← lineBreak (start item).line 1 .ignored newSection
    recordLine slot
    print item
    lines start print slot false rest

def manyFields (layout : Layout) (isStruct hasComments : Bool) (fields : Fields) :
    Printer Unit := do
  space .blank
  symbolAt fields.opening .openBrace
  space .indent
  if hasComments || !fields.fields.isEmpty then space .formfeed
  let gap := if fields.fields.length = 1 then Space.blank else .cell
  let slot ← newLine
  lines Field.start (if isStruct then layout.structField gap else layout.method) slot true
    fields.fields
  space .unindent
  space .formfeed
  symbolAt fields.closing .closeBrace

def fewFields (layout : Layout) (isStruct : Bool) (fields : Fields) : Printer Unit := do
  symbolAt fields.opening .openBrace
  for field in fields.fields do
    space .blank
    layout.smallField isStruct field
    space .blank
  symbolAt fields.closing .closeBrace

def fields (layout : Layout) (isStruct : Bool) (fields : Fields) : Printer Unit := do
  let hasComments ← commentBefore fields.closing
  let isSmall := match fields.fields with
    | [] => true
    | [field] => layout.isSmall field
    | _ => false
  if !hasComments && fields.opening.line = fields.closing.line && isSmall then
    layout.fewFields isStruct fields
  else layout.manyFields isStruct hasComments fields

/-! ## Blocks and function bodies -/

/-- Print statements below each other. Cases of a switch are not indented, and each
starts a section. -/
def statementList (layout : Layout) (isIndented beforeBrace : Bool) (total slot : Nat) :
    Nat → List Statement → Printer Unit
  | _, [] => return
  | index, statement :: rest => do
    if statement.isEmpty then
      statementList layout isIndented beforeBrace total slot index rest
    else
      if !(← get).output.isEmpty then
        let newSection := index = 0 || !isIndented || (← isBelow slot)
        let _ ← lineBreak statement.start.line 1 .ignored newSection
      recordLine slot
      layout.statement statement (beforeBrace && index + 1 = total)
      modify fun state => { state with
        lines := state.lines.modify slot (· + statement.labels) }
      statementList layout isIndented beforeBrace total slot (index + 1) rest

def statements (layout : Layout) (isIndented beforeBrace : Bool)
    (statements : List Statement) : Printer Unit := do
  if isIndented then space .indent
  let slot ← newLine
  layout.statementList isIndented beforeBrace statements.length slot 0 statements
  if isIndented then space .unindent

def block (layout : Layout) (isIndented : Bool) (block : Block) : Printer Unit := do
  symbolAt block.opening .openBrace
  layout.statements isIndented true block.statements
  let _ ← lineBreak block.closing.line 1 .ignored true
  symbolAt block.closing .closeBrace

def functionLimit : Nat := 100

def bodySize (layout : Layout) (block : Block) : Printer Nat := do
  if block.opening.line != block.closing.line || block.statements.length > 5 then
    return functionLimit + 1
  else
    let comments ← commentSizeBefore block.closing
    let sizes := block.statements.map (layout.statementSize functionLimit)
    return sizes.foldl (· + ·) (comments + 2 * (sizes.length - 1))

def oneLine (layout : Layout) : Bool → List Statement → Printer Unit
  | _, [] => return
  | isFirst, statement :: rest => do
    if !isFirst then
      symbol .semicolon
      space .blank
    layout.statement statement rest.isEmpty
    oneLine layout false rest

/-- Do not break the line behind a comment between marks, or do so again. -/
def toggleExtraLine : Printer Unit :=
  modify fun state => { state with noExtraLine := !state.noExtraLine }

def toggleExtraBlank : Printer Unit :=
  modify fun state => { state with noExtraBlank := !state.noExtraBlank }

/-- Print the body of a function whose header has a size, if it is on one line. -/
def body (layout : Layout) (headerSize : Option Nat) (gap : Space) (block : Block) :
    Printer Unit := do
  let level := (← get).level
  modify fun state => { state with level := 0 }
  let size ← layout.bodySize block
  let fits : Bool := match headerSize with
    | some header => header + size ≤ functionLimit
    | none => false
  if fits then
    space gap
    symbolAt block.opening .openBrace
    if !block.statements.isEmpty then
      space .blank
      layout.oneLine true block.statements
      space .blank
    toggleExtraLine
    symbolAt block.closing .closeBrace
    toggleExtraLine
  else
    space .blank
    layout.block true block
  modify fun state => { state with level := level }

def distance (start : Place) (column : Nat) : Printer (Option Nat) := do
  let state ← get
  return if start.line = state.place.line then some (state.out.column - column) else none

/-! ## Terms -/

/-- Print a field of a record. Tells whether the line was broken before it, in which
case a method stays indented. -/
def selector (layout : Layout) (record field : Term) (depth : Nat) (isMethod : Bool) :
    Printer Bool := do
  layout.term record highestTightness depth
  symbol .period
  let breaks := (← get).place.line < line field
  if breaks then
    space .indent
    space .newline
  layout.term field 0 1
  if breaks && !isMethod then space .unindent
  return breaks

def bounds (layout : Layout) (depth : Nat) (hasBlanks : Bool) :
    Option (Option Term) → List (Option Term) → Printer Unit
  | _, [] => return
  | previous, bound :: rest => do
    if let some previous := previous then
      if previous.isSome && hasBlanks then space .blank
      symbol .colon
      if bound.isSome && hasBlanks then space .blank
    if let some term := bound then layout.term term 0 (depth + 1)
    bounds layout depth hasBlanks (some bound) rest

def isBinary (term : Term) : Bool :=
  match term.form with
  | .binary _ _ _ _ => true
  | _ => false

def slice (layout : Layout) (array : Term) (opening : Place) (low high limit : Option Term)
    (closing : Place) (depth : Nat) : Printer Unit := do
  layout.term array highestTightness 1
  symbolAt opening .openBracket
  let given := low.toList ++ high.toList ++ limit.toList
  let hasBlanks := depth ≤ 1 && given.length > 1 && given.any isBinary
  layout.bounds depth hasBlanks none
    (low :: high :: (if limit.isSome then [limit] else []))
  symbolAt closing .closeBracket

def needsParens (function : Term) : Bool :=
  match function.form with
  | .functionType _ => true
  | .channelType .receive _ _ => true
  | _ => false

/-- Print what is called. Tells whether a method was put on a line of its own. -/
def callee (layout : Layout) (function : Term) (depth : Nat) : Printer Bool := do
  match function.form with
  | .selector record field => layout.selector record field depth true
  | _ =>
    layout.term function highestTightness depth
    return false

def call (layout : Layout) (function : Term) (opening : Place) (arguments : List Term)
    (dots : Option Place) (closing : Place) (depth : Nat) : Printer Unit := do
  let depth := if arguments.length > 1 then depth + 1 else depth
  if needsParens function then symbol .openParen
  let wasIndented ← layout.callee function depth
  if needsParens function then symbol .closeParen
  symbolAt opening .openParen
  match dots with
  | some dots =>
    layout.list opening arguments depth .plain dots
    symbolAt dots .ellipsis
    if dots.line < closing.line then
      symbol .comma
      space .formfeed
  | none => layout.list opening arguments depth ⟨true, true⟩ closing
  symbolAt closing .closeParen
  if wasIndented then space .unindent

def composite (layout : Layout) (type : Option Term) (opening : Place)
    (elements : List Term) (closing : Place) (depth : Nat) : Printer Unit := do
  if let some type := type then layout.term type highestTightness depth
  modify fun state => { state with level := state.level + 1 }
  symbolAt opening .openBrace
  layout.list opening elements 1 ⟨true, true⟩ closing
  space .indent
  space .unindent
  toggleExtraLine
  if !elements.isEmpty then toggleExtraBlank
  symbolAt closing .closeBrace
  toggleExtraLine
  if !elements.isEmpty then toggleExtraBlank
  modify fun state => { state with level := state.level - 1 }

def spelling : LiteralKind → String → String
  | .integer, text => Numeral.canonical text
  | .floating, text => Numeral.canonical text
  | .imaginary, text => Numeral.canonical text
  | _, text => text

def anyTerm (layout : Layout) (whole : Term) (least depth : Nat) : Printer Unit := do
  moveTo whole.start
  match whole.form with
  | .name text => token (.name text)
  | .literal kind text => token (.literal kind (spelling kind text))
  | .function signature body =>
    keyword .func
    let column := (← get).out.column - 4
    layout.signature signature
    layout.body (← distance whole.start column) .blank body
  | .composite type opening elements closing =>
    layout.composite type opening elements closing depth
  | .paren inner closing =>
    match inner.form with
    | .paren _ _ => layout.term inner 0 depth
    | _ =>
      symbol .openParen
      layout.term inner 0 (reduced depth)
      symbolAt closing .closeParen
  | .selector record field => let _ ← layout.selector record field depth false
  | .index array opening [index] closing =>
    layout.term array highestTightness 1
    symbolAt opening .openBracket
    layout.term index 0 (depth + 1)
    symbolAt closing .closeBracket
  | .index array opening indices closing =>
    layout.term array highestTightness 1
    symbolAt opening .openBracket
    layout.list opening indices (depth + 1) ⟨true, true⟩ closing
    symbolAt closing .closeBracket
  | .slice array opening low high limit closing =>
    layout.slice array opening low high limit closing depth
  | .assertion value opening type closing =>
    layout.term value highestTightness depth
    symbol .period
    symbolAt opening .openParen
    match type with
    | some type => layout.term type 0 1
    | none => keyword .type
    symbolAt closing .closeParen
  | .call function opening arguments dots closing =>
    layout.call function opening arguments dots closing depth
  | .star operand =>
    if unaryTightness < least then symbol .openParen
    symbol .times
    layout.term operand 0 1
    if unaryTightness < least then symbol .closeParen
  | .unary operator operand =>
    if unaryTightness < least then
      symbol .openParen
      layout.term whole 0 1
      symbol .closeParen
    else
      symbol operator
      layout.term operand unaryTightness depth
  | .binary left operator place right =>
    layout.binary whole left operator place right least depth
  | .pair key colon value =>
    layout.term key 0 1
    symbolAt colon .colon
    space .blank
    layout.term value 0 1
  | .ellipsis element =>
    symbol .ellipsis
    if let some element := element then layout.term element 0 1
  | .arrayType length element =>
    symbol .openBracket
    if let some length := length then layout.term length 0 1
    symbol .closeBracket
    layout.term element 0 1
  | .structType fields =>
    keyword .struct
    layout.fields true fields
  | .functionType signature =>
    keyword .func
    layout.signature signature
  | .interfaceType methods =>
    keyword .interface
    layout.fields false methods
  | .mapType key value =>
    keyword .map
    symbol .openBracket
    layout.term key 0 1
    symbol .closeBracket
    layout.term value 0 1
  | .channelType direction arrow value =>
    match direction with
    | .any => keyword .chan
    | .receive =>
      symbol .arrow
      keyword .chan
    | .send =>
      keyword .chan
      symbolAt arrow .arrow
    space .blank
    layout.term value 0 1

end Layout

end StateTables.Format
