import StateTables.Format.Layout.Term

/-! # Laying out declarations, statements and files -/

namespace StateTables.Format

namespace Layout

open Printer

/-! ## Declarations -/

/-- Which declarations keep the column of types: those in a run of declarations with
values, some of which have a type. It is told for each declaration whether it has a
type and whether it has values; before them comes a run of some length. -/
def typeColumns (run : Nat) (isTyped : Bool) : List (Bool × Bool) → List Bool
  | [] => List.replicate run isTyped
  | (hasType, true) :: rest => typeColumns (run + 1) (hasType || isTyped) rest
  | (_, false) :: rest => List.replicate run isTyped ++ false :: typeColumns 0 false rest

def shape : Specification → Bool × Bool
  | .values _ type values _ => (type.isSome, !values.isEmpty)
  | _ => (false, false)

def alignedValues (layout : Layout) (names : List Term) (type : Option Term)
    (values : List Term) (hasComment keepsColumn : Bool) : Printer Unit := do
  layout.names names false
  let hasColumn := type.isSome || keepsColumn
  if hasColumn then space .cell
  if let some type := type then layout.term type 0 1
  if !values.isEmpty then
    space .cell
    symbol .assign
    space .blank
    layout.list .unknown values 1 .plain .unknown
  if hasComment then
    let used := (if hasColumn then 1 else 0) + (if values.isEmpty then 0 else 1)
    for _ in List.range (3 - used) do space .cell

def specification (layout : Layout) (isOnly isIndented : Bool) :
    Specification → Printer Unit
  | .imported name path => do
    if let some name := name then
      layout.term name 0 1
      space .blank
    layout.term path 0 1
  | .values names type values _ => do
    layout.names names isIndented
    if let some type := type then
      space .blank
      layout.term type 0 1
    if !values.isEmpty then
      space .blank
      symbol .assign
      space .blank
      layout.list .unknown values 1 .plain .unknown
  | .type name parameters isAlias type => do
    layout.term name 0 1
    if let some parameters := parameters then layout.parameters .types parameters
    space (if isOnly then .blank else .cell)
    if isAlias then
      symbol .assign
      space .blank
    layout.term type 0 1

def alignedSpecification (layout : Layout) :
    Specification × Bool → Printer Unit
  | (.values names type values hasComment, keepsColumn) =>
    layout.alignedValues names type values hasComment keepsColumn
  | (other, _) => layout.specification false false other

def specifications (layout : Layout) (keyword : Keyword) (list : List Specification) :
    Printer Unit := do
  let slot ← newLine
  if list.length > 1 && (keyword = .const || keyword = .var) then
    let columns := typeColumns 0 false (list.map shape)
    lines (fun (item : Specification × Bool) => item.1.start) layout.alignedSpecification slot
      true (list.zip columns)
  else
    lines Specification.start (layout.specification (list.length = 1) false) slot true list

def declaration (layout : Layout) : Declaration → Printer Unit
  | .group start _ word opening list closing _ => do
    moveTo start
    keyword word
    space .blank
    match opening with
    | some opening =>
      symbolAt opening .openParen
      if !list.isEmpty then
        space .indent
        space .formfeed
        layout.specifications word list
        space .unindent
        space .formfeed
      symbolAt closing .closeParen
    | none =>
      for only in list do layout.specification true true only
  | .function start _ receiver name signature body _ => do
    moveTo start
    keyword .func
    space .blank
    let column := (← get).out.column - 5
    if let some receiver := receiver then
      layout.parameters .values receiver
      space .blank
    layout.term name 0 1
    layout.signature signature
    if let some body := body then layout.body (← distance start column) .cell body

/-! ## Statements -/

def header (layout : Layout) (isLoop : Bool) (initial : Option Statement)
    (condition : Option Term) (after : Option Statement) : Printer Unit := do
  space .blank
  let printCondition : Printer Unit := do
    if let some condition := condition then layout.term condition.bare 0 1
  if initial.isNone && after.isNone then
    printCondition
    if condition.isSome then space .blank
  else
    if let some initial := initial then layout.statement initial false
    symbol .semicolon
    space .blank
    printCondition
    if isLoop then
      symbol .semicolon
      space .blank
      if let some after := after then
        layout.statement after false
        space .blank
    else if condition.isSome then space .blank

/-- Does a list look better if all of it is indented? It does if an item starts below
the end of the one before, or if several items take several lines. -/
def isIndentedWhole (line : Nat) (tall : Nat) : List Term → Bool
  | [] => tall > 1
  | item :: rest =>
    line < item.start.line ||
      isIndentedWhole item.stopLine (if item.start.line < item.stopLine then tall + 1 else tall)
        rest

def results (layout : Layout) (values : List Term) : Printer Unit := do
  keyword .return
  match values with
  | [] => return
  | first :: rest =>
    space .blank
    if !rest.isEmpty && isIndentedWhole first.start.line 0 values then
      space .indent
      layout.list .unknown values 1 ⟨false, false⟩ .unknown
      space .unindent
    else layout.list .unknown values 1 .plain .unknown

def labeled (layout : Layout) (label : Term) (colon : Place) (inner : Statement)
    (beforeBrace : Bool) : Printer Unit := do
  space .unindent
  layout.term label 0 1
  symbolAt colon .colon
  space .indent
  if inner.isEmpty then
    if !beforeBrace then
      space .newline
      symbolAt inner.start .semicolon
    else layout.statement inner beforeBrace
  else
    let _ ← lineBreak inner.start.line 1 .ignored true
    layout.statement inner beforeBrace

def rangeLoop (layout : Layout) (key value : Option Term) (place : Place)
    (operator : Symbol) (subject : Term) (body : Block) : Printer Unit := do
  keyword .for
  space .blank
  if let some key := key then
    layout.term key 0 1
    if let some value := value then
      symbolAt value.start .comma
      space .blank
      layout.term value 0 1
    space .blank
    symbolAt place operator
    space .blank
  keyword .range
  space .blank
  layout.term subject.bare 0 1
  space .blank
  layout.block true body

def caseBody (layout : Layout) (colon : Place) (body : List Statement)
    (beforeBrace : Bool) : Printer Unit := do
  symbolAt colon .colon
  layout.statements true beforeBrace body

def anyStatement (layout : Layout) (whole : Statement) (beforeBrace : Bool) :
    Printer Unit := do
  moveTo whole.start
  match whole.form with
  | .declaration declared => layout.declaration declared
  | .empty => return
  | .labeled label colon inner => layout.labeled label colon inner beforeBrace
  | .evaluate value => layout.term value 0 1
  | .send channel arrow value =>
    layout.term channel 0 1
    space .blank
    symbolAt arrow .arrow
    space .blank
    layout.term value 0 1
  | .count operand place operator =>
    layout.term operand 0 2
    symbolAt place operator
  | .assign left place operator right =>
    let depth := if left.length > 1 && right.length > 1 then 2 else 1
    layout.list whole.start left depth .plain place
    space .blank
    symbolAt place operator
    space .blank
    layout.list place right depth .plain .unknown
  | .launch word call =>
    keyword word
    space .blank
    layout.term call 0 1
  | .result values => layout.results values
  | .jump word label =>
    keyword word
    if let some label := label then
      space .blank
      layout.term label 0 1
  | .block block => layout.block true block
  | .branch initial condition body otherwise =>
    keyword .if
    layout.header false initial (some condition) none
    layout.block true body
    if let some otherwise := otherwise then
      space .blank
      keyword .else
      space .blank
      layout.statement otherwise beforeBrace
  | .caseClause terms colon body =>
    match terms with
    | some terms =>
      keyword .case
      space .blank
      layout.list whole.start terms 1 .plain colon
    | none => keyword .default
    layout.caseBody colon body beforeBrace
  | .switch initial subject body =>
    keyword .switch
    layout.header false initial subject none
    layout.block false body
  | .typeSwitch initial guard body =>
    keyword .switch
    if let some initial := initial then
      space .blank
      layout.statement initial false
      symbol .semicolon
    space .blank
    layout.statement guard false
    space .blank
    layout.block false body
  | .channelClause operation colon body =>
    match operation with
    | some operation =>
      keyword .case
      space .blank
      layout.statement operation false
    | none => keyword .default
    layout.caseBody colon body beforeBrace
  | .select body =>
    keyword .select
    space .blank
    let hasComments ← commentBefore body.closing
    if body.statements.isEmpty && !hasComments then
      symbolAt body.opening .openBrace
      symbolAt body.closing .closeBrace
    else layout.block false body
  | .loop initial condition after body =>
    keyword .for
    layout.header true initial condition after
    layout.block true body
  | .rangeLoop key value place operator subject body =>
    layout.rangeLoop key value place operator subject body

def upTo : Nat → Layout
  | 0 => ⟨fun _ _ _ => pure (), fun _ _ => pure ()⟩
  | depth + 1 =>
    { term := fun whole least nesting state => (upTo depth).anyTerm whole least nesting state
      statement := fun whole beforeBrace state =>
        (upTo depth).anyStatement whole beforeBrace state }

/-! ## Files -/

def declarations (layout : Layout) : Option Keyword → List Declaration → Printer Unit
  | _, [] => return
  | previous, declared :: rest => do
    let word := declared.keyword
    let least := if previous != some word || declared.hasComment then 2 else 1
    let newSection := word = .func && declared.start.line != declared.stopLine
    let _ ← lineBreak declared.start.line least .ignored newSection
    layout.declaration declared
    declarations layout (some word) rest

def file (layout : Layout) (file : File) : Printer Unit := do
  moveTo file.start
  keyword .package
  space .blank
  layout.term file.name 0 1
  layout.declarations none file.declarations
  space .newline
  modify fun state => { state with impliesEnd := false }
  let _ ← flush ⟨beyond, beyond, 0⟩ .finish

end Layout

end StateTables.Format
