import StateTables.Format.Comment
import StateTables.Format.Tree

/-! # Parsing source text

Reads trees from tokens. There is no result for a text that is no source file.

Productions refer to each other. A production is given the others as a `Grammar`,
and `Grammar.upTo` ties them together to some depth.
-/

namespace StateTables.Format

namespace Parser

structure State where
  tokens : Array Marked
  position : Nat
  /-- Below zero where a brace opens a block and not a composite value. -/
  level : Int
  /-- The line that the last token ended on. -/
  line : Nat

end Parser

abbrev Parser := StateT Parser.State Option

namespace Parser

/-! ## Single tokens -/

def current : Parser Marked := do
  let state ← get
  return state.tokens[state.position]?.getD ⟨⟨.finish, .unknown, 0⟩, false, false⟩

def token : Parser Token :=
  return (← current).lexeme.token

def place : Parser Place :=
  return (← current).lexeme.place

def advance : Parser Unit := do
  let marked ← current
  modify fun state =>
    { state with position := state.position + 1, line := marked.lexeme.stopLine }

def atSymbol (symbol : Symbol) : Parser Bool :=
  return (← token) == .symbol symbol

def atKeyword (keyword : Keyword) : Parser Bool :=
  return (← token) == .keyword keyword

def expect (expected : Token) : Parser Place := do
  let marked ← current
  if marked.lexeme.token == expected then
    advance
    return marked.lexeme.place
  else failure

def expectSymbol (symbol : Symbol) : Parser Place :=
  expect (.symbol symbol)

def expectKeyword (keyword : Keyword) : Parser Place :=
  expect (.keyword keyword)

/-- Read a symbol if it is next, and tell whether it was. -/
def accept (symbol : Symbol) : Parser Bool := do
  if ← atSymbol symbol then
    advance
    return true
  else return false

/-- Read the end of a statement or of a declaration, which may be left out before a
closing bracket. Tell whether a comment follows on the line. -/
def ending : Parser Bool := do
  let marked ← current
  match marked.lexeme.token with
  | .symbol .closeParen => return false
  | .symbol .closeBrace => return false
  | .symbol .semicolon =>
    advance
    return (← current).isTrailed
  | .lineEnd =>
    advance
    return marked.isTrailed
  | _ => failure

def close (start : Place) (form : TermForm) : Parser Term :=
  return .mk start (← get).line form

def nested {α : Type} (inner : Parser α) : Parser α := do
  modify fun state => { state with level := state.level + 1 }
  let result ← inner
  modify fun state => { state with level := state.level - 1 }
  return result

def header {α : Type} (inner : Parser α) : Parser α := do
  let level := (← get).level
  modify fun state => { state with level := -1 }
  let result ← inner
  modify fun state => { state with level := level }
  return result

/-! ## Sequences -/

def collect {α : Type} (more : Token → Bool) (item : Parser α) :
    Nat → Array α → Parser (Array α)
  | 0, _ => failure
  | fuel + 1, items => do
    if more (← token) then
      let next ← item
      collect more item fuel (items.push next)
    else return items

/-- The number of tokens left, and one more. -/
def room : Parser Nat := do
  let state ← get
  return state.tokens.size - state.position + 1

def many {α : Type} (more : Token → Bool) (item : Parser α) : Parser (List α) :=
  return (← collect more item (← room) #[]).toList

def listed {α : Type} (item : Parser α) : Parser (List α) := do
  let first ← item
  let others ← many (· == .symbol .comma) do
    advance
    item
  return first :: others

def enclosedItems {α : Type} (closing : Symbol) (item : Parser α) :
    Nat → Array α → Parser (Array α)
  | 0, _ => failure
  | fuel + 1, items => do
    if ← atSymbol closing then return items
    else
      let items := items.push (← item)
      if ← accept .comma then enclosedItems closing item fuel items
      else if ← atSymbol closing then return items
      else failure

def enclosed {α : Type} (closing : Symbol) (item : Parser α) : Parser (List α) :=
  return (← enclosedItems closing item (← room) #[]).toList

end Parser

/-! ## Productions that refer to each other -/

structure Grammar where
  /-- An operation whose operators bind at least as tight as a number tells. -/
  binary : Nat → Parser Term
  unary : Parser Term
  /-- The elements of a composite value of a type that may be left out. -/
  composite : Option Term → Parser Term
  type? : Parser (Option Term)
  statement : Parser Statement
  branch : Parser Statement

namespace Grammar

open Format.Parser

def expression (grammar : Grammar) : Parser Term :=
  grammar.binary 1

def expressions (grammar : Grammar) : Parser (List Term) :=
  listed grammar.expression

def type (grammar : Grammar) : Parser Term := do
  match ← grammar.type? with
  | some type => return type
  | none => failure

/-! ## Names and types -/

def name : Parser Term := do
  let start ← place
  match ← token with
  | .name text =>
    advance
    close start (.name text)
  | _ => failure

def instantiate (grammar : Grammar) (type : Term) : Parser Term := do
  let opening ← expectSymbol .openBracket
  let arguments ← nested (enclosed .closeBracket grammar.type)
  let closing ← expectSymbol .closeBracket
  if arguments.isEmpty then failure
  close type.start (.index type opening arguments closing)

def qualify (first : Term) : Parser Term := do
  if ← accept .period then
    let field ← name
    close first.start (.selector first field)
  else return first

def typeName (grammar : Grammar) (first : Term) : Parser Term := do
  let type ← qualify first
  if ← atSymbol .openBracket then grammar.instantiate type else return type

def arrayOf (grammar : Grammar) (start : Place) (length : Option Term) : Parser Term := do
  let _ ← expectSymbol .closeBracket
  let element ← grammar.type
  close start (.arrayType length element)

def arrayType (grammar : Grammar) (start : Place) : Parser Term := do
  let length ← nested do
    if ← atSymbol .ellipsis then
      let dots ← place
      advance
      return some (← close dots (.ellipsis none))
    else if ← atSymbol .closeBracket then return none
    else return some (← grammar.expression)
  grammar.arrayOf start length

def arrayOrInstance (grammar : Grammar) (first : Term) : Parser (Option Term × Term) := do
  let opening ← expectSymbol .openBracket
  let arguments ← nested (enclosed .closeBracket grammar.expression)
  let trailing := (← get).tokens[(← get).position - 1]?.map (·.lexeme.token)
  let closing ← expectSymbol .closeBracket
  match arguments with
  | [] =>
    let element ← grammar.type
    return (some first, ← close opening (.arrayType none element))
  | [length] =>
    match ← grammar.type? with
    | some element =>
      if trailing == some (.symbol .comma) then failure
      return (some first, ← close opening (.arrayType (some length) element))
    | none => return (none, ← close first.start (.index first opening arguments closing))
  | _ => return (none, ← close first.start (.index first opening arguments closing))

/-! ## Fields -/

def namedField (grammar : Grammar) : Parser (List Term × Term) := do
  let first ← name
  let next ← token
  if next == .symbol .period then return ([], ← grammar.typeName first)
  else if next.isSemicolon || next == .symbol .closeBrace then return ([], first)
  else match next with
    | .literal .text _ => return ([], first)
    | .symbol .comma =>
      advance
      let others ← listed name
      return (first :: others, ← grammar.type)
    | .symbol .openBracket =>
      let (name?, type) ← grammar.arrayOrInstance first
      return (name?.toList, type)
    | _ => return ([first], ← grammar.type)

def field (grammar : Grammar) : Parser Field := do
  let (names, type) ← match ← token with
    | .symbol .times =>
      let start ← place
      advance
      let type ← grammar.typeName (← name)
      pure ([], ← close start (.star type))
    | _ => grammar.namedField
  let tagStart ← place
  let tag ← match ← token with
    | .literal .text text =>
      advance
      pure (some (← close tagStart (.literal .text text)))
    | _ => pure none
  return .mk names type tag (← ending)

def structType (grammar : Grammar) : Parser Term := do
  let start ← expectKeyword .struct
  let opening ← expectSymbol .openBrace
  let isField : Token → Bool
    | .name _ => true
    | .symbol .times => true
    | .symbol .openParen => true
    | _ => false
  let fields ← many isField grammar.field
  let closing ← expectSymbol .closeBrace
  close start (.structType (.mk opening fields closing))

/-! ## Sets of types -/

def typeTerm (grammar : Grammar) : Parser Term := do
  let start ← place
  if ← accept .tilde then
    let type ← grammar.type
    close start (.unary .tilde type)
  else grammar.type

def union (grammar : Grammar) (first : Term) : Parser Term := do
  let others ← many (· == .symbol .or) do
    let operator ← place
    advance
    let term ← grammar.typeTerm
    return (operator, term)
  return others.foldl (fun left (operator, right) =>
    .mk left.start right.stopLine (.binary left .or operator right)) first

/-! ## Parameters -/

structure Parameter where
  name : Option Term
  type : Option Term

namespace Parameter

def isNamed (parameter : Parameter) : Bool :=
  parameter.name.isSome && parameter.type.isSome

def isOpen (parameter : Parameter) : Bool :=
  match parameter.type with
  | some (.mk _ _ (.ellipsis _)) => true
  | _ => false

end Parameter

def dotsType (grammar : Grammar) : Parser Term := do
  let start ← expectSymbol .ellipsis
  let type ← grammar.type
  close start (.ellipsis (some type))

def startsType : Token → Bool
  | .symbol .times | .symbol .arrow | .symbol .openParen => true
  | .keyword .func | .keyword .chan | .keyword .map | .keyword .struct
  | .keyword .interface => true
  | _ => false

def wider (grammar : Grammar) (ofTypes : Bool) (type : Term) : Parser Term := do
  if ofTypes && (← atSymbol .or) then grammar.union type else return type

def namedParameter (grammar : Grammar) (ofTypes : Bool) (first : Term) : Parser Parameter := do
  match ← token with
  | .symbol .openBracket =>
    let (name?, type) ← grammar.arrayOrInstance first
    return ⟨name?, some (← grammar.wider ofTypes type)⟩
  | .symbol .ellipsis => return ⟨some first, some (← grammar.dotsType)⟩
  | .symbol .period =>
    return ⟨none, some (← grammar.wider ofTypes (← grammar.typeName first))⟩
  | .symbol .tilde =>
    if ofTypes then return ⟨some first, some (← grammar.union (← grammar.typeTerm))⟩
    else return ⟨some first, none⟩
  | .symbol .or =>
    if ofTypes then return ⟨none, some (← grammar.union first)⟩ else return ⟨some first, none⟩
  | next =>
    let isType := startsType next || match next with
      | .name _ => true
      | _ => false
    if isType then
      return ⟨some first, some (← grammar.wider ofTypes (← grammar.type))⟩
    else return ⟨some first, none⟩

def parameter (grammar : Grammar) (ofTypes : Bool) : Parser Parameter := do
  match ← token with
  | .name _ => grammar.namedParameter ofTypes (← name)
  | .symbol .ellipsis => return ⟨none, some (← grammar.dotsType)⟩
  | .symbol .tilde =>
    if ofTypes then return ⟨none, some (← grammar.union (← grammar.typeTerm))⟩ else failure
  | next =>
    if startsType next || next == .symbol .openBracket then
      return ⟨none, some (← grammar.wider ofTypes (← grammar.type))⟩
    else failure

/-- The parameters as fields: names without a type share the next one. -/
def namedFields : List Term → List Parameter → Option (List Field)
  | [], [] => some []
  | _ :: _, [] => none
  | names, ⟨some name, some type⟩ :: rest =>
    (namedFields [] rest).map (.mk (names ++ [name]) type none false :: ·)
  | names, ⟨some name, none⟩ :: rest => namedFields (names ++ [name]) rest
  | _, ⟨none, _⟩ :: _ => none

/-- The parameters as fields: either all have names or none has. Type parameters
need names. -/
def fieldsOf? (ofTypes : Bool) (parameters : List Parameter) : Option (List Field) :=
  if parameters.any Parameter.isNamed then namedFields [] parameters
  else if ofTypes then none
  else parameters.mapM fun parameter =>
    match parameter.name, parameter.type with
    | some type, none => some (.mk [] type none false)
    | none, some type => some (.mk [] type none false)
    | _, _ => none

/-- Parameters behind some that have been read, up to a closing symbol. Only the last
may be a list of arguments. -/
def parameterFields (grammar : Grammar) (ofTypes isOpen : Bool) (closing : Symbol)
    (first : Option Parameter) : Parser (List Field) := do
  let parameters ← match first with
    | none => enclosed closing (grammar.parameter ofTypes)
    | some parameter =>
      if ← accept .comma then
        let others ← enclosed closing (grammar.parameter ofTypes)
        pure (parameter :: others)
      else if ← atSymbol closing then pure [parameter]
      else failure
  let misplaced := if isOpen then parameters.dropLast else parameters
  if misplaced.any Parameter.isOpen then failure
  match parameters.isEmpty, fieldsOf? ofTypes parameters with
  | true, _ => return []
  | false, some fields => return fields
  | false, none => failure

def parameters (grammar : Grammar) (isOpen : Bool) : Parser Fields := do
  let opening ← expectSymbol .openParen
  let fields ← grammar.parameterFields false isOpen .closeParen none
  let closing ← expectSymbol .closeParen
  return .mk opening fields closing

def results? (grammar : Grammar) : Parser (Option Fields) := do
  if ← atSymbol .openParen then return some (← grammar.parameters false)
  else
    let type? ← grammar.type?
    return type?.map fun type => .mk .unknown [.mk [] type none false] .unknown

def typeParameters (grammar : Grammar) : Parser Fields := do
  let opening ← expectSymbol .openBracket
  let fields ← grammar.parameterFields true false .closeBracket none
  let closing ← expectSymbol .closeBracket
  if fields.isEmpty then failure
  return .mk opening fields closing

def signature (grammar : Grammar) (typeParameters : Option Fields) : Parser Signature := do
  let parameters ← grammar.parameters true
  let results ← grammar.results?
  return .mk typeParameters parameters results

def functionType (grammar : Grammar) : Parser (Place × Signature) := do
  let start ← expectKeyword .func
  return (start, ← grammar.signature none)

/-! ## Interfaces -/

def method (grammar : Grammar) : Parser Field := do
  let first ← name
  let type ← qualify first
  if type.isName && (← atSymbol .openParen) then
    let start ← place
    let signature ← grammar.signature none
    let type ← close start (.functionType signature)
    return .mk [first] type none (← ending)
  else
    let type ← if ← atSymbol .openBracket then grammar.instantiate type else pure type
    let type ← grammar.union type
    return .mk [] type none (← ending)

def methodOrTypes (grammar : Grammar) : Parser Field := do
  match ← token with
  | .name _ => grammar.method
  | _ =>
    let type ← grammar.union (← grammar.typeTerm)
    return .mk [] type none (← ending)

def interfaceType (grammar : Grammar) : Parser Term := do
  let start ← expectKeyword .interface
  let opening ← expectSymbol .openBrace
  let isElement (next : Token) := startsType next || match next with
    | .name _ => true
    | .symbol .tilde => true
    | .symbol .openBracket => true
    | _ => false
  let methods ← many isElement grammar.methodOrTypes
  let closing ← expectSymbol .closeBrace
  close start (.interfaceType (.mk opening methods closing))

/-! ## All types -/

def mapType (grammar : Grammar) : Parser Term := do
  let start ← expectKeyword .map
  let _ ← expectSymbol .openBracket
  let key ← grammar.type
  let _ ← expectSymbol .closeBracket
  let value ← grammar.type
  close start (.mapType key value)

def channelType (grammar : Grammar) : Parser Term := do
  let start ← place
  if ← accept .arrow then
    let _ ← expectKeyword .chan
    let value ← grammar.type
    close start (.channelType .receive start value)
  else
    let _ ← expectKeyword .chan
    let arrow ← place
    if ← accept .arrow then
      let value ← grammar.type
      close start (.channelType .send arrow value)
    else
      let value ← grammar.type
      close start (.channelType .any .unknown value)

def possibleType (grammar : Grammar) : Parser (Option Term) := do
  let start ← place
  match ← token with
  | .name _ => return some (← grammar.typeName (← name))
  | .symbol .openBracket =>
    advance
    return some (← grammar.arrayType start)
  | .keyword .struct => return some (← grammar.structType)
  | .symbol .times =>
    advance
    let type ← grammar.type
    return some (← close start (.star type))
  | .keyword .func =>
    let (start, signature) ← grammar.functionType
    return some (← close start (.functionType signature))
  | .keyword .interface => return some (← grammar.interfaceType)
  | .keyword .map => return some (← grammar.mapType)
  | .keyword .chan => return some (← grammar.channelType)
  | .symbol .arrow => return some (← grammar.channelType)
  | .symbol .openParen =>
    advance
    let type ← grammar.type
    let closing ← expectSymbol .closeParen
    return some (← close start (.paren type closing))
  | _ => return none

/-! ## Expressions -/

def statements (grammar : Grammar) : Parser (List Statement) :=
  many (fun next => next != .keyword .case && next != .keyword .default &&
    next != .symbol .closeBrace && next != .finish) grammar.statement

def block (grammar : Grammar) : Parser Block := do
  let opening ← expectSymbol .openBrace
  let statements ← grammar.statements
  let closing ← expectSymbol .closeBrace
  return .mk opening statements closing

def operand (grammar : Grammar) : Parser Term := do
  let start ← place
  match ← token with
  | .name _ => name
  | .literal kind text =>
    advance
    close start (.literal kind text)
  | .symbol .openParen =>
    advance
    let inner ← nested grammar.expression
    let closing ← expectSymbol .closeParen
    close start (.paren inner closing)
  | .keyword .func =>
    let (start, signature) ← grammar.functionType
    if ← atSymbol .openBrace then
      let body ← nested grammar.block
      close start (.function signature body)
    else close start (.functionType signature)
  | _ => grammar.type

def value (grammar : Grammar) : Parser Term := do
  if ← atSymbol .openBrace then grammar.composite none else grammar.expression

def element (grammar : Grammar) : Parser Term := do
  let first ← grammar.value
  let colon ← place
  if ← accept .colon then
    let value ← grammar.value
    close first.start (.pair first colon value)
  else return first

def compositeValue (grammar : Grammar) (type : Option Term) : Parser Term := do
  let opening ← expectSymbol .openBrace
  let elements ← nested (enclosed .closeBrace grammar.element)
  let closing ← expectSymbol .closeBrace
  close ((type.map Term.start).getD opening) (.composite type opening elements closing)

def bound? (grammar : Grammar) : Parser (Option Term) := do
  let next ← token
  if next == .symbol .colon || next == .symbol .closeBracket then return none
  else return some (← grammar.expression)

def bracketed (grammar : Grammar) (array : Term) : Parser Term := do
  let opening ← expectSymbol .openBracket
  if ← atSymbol .closeBracket then failure
  let form : Place → TermForm ← nested do
    let low ← if ← atSymbol .colon then pure none else some <$> grammar.expression
    match ← token, low with
    | .symbol .colon, _ =>
      advance
      let high ← grammar.bound?
      if ← accept .colon then
        match high, ← grammar.bound? with
        | some high, some limit => pure (.slice array opening low (some high) (some limit))
        | _, _ => failure
      else pure (.slice array opening low high none)
    | .symbol .comma, some first =>
      advance
      let others ← enclosed .closeBracket grammar.type
      pure (.index array opening (first :: others))
    | _, some index => pure (.index array opening [index])
    | _, none => failure
  let closing ← expectSymbol .closeBracket
  close array.start (form closing)

def argument (grammar : Grammar) : Parser (Term × Option Place) := do
  let value ← grammar.expression
  let dots ← place
  if ← accept .ellipsis then return (value, some dots) else return (value, none)

def call (grammar : Grammar) (function : Term) : Parser Term := do
  let opening ← expectSymbol .openParen
  let arguments ← nested (enclosed .closeParen grammar.argument)
  if arguments.dropLast.any fun (_, dots) => dots.isSome then failure
  let closing ← expectSymbol .closeParen
  close function.start (.call function opening (arguments.map Prod.fst)
    (arguments.getLast?.bind Prod.snd) closing)

def selected (grammar : Grammar) (record : Term) : Parser Term := do
  let opening ← place
  if ← accept .openParen then
    let type ← if ← atKeyword .type then
        advance
        pure none
      else some <$> grammar.type
    let closing ← expectSymbol .closeParen
    close record.start (.assertion record opening type closing)
  else
    let field ← name
    close record.start (.selector record field)

def isCompositeType (level : Int) (term : Term) : Bool :=
  match term.form with
  | .name _ | .selector _ _ | .index _ _ _ _ => level ≥ 0
  | .arrayType _ _ | .structType _ | .mapType _ _ => true
  | _ => false

def suffixes (grammar : Grammar) : Nat → Term → Parser Term
  | 0, _ => failure
  | fuel + 1, term => do
    match ← token with
    | .symbol .period =>
      advance
      suffixes grammar fuel (← grammar.selected term)
    | .symbol .openBracket => suffixes grammar fuel (← grammar.bracketed term)
    | .symbol .openParen => suffixes grammar fuel (← grammar.call term)
    | .symbol .openBrace =>
      if isCompositeType (← get).level term.withoutParens then
        match term.form with
        | .paren _ _ => failure
        | _ => suffixes grammar fuel (← grammar.composite (some term))
      else return term
    | _ => return term

def primary (grammar : Grammar) (first : Term) : Parser Term := do
  grammar.suffixes (← room) first

/-- Give the arrow before a channel type to the type, and its own arrow to the type
of its values. -/
def receiving (arrow : Place) : Term → Option Term
  | .mk _ stopLine (.channelType .any _ value) =>
    some (.mk arrow stopLine (.channelType .receive arrow value))
  | .mk _ stopLine (.channelType .send inner value) =>
    (receiving inner value).map fun value =>
      .mk arrow stopLine (.channelType .receive arrow value)
  | _ => none

def unaryTerm (grammar : Grammar) : Parser Term := do
  let start ← place
  match ← token with
  | .symbol .times =>
    advance
    let operand ← grammar.unary
    close start (.star operand)
  | .symbol .arrow =>
    advance
    let operand ← grammar.unary
    match operand.form with
    | .channelType _ _ _ =>
      match receiving start operand with
      | some type => return type
      | none => failure
    | _ => close start (.unary .arrow operand)
  | .symbol operator =>
    if [Symbol.plus, .minus, .not, .xor, .and, .tilde].contains operator then
      advance
      let operand ← grammar.unary
      close start (.unary operator operand)
    else grammar.primary (← grammar.operand)
  | _ => grammar.primary (← grammar.operand)

/-- The operator to read next, if it binds at least as tight as a number tells. -/
def operator? (least : Nat) : Token → Option Symbol
  | .symbol symbol => if symbol.precedence ≥ max 1 least then some symbol else none
  | _ => none

def operations (grammar : Grammar) (least : Nat) : Nat → Term → Parser Term
  | 0, _ => failure
  | fuel + 1, left => do
    match operator? least (← token) with
    | none => return left
    | some operator =>
      let operatorPlace ← place
      advance
      let right ← grammar.binary (operator.precedence + 1)
      operations grammar least fuel
        (.mk left.start right.stopLine (.binary left operator operatorPlace right))

def binaryTerm (grammar : Grammar) (least : Nat) : Parser Term := do
  let left ← grammar.unary
  grammar.operations least (← room) left

/-! ## Simple statements -/

inductive Simple where
  | statement (statement : Statement)
  /-- A label, up to its colon. -/
  | label (name : Term) (colon : Place)
  /-- The header of a loop over something. -/
  | range (left : List Term) (place : Place) (operator : Symbol) (subject : Term)

def simple (grammar : Grammar) : Parser Simple := do
  let start ← place
  let terms ← grammar.expressions
  let operatorPlace ← place
  let one (make : Term → Parser Simple) : Parser Simple := match terms with
    | [term] => make term
    | _ => failure
  match ← token with
  | .symbol .colon => one fun term => do
    if term.isName then
      advance
      return .label term operatorPlace
    else failure
  | .symbol .arrow => one fun term => do
    advance
    let value ← grammar.expression
    return .statement (.mk start (.send term operatorPlace value))
  | .symbol .increment => one fun term => do
    advance
    return .statement (.mk start (.count term operatorPlace .increment))
  | .symbol .decrement => one fun term => do
    advance
    return .statement (.mk start (.count term operatorPlace .decrement))
  | .symbol operator =>
    if operator.assigns then
      advance
      if (← atKeyword .range) && (operator = .assign || operator = .define) then
        advance
        let subject ← grammar.expression
        return .range terms operatorPlace operator subject
      else
        let right ← grammar.expressions
        return .statement (.mk start (.assign terms operatorPlace operator right))
    else one fun term => return .statement (.mk start (.evaluate term))
  | _ => one fun term => return .statement (.mk start (.evaluate term))

def plain (grammar : Grammar) : Parser Statement := do
  match ← grammar.simple with
  | .statement statement => return statement
  | _ => failure

def evaluated? (statement : Statement) : Option Term :=
  match statement.form with
  | .evaluate term => some term
  | _ => none

/-! ## Branches and switches -/

def branchHeader (grammar : Grammar) : Parser (Option Statement × Term) := header do
  let first ← if (← token).isSemicolon then pure none else some <$> grammar.plain
  if ← atSymbol .openBrace then
    match first.bind evaluated? with
    | some condition => return (none, condition)
    | none => failure
  else if (← token).isSemicolon then
    advance
    match evaluated? (← grammar.plain) with
    | some condition => return (first, condition)
    | none => failure
  else failure

def branchStatement (grammar : Grammar) : Parser Statement := do
  let start ← expectKeyword .if
  let (initial, condition) ← grammar.branchHeader
  let body ← grammar.block
  if ← atKeyword .else then
    advance
    if ← atKeyword .if then
      let otherwise ← grammar.branch
      return .mk start (.branch initial condition body (some otherwise))
    else
      let otherwiseStart ← place
      let otherwise ← grammar.block
      let _ ← ending
      return .mk start (.branch initial condition body
        (some (.mk otherwiseStart (.block otherwise))))
  else
    let _ ← ending
    return .mk start (.branch initial condition body none)

def startsCase (next : Token) : Bool :=
  next == .keyword .case || next == .keyword .default

def caseClause (grammar : Grammar) : Parser Statement := do
  let start ← place
  let terms ← if ← atKeyword .case then
      advance
      some <$> grammar.expressions
    else
      let _ ← expectKeyword .default
      pure none
  let colon ← expectSymbol .colon
  let body ← grammar.statements
  return .mk start (.caseClause terms colon body)

def asksType (term : Term) : Bool :=
  match term.form with
  | .assertion _ _ none _ => true
  | _ => false

def isTypeGuard? (statement : Statement) : Option Bool :=
  match statement.form with
  | .evaluate term => some (asksType term)
  | .assign [_] _ operator [term] =>
    if asksType term then
      if operator = .define then some true else none
    else some false
  | _ => some false

def switchHeader (grammar : Grammar) : Parser (Option Statement × Option Statement) := do
  if ← atSymbol .openBrace then return (none, none)
  else header do
    let first ← if (← token).isSemicolon then pure none else some <$> grammar.plain
    if (← token).isSemicolon then
      advance
      if ← atSymbol .openBrace then return (first, none)
      else return (first, some (← grammar.plain))
    else return (none, first)

def switchStatement (grammar : Grammar) : Parser Statement := do
  let start ← expectKeyword .switch
  let (initial, subject) ← grammar.switchHeader
  let opening ← expectSymbol .openBrace
  let cases ← many startsCase grammar.caseClause
  let closing ← expectSymbol .closeBrace
  let _ ← ending
  let body : Block := .mk opening cases closing
  match subject with
  | none => return .mk start (.switch initial none body)
  | some statement =>
    match isTypeGuard? statement, evaluated? statement with
    | some true, _ => return .mk start (.typeSwitch initial statement body)
    | some false, some term => return .mk start (.switch initial (some term) body)
    | _, _ => failure

def channelOperation (grammar : Grammar) : Parser Statement := do
  let start ← place
  let terms ← grammar.expressions
  let operatorPlace ← place
  match ← token, terms with
  | .symbol .arrow, [channel] =>
    advance
    let value ← grammar.expression
    return .mk start (.send channel operatorPlace value)
  | .symbol .arrow, _ => failure
  | .symbol operator, _ =>
    if operator = .assign || operator = .define then
      if terms.length > 2 then failure
      advance
      let value ← grammar.expression
      return .mk start (.assign terms operatorPlace operator [value])
    else match terms with
      | [term] => return .mk start (.evaluate term)
      | _ => failure
  | _, [term] => return .mk start (.evaluate term)
  | _, _ => failure

def channelClause (grammar : Grammar) : Parser Statement := do
  let start ← place
  let operation ← if ← atKeyword .case then
      advance
      some <$> grammar.channelOperation
    else
      let _ ← expectKeyword .default
      pure none
  let colon ← expectSymbol .colon
  let body ← grammar.statements
  return .mk start (.channelClause operation colon body)

def selectStatement (grammar : Grammar) : Parser Statement := do
  let start ← expectKeyword .select
  let opening ← expectSymbol .openBrace
  let clauses ← many startsCase grammar.channelClause
  let closing ← expectSymbol .closeBrace
  let _ ← ending
  return .mk start (.select (.mk opening clauses closing))

/-! ## Loops -/

def countedHeader (grammar : Grammar) (first : Option Statement) :
    Parser (Block → StatementForm) := do
  if (← token).isSemicolon then
    advance
    let condition ← if (← token).isSemicolon then pure none
      else match evaluated? (← grammar.plain) with
        | some condition => pure (some condition)
        | none => failure
    let _ ← ending
    let after ← if ← atSymbol .openBrace then pure none else some <$> grammar.plain
    return .loop first condition after
  else match first with
    | none => return .loop none none none
    | some statement =>
      match evaluated? statement with
      | some condition => return .loop none (some condition) none
      | none => failure

def loopHeader (grammar : Grammar) : Parser (Block → StatementForm) := do
  if ← atSymbol .openBrace then return .loop none none none
  else header do
    if ← atKeyword .range then
      advance
      let subject ← grammar.expression
      return .rangeLoop none none .unknown .assign subject
    else if (← token).isSemicolon then grammar.countedHeader none
    else
      match ← grammar.simple with
      | .statement statement => grammar.countedHeader (some statement)
      | .label _ _ => failure
      | .range [key] place operator subject =>
        return .rangeLoop (some key) none place operator subject
      | .range [key, value] place operator subject =>
        return .rangeLoop (some key) (some value) place operator subject
      | .range _ _ _ _ => failure

def loopStatement (grammar : Grammar) : Parser Statement := do
  let start ← expectKeyword .for
  let make ← grammar.loopHeader
  let body ← grammar.block
  let _ ← ending
  return .mk start (make body)

/-! ## Declarations -/

def importSpecification : Parser Specification := do
  let start ← place
  let name ← match ← token with
    | .name _ => some <$> name
    | .symbol .period =>
      advance
      pure (some (← close start (.name ".")))
    | _ => pure none
  let pathStart ← place
  match ← token with
  | .literal .text text =>
    advance
    let path ← close pathStart (.literal .text text)
    let _ ← ending
    return .imported name path
  | _ => failure

def initialValues (grammar : Grammar) : Parser (List Term) := do
  if ← accept .assign then grammar.expressions else return []

def valueSpecification (grammar : Grammar) (isConstant : Bool) : Parser Specification := do
  let names ← listed name
  let next ← token
  if isConstant then
    if next.isSemicolon || next == .symbol .closeParen || next == .finish then
      return .values names none [] (← ending)
    else
      let type ← grammar.type?
      let values ← grammar.initialValues
      return .values names type values (← ending)
  else
    let type ← if next == .symbol .assign then pure none else some <$> grammar.type
    let values ← grammar.initialValues
    return .values names type values (← ending)

/-- Split a term that reads as a name before a type. The split is only made for what
is surely a type, or if it is wanted. -/
def splitName (wanted : Bool) : Term → Option (Term × Option Term)
  | .mk start stopLine form =>
    match form with
    | .name text => some (.mk start stopLine (.name text), none)
    | .binary left .times place right =>
      if left.isName && (wanted || right.isTypeElement) then
        some (left, some (.mk place right.stopLine (.star right)))
      else none
    | .binary left .or place right =>
      match splitName (wanted || right.isTypeElement) left with
      | some (name, some type) =>
        some (name, some (.mk type.start stopLine (.binary type .or place right)))
      | _ => none
    | .call function opening [argument] none closing =>
      if function.isName && (wanted || argument.isTypeElement) then
        some (function, some (.mk opening stopLine (.paren argument closing)))
      else none
    | _ => none

def declaredType (grammar : Grammar) : Parser (Bool × Term) := do
  let isAlias ← accept .assign
  return (isAlias, ← grammar.type)

def genericType (grammar : Grammar) (declared : Term) (opening : Place) (first : Parameter) :
    Parser Specification := do
  let fields ← grammar.parameterFields true false .closeBracket (some first)
  let closing ← expectSymbol .closeBracket
  let (isAlias, type) ← grammar.declaredType
  return .type declared (some (.mk opening fields closing)) isAlias type

def bracketType (grammar : Grammar) (declared : Term) (opening : Place) :
    Parser Specification := do
  match ← token with
  | .name _ =>
    let first ← name
    let term ← if ← atSymbol .openBracket then pure first
      else nested do
        let left ← grammar.primary first
        grammar.operations 1 (← room) left
    let atComma ← atSymbol .comma
    let atEnd ← atSymbol .closeBracket
    match splitName atComma term with
    | some (parameter, some type) =>
      let type ← grammar.union type
      grammar.genericType declared opening ⟨some parameter, some type⟩
    | some (parameter, none) =>
      if atEnd then return .type declared none false (← grammar.arrayOf opening (some term))
      else
        let parameter ← grammar.namedParameter true parameter
        grammar.genericType declared opening parameter
    | none => return .type declared none false (← grammar.arrayOf opening (some term))
  | _ => return .type declared none false (← grammar.arrayType opening)

def typeSpecification (grammar : Grammar) : Parser Specification := do
  let declared ← name
  let opening ← place
  let specification ← if ← accept .openBracket then grammar.bracketType declared opening
    else
      let (isAlias, type) ← grammar.declaredType
      pure (.type declared none isAlias type)
  let _ ← ending
  return specification

def group (keyword : Keyword) (specification : Parser Specification) : Parser Declaration := do
  let isHeaded := (← current).isHeaded
  let start ← expectKeyword keyword
  let opening ← place
  if ← accept .openParen then
    let specifications ← many (fun next => next != .symbol .closeParen && next != .finish)
      specification
    let closing ← expectSymbol .closeParen
    let line := (← get).line
    let _ ← ending
    return .group start isHeaded keyword (some opening) specifications closing line
  else
    let only ← specification
    return .group start isHeaded keyword none [only] .unknown (← get).line

def declaration? (grammar : Grammar) : Keyword → Option (Parser Declaration)
  | .import => some (group .import importSpecification)
  | .const => some (group .const (grammar.valueSpecification true))
  | .var => some (group .var (grammar.valueSpecification false))
  | .type => some (group .type grammar.typeSpecification)
  | _ => none

def functionDeclaration (grammar : Grammar) : Parser Declaration := do
  let isHeaded := (← current).isHeaded
  let start ← expectKeyword .func
  let receiver ← if ← atSymbol .openParen then some <$> grammar.parameters true else pure none
  let declared ← name
  let typeParameters ← if ← atSymbol .openBracket then
      if receiver.isSome then failure
      some <$> grammar.typeParameters
    else pure none
  let signature ← grammar.signature typeParameters
  if ← atSymbol .openBrace then
    let body ← grammar.block
    let line := (← get).line
    let _ ← ending
    return .function start isHeaded receiver declared signature (some body) line
  else
    let line := (← get).line
    let _ ← ending
    if ← atSymbol .openBrace then failure
    return .function start isHeaded receiver declared signature none line

/-! ## Statements -/

def launch (grammar : Grammar) (keyword : Keyword) : Parser Statement := do
  let start ← expectKeyword keyword
  let call ← grammar.expression
  match call.form with
  | .call _ _ _ _ _ =>
    let _ ← ending
    return .mk start (.launch keyword call)
  | _ => failure

def resultStatement (grammar : Grammar) : Parser Statement := do
  let start ← expectKeyword .return
  let next ← token
  let values ← if next.isSemicolon || next == .symbol .closeBrace then pure []
    else grammar.expressions
  let _ ← ending
  return .mk start (.result values)

def jump (keyword : Keyword) : Parser Statement := do
  let start ← expectKeyword keyword
  let label ← match keyword, ← token with
    | .goto, _ => some <$> name
    | .fallthrough, _ => pure none
    | _, .name _ => some <$> name
    | _, _ => pure none
  let _ ← ending
  return .mk start (.jump keyword label)

def simpleStatement (grammar : Grammar) : Parser Statement := do
  let start ← place
  match ← grammar.simple with
  | .statement statement =>
    let _ ← ending
    return statement
  | .label label colon =>
    let statement ← grammar.statement
    return .mk start (.labeled label colon statement)
  | .range _ _ _ _ => failure

def startsExpression (symbol : Symbol) : Bool :=
  [Symbol.openParen, .openBracket, .plus, .minus, .times, .and, .xor, .tilde, .arrow,
    .not].contains symbol

def anyStatement (grammar : Grammar) : Parser Statement := do
  let start ← place
  match ← token with
  | .name _ => grammar.simpleStatement
  | .literal _ _ => grammar.simpleStatement
  | .lineEnd =>
    advance
    return .mk start .empty
  | .symbol .semicolon =>
    advance
    return .mk start .empty
  | .symbol .closeBrace => return .mk start .empty
  | .symbol .openBrace =>
    let body ← grammar.block
    let _ ← ending
    return .mk start (.block body)
  | .symbol symbol => if startsExpression symbol then grammar.simpleStatement else failure
  | .keyword keyword =>
    match keyword with
    | .func | .struct | .map | .chan | .interface => grammar.simpleStatement
    | .go | .defer => grammar.launch keyword
    | .return => grammar.resultStatement
    | .break | .continue | .goto | .fallthrough => jump keyword
    | .if => grammar.branch
    | .switch => grammar.switchStatement
    | .select => grammar.selectStatement
    | .for => grammar.loopStatement
    | .const | .var | .type =>
      match grammar.declaration? keyword with
      | some parser => return .mk start (.declaration (← parser))
      | none => failure
    | _ => failure
  | _ => failure

/-! ## Files -/

def fileDeclaration (grammar : Grammar) : Parser Declaration := do
  match ← token with
  | .keyword .func => grammar.functionDeclaration
  | .keyword .import => failure
  | .keyword keyword =>
    match grammar.declaration? keyword with
    | some parser => parser
    | none => failure
  | _ => failure

def file (grammar : Grammar) : Parser File := do
  let start ← expectKeyword .package
  let package ← name
  let _ ← ending
  let imports ← many (· == .keyword .import) (group .import importSpecification)
  let others ← many (· != .finish) grammar.fileDeclaration
  return ⟨start, package, imports ++ others⟩

def upTo : Nat → Grammar
  | 0 => ⟨fun _ => failure, failure, fun _ => failure, failure, failure, failure⟩
  | depth + 1 =>
    { binary := fun least state => (upTo depth).binaryTerm least state
      unary := fun state => (upTo depth).unaryTerm state
      composite := fun type state => (upTo depth).compositeValue type state
      type? := fun state => (upTo depth).possibleType state
      statement := fun state => (upTo depth).anyStatement state
      branch := fun state => (upTo depth).branchStatement state }

end Grammar

def Parser.parseFile (tokens : Array Marked) : Option File :=
  let depth := 4 * tokens.size + 8
  ((Grammar.upTo depth).file.run ⟨tokens, 0, 0, 0⟩).map Prod.fst

end StateTables.Format
