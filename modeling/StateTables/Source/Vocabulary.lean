import StateTables.Encoding.Basic
import StateTables.Machine.Basic
import StateTables.Source.Declaration

/-! # Vocabulary of generated machines

Short forms for the expressions and statements a generated machine is made of,
and the settings a machine is generated with.
-/

namespace StateTables.Source

instance : Coe String Expression := ⟨.name⟩

instance (value : Nat) : OfNat Expression value := ⟨.number value⟩

instance : Add Expression := ⟨.binary .plus⟩

instance : Sub Expression := ⟨.binary .minus⟩

instance : Mul Expression := ⟨.binary .times⟩

def numeral (value : Nat) : Expression :=
  .number value

def equal (left right : Expression) : Expression :=
  .binary .equal left right

def notEqual (left right : Expression) : Expression :=
  .binary .notEqual left right

def less (left right : Expression) : Expression :=
  .binary .less left right

def greater (left right : Expression) : Expression :=
  .binary .greater left right

def atMost (left right : Expression) : Expression :=
  .binary .atMost left right

def atLeast (left right : Expression) : Expression :=
  .binary .atLeast left right

def both (left right : Expression) : Expression :=
  .binary .both left right

def either (left right : Expression) : Expression :=
  .binary .either left right

def shiftRight (left right : Expression) : Expression :=
  .binary .shiftRight left right

def pointee (pointer : Expression) : Expression :=
  .unary .pointee pointer

def address (place : Expression) : Expression :=
  .unary .address place

def negation (condition : Expression) : Expression :=
  .unary .negation condition

def call (function : String) (arguments : List Expression) : Expression :=
  .call (.name function) (.ofList arguments)

def register (name : String) : Expression :=
  .field "m" name

def currentState : Expression :=
  register "CS"

def method (name : String) (arguments : List Expression) : Expression :=
  .call (register name) (.ofList arguments)

/-! ## Statements -/

def assignAll (places : List Expression) (operator : AssignOperator)
    (values : List Expression) : Statement :=
  .assign (.ofList places) operator (.ofList values)

def assign (place value : Expression) : Statement :=
  assignAll [place] .assign [value]

def define (name : String) (value : Expression) : Statement :=
  assignAll [.name name] .define [value]

def give (value : Expression) : Statement :=
  .result (.ofList [value])

def givesNothing : Statement :=
  .result .nil

def branch (condition : Expression) (body : List Statement) : Statement :=
  .branch ⟨none, condition⟩ (.ofList body) .nothing

def branchOn (name : String) (value condition : Expression) (body : List Statement) :
    Statement :=
  .branch ⟨some (name, value), condition⟩ (.ofList body) .nothing

def loop (condition : Expression) (body : List Statement) : Statement :=
  .loop (.whileHolds condition) (.ofList body)

def countUp (counter : String) (first condition : Expression) (body : List Statement) :
    Statement :=
  .loop (.count counter first condition) (.ofList body)

def switchOn (subject : Expression) (cases : List (Option Expression × List Statement)) :
    Statement :=
  .switch (some subject) (.ofList cases)

def choose (cases : List (Option Expression × List Statement)) : Statement :=
  .switch none (.ofList cases)

def panicWith (message : String) : Statement :=
  .evaluate (call "panic" [.literal message])

/-! ## Settings -/

/-- How a machine is to be generated. Empty names and depths that are not
positive stand for defaults. -/
structure Settings where
  package : String
  /-- What the names of constants and tables start with. -/
  tables : String
  /-- The name of the machine type. -/
  type : String
  driver : DriverKind
  stackDepth : Int
  alternateDepth : Int
deriving DecidableEq, Repr

def orDefault (name otherwise : String) : String :=
  if name.isEmpty then otherwise else name

def depthOrDefault (depth otherwise : Int) : Int :=
  if depth ≤ 0 then otherwise else depth

def Settings.completed (settings : Settings) : Settings where
  package := orDefault settings.package "fsm"
  tables := orDefault settings.tables "fsm"
  type := orDefault settings.type "Machine"
  driver := settings.driver
  stackDepth := depthOrDefault settings.stackDepth defaultCallLimit
  alternateDepth := depthOrDefault settings.alternateDepth defaultAlternateLimit

structure Model where
  encoding : Encoding
  settings : Settings

namespace Model

def named (model : Model) (name : String) : String :=
  model.settings.tables ++ "_" ++ name

def entry (model : Model) (column : Column) (index : Expression) : Expression :=
  .element (.name (model.named column.name)) index

def integer (model : Model) (column : Column) (index : Expression) : Expression :=
  call "int" [model.entry column index]

def keyType (model : Model) : String :=
  model.encoding.alphabet.host.name

def keyNumber (model : Model) (key : Key) : Expression :=
  .number (model.encoding.alphabet.value key)

def inError (model : Model) : Expression :=
  equal currentState (.name (model.named "error"))

def ifError (model : Model) (statements : List Statement) : List Statement :=
  if model.encoding.error.isSome then statements else []

def ifAlternates (model : Model) (statements : List Statement) : List Statement :=
  if model.encoding.hasAlternates then statements else []

def ifEof (model : Model) (statements : List Statement) : List Statement :=
  if model.encoding.hasEof then statements else []

def function (model : Model) (name parameters : String) (result : Option String)
    (body : List Statement) : Documented :=
  ⟨[], .function model.settings.type name parameters result (.ofList body)⟩

def documented (model : Model) (comments : List String) (name parameters : String)
    (result : Option String) (body : List Statement) : Documented :=
  ⟨comments, .function model.settings.type name parameters result (.ofList body)⟩

def dataParameters (model : Model) : String :=
  "data []" ++ model.keyType ++ ", p *int"

def conditionNames (model : Model) : List String :=
  (model.encoding.spaces.toList.flatMap ConditionSpace.conditions).eraseDups

end Model

end StateTables.Source
