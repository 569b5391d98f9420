import StateTables.Format.Token

/-! # Trees of source text

What source text is made of: terms, which are expressions and types, statements
and declarations. Trees keep the places that the layout of a text depends on.
-/

namespace StateTables.Format

inductive Direction where
  | send
  | receive
  | any
deriving DecidableEq, Repr

mutual

/-- An expression or a type, where it starts, and the line it ends on. -/
inductive Term where
  | mk (start : Place) (stopLine : Nat) (form : TermForm)

inductive TermForm where
  | name (text : String)
  | literal (kind : LiteralKind) (text : String)
  | function (signature : Signature) (body : Block)
  /-- A value of a type, made of elements. -/
  | composite (type : Option Term) (opening : Place) (elements : List Term) (closing : Place)
  | paren (inner : Term) (closing : Place)
  | selector (record : Term) (field : Term)
  /-- An element of an array, or a type that arguments are given to. -/
  | index (array : Term) (opening : Place) (indices : List Term) (closing : Place)
  | slice (array : Term) (opening : Place) (low high limit : Option Term) (closing : Place)
  | assertion (value : Term) (opening : Place) (type : Option Term) (closing : Place)
  | call (function : Term) (opening : Place) (arguments : List Term)
      (ellipsis : Option Place) (closing : Place)
  | star (operand : Term)
  | unary (operator : Symbol) (operand : Term)
  | binary (left : Term) (operator : Symbol) (place : Place) (right : Term)
  /-- A key and its value. -/
  | pair (key : Term) (colon : Place) (value : Term)
  | ellipsis (element : Option Term)
  | arrayType (length : Option Term) (element : Term)
  | structType (fields : Fields)
  | functionType (signature : Signature)
  | interfaceType (methods : Fields)
  | mapType (key value : Term)
  | channelType (direction : Direction) (arrow : Place) (value : Term)

inductive Signature where
  | mk (typeParameters : Option Fields) (parameters : Fields) (results : Option Fields)

inductive Fields where
  | mk (opening : Place) (fields : List Field) (closing : Place)

/-- Names of one type. A comment may follow on the same line. -/
inductive Field where
  | mk (names : List Term) (type : Term) (tag : Option Term) (hasComment : Bool)

inductive Block where
  | mk (opening : Place) (statements : List Statement) (closing : Place)

inductive Statement where
  | mk (start : Place) (form : StatementForm)

inductive StatementForm where
  | declaration (declaration : Declaration)
  | empty
  | labeled (label : Term) (colon : Place) (statement : Statement)
  | evaluate (term : Term)
  | send (channel : Term) (arrow : Place) (value : Term)
  /-- Count a variable up or down. -/
  | count (operand : Term) (place : Place) (operator : Symbol)
  | assign (left : List Term) (place : Place) (operator : Symbol) (right : List Term)
  /-- Run a call later or beside the others. -/
  | launch (keyword : Keyword) (call : Term)
  | result (values : List Term)
  | jump (keyword : Keyword) (label : Option Term)
  | block (block : Block)
  | branch (initial : Option Statement) (condition : Term) (body : Block)
      (otherwise : Option Statement)
  /-- A case of a switch; without terms it is taken if no other is. -/
  | caseClause (terms : Option (List Term)) (colon : Place) (body : List Statement)
  | switch (initial : Option Statement) (subject : Option Term) (body : Block)
  | typeSwitch (initial : Option Statement) (guard : Statement) (body : Block)
  /-- A case of a selection. -/
  | channelClause (operation : Option Statement) (colon : Place) (body : List Statement)
  | select (body : Block)
  | loop (initial : Option Statement) (condition : Option Term) (after : Option Statement)
      (body : Block)
  | rangeLoop (key value : Option Term) (place : Place) (operator : Symbol) (subject : Term)
      (body : Block)

inductive Declaration where
  /-- Declarations of one kind, perhaps between parentheses. -/
  | group (start : Place) (hasComment : Bool) (keyword : Keyword)
      (opening : Option Place) (specifications : List Specification) (closing : Place)
      (stopLine : Nat)
  | function (start : Place) (hasComment : Bool) (receiver : Option Fields) (name : Term)
      (signature : Signature) (body : Option Block) (stopLine : Nat)

inductive Specification where
  | imported (name : Option Term) (path : Term)
  | values (names : List Term) (type : Option Term) (values : List Term) (hasComment : Bool)
  | type (name : Term) (parameters : Option Fields) (isAlias : Bool) (type : Term)

end

instance : Inhabited Term := ⟨.mk .unknown 0 (.name "_")⟩
instance : Inhabited Statement := ⟨.mk .unknown .empty⟩

namespace Term

def start : Term → Place
  | .mk start _ _ => start

def stopLine : Term → Nat
  | .mk _ stopLine _ => stopLine

def form : Term → TermForm
  | .mk _ _ form => form

def isName (term : Term) : Bool :=
  match term.form with
  | .name _ => true
  | _ => false

def withoutParens : Term → Term
  | .mk _ _ (.paren inner _) => inner.withoutParens
  | term => term

def isTypeElement : Term → Bool
  | .mk _ _ form =>
    match form with
    | .arrayType _ _ | .structType _ | .functionType _ | .interfaceType _ | .mapType _ _
    | .channelType _ _ _ => true
    | .unary operator _ => operator = .tilde
    | .binary left _ _ right => left.isTypeElement || right.isTypeElement
    | .paren inner _ => inner.isTypeElement
    | _ => false

end Term

namespace Fields

def opening : Fields → Place
  | .mk opening _ _ => opening

def fields : Fields → List Field
  | .mk _ fields _ => fields

def closing : Fields → Place
  | .mk _ _ closing => closing

end Fields

namespace Field

def names : Field → List Term
  | .mk names _ _ _ => names

def type : Field → Term
  | .mk _ type _ _ => type

def tag : Field → Option Term
  | .mk _ _ tag _ => tag

def hasComment : Field → Bool
  | .mk _ _ _ hasComment => hasComment

def start (field : Field) : Place :=
  match field.names with
  | name :: _ => name.start
  | [] => field.type.start

end Field

def Fields.count (fields : Fields) : Nat :=
  fields.fields.foldl (fun count field => count + max 1 field.names.length) 0

namespace Block

def opening : Block → Place
  | .mk opening _ _ => opening

def statements : Block → List Statement
  | .mk _ statements _ => statements

def closing : Block → Place
  | .mk _ _ closing => closing

end Block

namespace Statement

def start : Statement → Place
  | .mk start _ => start

def form : Statement → StatementForm
  | .mk _ form => form

def labels : Statement → Nat
  | .mk _ (.labeled _ _ statement) => statement.labels + 1
  | _ => 0

def isEmpty (statement : Statement) : Bool :=
  match statement.form with
  | .empty => true
  | _ => false

end Statement

namespace Declaration

def start : Declaration → Place
  | .group start .. => start
  | .function start .. => start

def hasComment : Declaration → Bool
  | .group _ hasComment .. => hasComment
  | .function _ hasComment .. => hasComment

def keyword : Declaration → Keyword
  | .group _ _ keyword .. => keyword
  | .function .. => .func

def stopLine : Declaration → Nat
  | .group _ _ _ _ _ _ stopLine => stopLine
  | .function _ _ _ _ _ _ stopLine => stopLine

end Declaration

def Specification.start : Specification → Place
  | .imported (some name) _ => name.start
  | .imported none path => path.start
  | .values names _ _ _ => (names.head?.map Term.start).getD .unknown
  | .type name _ _ _ => name.start

structure File where
  /-- The place of the package clause. -/
  start : Place
  name : Term
  declarations : List Declaration

end StateTables.Format
