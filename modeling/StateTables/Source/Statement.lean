import StateTables.Source.Expression

/-! # Statements of generated source

Statements, and the lines they are written as, which are not laid out yet.
-/

namespace StateTables.Source

inductive AssignOperator where
  | assign
  | define
  | increase
  | combine
deriving DecidableEq, Repr

def AssignOperator.text : AssignOperator → String
  | .assign => "="
  | .define => ":="
  | .increase => "+="
  | .combine => "|="

structure Guard where
  definition : Option (String × Expression)
  condition : Expression
deriving DecidableEq, Repr

inductive LoopHeader where
  | forever
  | whileHolds (condition : Expression)
  /-- Count a variable up from a first value. -/
  | count (counter : String) (first : Expression) (condition : Expression)
deriving DecidableEq, Repr

mutual

inductive Statement where
  | evaluate (expression : Expression)
  | assign (left : Expressions) (operator : AssignOperator) (right : Expressions)
  | increment (place : Expression)
  | decrement (place : Expression)
  | result (values : Expressions)
  | branch (guard : Guard) (body : Block) (otherwise : Otherwise)
  | loop (header : LoopHeader) (body : Block)
  | switch (subject : Option Expression) (cases : Cases)
  | label (name : String)
  | jump (label : String)
  | continueAt (label : String)
  | declare (name type : String)
  | comment (text : String)
  /-- Host code as it stands. -/
  | host (code : String)

inductive Otherwise where
  | nothing
  | block (body : Block)
  | branch (guard : Guard) (body : Block) (otherwise : Otherwise)

inductive Block where
  | nil
  | cons (head : Statement) (tail : Block)

/-- The cases of a switch; one without a label is taken if no other is. -/
inductive Cases where
  | nil
  | cons (label : Option Expression) (body : Block) (tail : Cases)

end

deriving instance DecidableEq for Statement
deriving instance DecidableEq for Otherwise
deriving instance DecidableEq for Block
deriving instance DecidableEq for Cases
deriving instance Repr for Statement
deriving instance Repr for Otherwise
deriving instance Repr for Block
deriving instance Repr for Cases

namespace Block

def ofList : List Statement → Block
  | [] => .nil
  | head :: tail => .cons head (ofList tail)

end Block

namespace Cases

def ofList : List (Option Expression × List Statement) → Cases
  | [] => .nil
  | (label, body) :: tail => .cons label (.ofList body) (ofList tail)

end Cases

def braced (header : String) (lines : List String) : List String :=
  if lines.isEmpty then [header ++ " \x7b\x7d"] else (header ++ " \x7b") :: lines ++ ["\x7d"]

/-- A comment as it is written: behind a mark, or between marks if it has several
lines. A comment that brings its own mark stays as it is. -/
def commentText (text : String) : String :=
  if text.startsWith "//" || text.startsWith "/*" then text
  else if text.contains '\n' then
    "/*\n" ++ text ++ (if text.endsWith "\n" then "*/" else "\n*/")
  else "// " ++ text

def Guard.text (guard : Guard) : String :=
  match guard.definition with
  | some (name, value) => name ++ " := " ++ value.text ++ "; " ++ guard.condition.text
  | none => guard.condition.text

def LoopHeader.text : LoopHeader → String
  | .forever => "for"
  | .whileHolds condition => "for " ++ condition.text
  | .count counter first condition =>
    "for " ++ counter ++ " := " ++ first.text ++ "; " ++ condition.text ++ "; " ++
      counter ++ "++"

mutual

def Statement.lines : Statement → List String
  | .evaluate expression => [expression.text]
  | .assign left operator right => [left.text ++ " " ++ operator.text ++ " " ++ right.text]
  | .increment place => [place.text ++ "++"]
  | .decrement place => [place.text ++ "--"]
  | .result values => ["return " ++ values.text]
  | .branch guard body otherwise => otherwise.lines (braced ("if " ++ guard.text) body.lines)
  | .loop header body => braced header.text body.lines
  | .switch (some subject) cases => braced ("switch " ++ subject.text) cases.lines
  | .switch none cases => braced "switch" cases.lines
  | .label name => [name ++ ":"]
  | .jump label => ["goto " ++ label]
  | .continueAt label => ["continue " ++ label]
  | .declare name type => ["var " ++ name ++ " " ++ type]
  | .comment text => [commentText text]
  | .host code => [code]

def Otherwise.lines (before : List String) : Otherwise → List String
  | .nothing => before
  | .block body => before.dropLast ++ braced (before.getLastD "" ++ " else") body.lines
  | .branch guard body otherwise =>
    otherwise.lines (before.dropLast ++
      braced (before.getLastD "" ++ " else if " ++ guard.text) body.lines)

def Block.lines : Block → List String
  | .nil => []
  | .cons head tail => head.lines ++ tail.lines

def Cases.lines : Cases → List String
  | .nil => []
  | .cons label body tail =>
    let header := match label with
      | some label => "case " ++ label.text ++ ":"
      | none => "default:"
    header :: body.lines ++ tail.lines

end

end StateTables.Source
