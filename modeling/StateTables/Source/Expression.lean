import StateTables.Text.Quoted

/-! # Expressions of generated source

Expressions and their text, which is not laid out yet.
-/

namespace StateTables.Source

inductive BinaryOperator where
  | either
  | both
  | equal
  | notEqual
  | less
  | atMost
  | greater
  | atLeast
  | plus
  | minus
  | times
  | shiftRight
  | without
deriving DecidableEq, Repr

namespace BinaryOperator

def text : BinaryOperator → String
  | .either => "||"
  | .both => "&&"
  | .equal => "=="
  | .notEqual => "!="
  | .less => "<"
  | .atMost => "<="
  | .greater => ">"
  | .atLeast => ">="
  | .plus => "+"
  | .minus => "-"
  | .times => "*"
  | .shiftRight => ">>"
  | .without => "&^"

end BinaryOperator

inductive UnaryOperator where
  | negation
  | address
  | pointee
deriving DecidableEq, Repr

def UnaryOperator.text : UnaryOperator → String
  | .negation => "!"
  | .address => "&"
  | .pointee => "*"

mutual
inductive Expression where
  | name (text : String)
  | number (value : Int)
  | literal (content : String)
  | field (record : Expression) (name : String)
  | element (array index : Expression)
  /-- All elements before a position. -/
  | before (array stop : Expression)
  | call (function : Expression) (arguments : Expressions)
  | unary (operator : UnaryOperator) (operand : Expression)
  | binary (operator : BinaryOperator) (left right : Expression)
  | paren (inner : Expression)
  /-- A record with its fields in order. -/
  | record (type : String) (fields : Expressions)

inductive Expressions where
  | nil
  | cons (head : Expression) (tail : Expressions)
end

deriving instance DecidableEq for Expression
deriving instance DecidableEq for Expressions
deriving instance Repr for Expression
deriving instance Repr for Expressions

namespace Expressions

def ofList : List Expression → Expressions
  | [] => .nil
  | head :: tail => .cons head (ofList tail)

end Expressions

mutual

def Expression.text : Expression → String
  | .name text => text
  | .number value => toString value
  | .literal content => Text.Quoted.text content
  | .field record name => record.text ++ "." ++ name
  | .element array index => array.text ++ "[" ++ index.text ++ "]"
  | .before array stop => array.text ++ "[:" ++ stop.text ++ "]"
  | .call function arguments => function.text ++ "(" ++ arguments.text ++ ")"
  | .unary operator operand => operator.text ++ operand.text
  | .binary operator left right => left.text ++ " " ++ operator.text ++ " " ++ right.text
  | .paren inner => "(" ++ inner.text ++ ")"
  | .record type fields => type ++ "\x7b" ++ fields.text ++ "\x7d"

def Expressions.text : Expressions → String
  | .nil => ""
  | .cons head .nil => head.text
  | .cons head tail => head.text ++ ", " ++ tail.text

end

end StateTables.Source
