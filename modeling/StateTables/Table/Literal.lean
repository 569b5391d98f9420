import StateTables.Literal.Integer
import StateTables.Table.Column
import StateTables.Text.Blank
import StateTables.Text.Quoted

/-! # Array literals

A column is written as an array literal: its type, then ten values per line. A
zero is added at the end, which carries no meaning and is dropped on reading.
-/

namespace StateTables.Column

def valuesPerLine : Nat := 10

def literalValues (type : IntegerType) (index : Nat) : List Int64 → List Char
  | [] => []
  | value :: rest =>
    (if index % valuesPerLine = 0 then ['\n', '\t'] else [' ']) ++
      (type.decimal value).toList ++ ',' :: literalValues type (index + 1) rest

def literal (column : Column) : String :=
  String.ofList <| "[...]".toList ++ column.type.name.toList ++ '\x7b' ::
    literalValues column.type 0 (column.values.toList ++ [0]) ++ ['\n', '\x7d']

inductive LiteralError where
  | unframed
  | unknownType (name : String)
  | malformedValue (type : IntegerType) (field : String)
  | noSentinel (type : IntegerType)
deriving DecidableEq, Repr

namespace LiteralError

def failure : LiteralError → Failure
  | .unframed => ⟨[.tableLiteral], Reason.sentence .tableLiteral⟩
  | .unknownType name =>
    .because .tableLiteral ("unknown element type " ++ Text.Quoted.text name)
  | .malformedValue _ field => .because .tableLiteral (Text.Quoted.text field)
  | .noSentinel _ => .because .tableLiteral "missing sentinel"

def type? : LiteralError → Option IntegerType
  | .unframed => none
  | .unknownType _ => none
  | .malformedValue type _ => some type
  | .noSentinel type => some type

end LiteralError

def readValue (type : IntegerType) (field : List Char) : Except LiteralError Int64 :=
  let number := if type.signed then
      Literal.Integer.readSigned Literal.Integer.readUnsignedDecimal field
    else (Literal.Integer.readUnsignedDecimal field).map Int.ofNat
  match number with
  | .ok number => .ok (Int64.ofInt number)
  | .error _ => .error (.malformedValue type (String.ofList field))

/-- Read the values between the braces, the sentinel included. -/
def readValues (type : IntegerType) (body : List Char) : Except LiteralError (List Int64) :=
  let fields := (body.splitOn ',').map Text.trimBlanks
  (fields.filter fun field => !field.isEmpty).mapM (readValue type)

def dropStart? : List Char → List Char → Option (List Char)
  | [], text => some text
  | expected :: start, character :: text =>
    if expected = character then dropStart? start text else none
  | _ :: _, [] => none

def readLiteral (text : String) : Except LiteralError (IntegerType × List Int64) :=
  let trimmed := Text.trimBlanks text.toList
  match dropStart? "[...]".toList trimmed with
  | none => .error .unframed
  | some framed =>
    if trimmed.getLast? != some '\x7d' || !framed.contains '\x7b' then .error .unframed
    else
      let name := framed.takeWhile (· != '\x7b')
      let body := ((framed.dropWhile (· != '\x7b')).drop 1).dropLast
      match IntegerType.named? (String.ofList (Text.trimBlanks name)) with
      | none => .error (.unknownType (String.ofList name))
      | some type =>
        match readValues type body with
        | .error problem => .error problem
        | .ok values =>
          if values.getLast? = some 0 then .ok (type, values.dropLast)
          else .error (.noSentinel type)

end StateTables.Column
