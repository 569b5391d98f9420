import StateTables.Source.Statement
import StateTables.Table.Literal

/-! # Source files

A source file is a package clause and declarations. Its text is not laid out yet.
-/

namespace StateTables.Source

inductive Declaration where
  /-- Constants, in a group. -/
  | constants (values : List (String × Int))
  | table (name : String) (column : Column)
  | texts (name : String) (contents : List String)
  /-- A record type, given by the lines of its fields. -/
  | recordType (name : String) (fields : List String)
  | function (receiver name parameters : String) (result : Option String) (body : Block)
deriving DecidableEq, Repr

namespace Declaration

def lines : Declaration → List String
  | .constants values =>
    "const (" :: values.map (fun (name, value) => name ++ " = " ++ toString value) ++ [")"]
  | .table name column => ["var " ++ name ++ " = " ++ column.literal]
  | .texts name contents =>
    let literals := ", ".intercalate (contents.map Text.Quoted.text)
    ["var " ++ name ++ " = [...]string\x7b" ++ literals ++ "\x7d"]
  | .recordType name fields => braced ("type " ++ name ++ " struct") fields
  | .function receiver name parameters result body =>
    let header := "func (m *" ++ receiver ++ ") " ++ name ++ "(" ++ parameters ++ ")"
    braced (header ++ ((result.map (" " ++ ·)).getD "")) body.lines

end Declaration

structure Documented where
  comments : List String
  declaration : Declaration
deriving DecidableEq, Repr

def Documented.lines (documented : Documented) : List String :=
  documented.comments.map commentText ++ documented.declaration.lines

def fileText (package : String) (declarations : List Documented) : String :=
  let lines := ["// Code generated by gorgel. DO NOT EDIT.", "", "package " ++ package, "", ""] ++
    declarations.flatMap Documented.lines
  "\n".intercalate lines

end StateTables.Source
