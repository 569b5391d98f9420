import StateTables.Failure
import StateTables.IntegerType

/-! # Table columns

A column is a named sequence of 64-bit values with the integer type it is
stored in. Columns are made in two phases: an analysis of the values decides
the type, and the generation compares a second production of the values with
the first one. A difference is a defect of whoever produced them.
-/

namespace StateTables

structure Column where
  name : String
  type : IntegerType
  values : Array Int64
deriving DecidableEq, Repr

namespace Column

/-- The size of the stored column, which ends in one more value. -/
def storedBytes (column : Column) : Nat :=
  (column.values.size + 1) * column.type.width.bytes

inductive Storage where
  /-- The narrowest type, unsigned if possible. -/
  | narrowest
  /-- The narrowest signed type. -/
  | narrowestSigned
  /-- A given type. -/
  | fixed (type : IntegerType)
deriving DecidableEq, Repr

/-- What the first phase found out. -/
structure Analysis where
  name : String
  values : Array Int64
  least : Int64
  greatest : Int64
  type : IntegerType
deriving DecidableEq, Repr

/-- The smallest of some values, zero if there are none. -/
def leastOf (values : Array Int64) : Int64 :=
  match values.toList with
  | [] => 0
  | first :: rest => rest.foldl (fun least value => if value < least then value else least) first

/-- The largest of some values, zero if there are none. -/
def greatestOf (values : Array Int64) : Int64 :=
  match values.toList with
  | [] => 0
  | first :: rest =>
    rest.foldl (fun greatest value => if greatest < value then value else greatest) first

/-- First phase: record the values and choose the type. -/
def analyze (name : String) (values : Array Int64) (storage : Storage) : Analysis :=
  let least := leastOf values
  let greatest := greatestOf values
  { name, values, least, greatest
    type := match storage with
      | .narrowest => .select least greatest false
      | .narrowestSigned => .select least greatest true
      | .fixed type => type }

/-- How a second production of the values may differ from the first one. -/
inductive Desync where
  | beyond (index count : Nat)
  | different (index : Nat) (generated analyzed : Int64)
  | short (generated analyzed : Nat)
deriving DecidableEq, Repr

/-- The first difference between the analyzed and the generated values, `index`
values having agreed. -/
def firstDifference (analyzedCount index : Nat) : List Int64 → List Int64 → Option Desync
  | [], [] => none
  | [], _ :: _ => some (.beyond index analyzedCount)
  | _ :: _, [] => some (.short index analyzedCount)
  | analyzed :: restAnalyzed, generated :: restGenerated =>
    if analyzed = generated then
      firstDifference analyzedCount (index + 1) restAnalyzed restGenerated
    else some (.different index generated analyzed)

def Desync.failure (name : String) : Desync → Failure
  | .beyond index count => .because .desynchronized
      s!"{name}: value #{index} beyond analyzed count {count}"
  | .different index generated analyzed => .because .desynchronized <|
      s!"{name}: value #{index} is " ++ toString generated.toInt ++ ", analyzed " ++
        toString analyzed.toInt
  | .short generated analyzed => .because .desynchronized
      s!"{name}: generated {generated} values, analyzed {analyzed}"

/-- Second phase: accept the values if they are the analyzed ones. -/
def Analysis.generate (analysis : Analysis) (values : Array Int64) : Except Desync Column :=
  match firstDifference analysis.values.size 0 analysis.values.toList values.toList with
  | none => .ok ⟨analysis.name, analysis.type, values⟩
  | some difference => .error difference

/-- Both phases on one production of the values. -/
def build (name : String) (values : Array Int64) (storage : Storage) : Except Desync Column :=
  (analyze name values storage).generate values

end Column

end StateTables
