/-! # Fixed-width integer types

The eight two's-complement integer types an alphabet may be declared over and a
table column may be stored in. A type is its signedness and its width. Every
one of them can be carried in a 64-bit pattern: signed types sign-extended,
unsigned types zero-extended.
-/

namespace StateTables

inductive Width where
  | one
  | two
  | four
  | eight
deriving DecidableEq, Repr

namespace Width

def bytes : Width → Nat
  | .one => 1
  | .two => 2
  | .four => 4
  | .eight => 8

def bits (width : Width) : Nat :=
  8 * width.bytes

def all : List Width :=
  [.one, .two, .four, .eight]

end Width

structure IntegerType where
  signed : Bool
  width : Width
deriving DecidableEq, Repr

namespace IntegerType

/-- All types, ordered by width, the signed one first. -/
def all : List IntegerType :=
  Width.all.flatMap fun width => [⟨true, width⟩, ⟨false, width⟩]

def name (type : IntegerType) : String :=
  (if type.signed then "int" else "uint") ++ toString type.width.bits

/-- The names an alphabet may be declared with; the first one is canonical. -/
def declaredNames : IntegerType → List String
  | ⟨true, .one⟩ => ["char", "int8"]
  | ⟨false, .one⟩ => ["byte", "unsigned char", "uint8"]
  | ⟨true, .two⟩ => ["short", "int16"]
  | ⟨false, .two⟩ => ["unsigned short", "uint16"]
  | ⟨true, .four⟩ => ["int", "int32", "rune"]
  | ⟨false, .four⟩ => ["unsigned int", "uint32"]
  | ⟨true, .eight⟩ => ["long", "int64"]
  | ⟨false, .eight⟩ => ["unsigned long", "uint64"]

def declaredName (type : IntegerType) : String :=
  type.declaredNames.headD type.name

def named? (name : String) : Option IntegerType :=
  all.find? fun type => type.name == name

def declared? (name : String) : Option IntegerType :=
  all.find? fun type => type.declaredNames.contains name

def least (type : IntegerType) : Int :=
  if type.signed then -(Nat.pow 2 (type.width.bits - 1) : Nat) else 0

def greatest (type : IntegerType) : Int :=
  let bits := if type.signed then type.width.bits - 1 else type.width.bits
  (Nat.pow 2 bits : Nat) - 1

/-- Can the type hold a 64-bit pattern? A 64-bit type holds every pattern, the
unsigned one by reading it without a sign. -/
def holds (type : IntegerType) (pattern : Int64) : Bool :=
  type.width == .eight ||
    (decide (type.least ≤ pattern.toInt) && decide (pattern.toInt ≤ type.greatest))

def covers (type : IntegerType) (low high : Int64) : Bool :=
  type.holds low && type.holds high

/-- The narrowest type covering an interval. Unsigned types are preferred
unless the interval starts below zero or a signed type is asked for. -/
def select (low high : Int64) (signed : Bool) : IntegerType :=
  let family := Width.all.map fun width => ⟨signed || decide (low < 0), width⟩
  (family.find? fun type => type.covers low high).getD ⟨true, .eight⟩

def value (type : IntegerType) (pattern : Int64) : Int :=
  if type.signed then pattern.toInt else pattern.toUInt64.toNat

def decimal (type : IntegerType) (pattern : Int64) : String :=
  toString (type.value pattern)

end IntegerType

end StateTables
