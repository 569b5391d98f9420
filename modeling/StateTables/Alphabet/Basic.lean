import StateTables.IntegerType

/-! # Alphabets

An alphabet is the domain of input keys a machine reads. It is bounded by an
integer type, which fixes the order of its keys, and may be narrowed to an
interval. Keys are carried as 64-bit patterns; all arithmetic is done on the
patterns and honours the signedness of the type.
-/

namespace StateTables

/-- An input symbol: signed types are sign-extended to 64 bits, unsigned types
zero-extended. -/
structure Key where
  pattern : Int64
deriving DecidableEq, Repr

namespace Key

/-- The key whose pattern is a number modulo 2^64. -/
def ofInt (number : Int) : Key :=
  ⟨Int64.ofInt number⟩

def signedValue (key : Key) : Int :=
  key.pattern.toInt

def unsignedValue (key : Key) : Nat :=
  key.pattern.toUInt64.toNat

def successor (key : Key) : Key :=
  ⟨key.pattern + 1⟩

def predecessor (key : Key) : Key :=
  ⟨key.pattern - 1⟩

def distance (low key : Key) : UInt64 :=
  key.pattern.toUInt64 - low.pattern.toUInt64

end Key

/-- The keys of an integer type between two bounds. -/
structure Alphabet where
  host : IntegerType
  low : Key
  high : Key
  narrowed : Bool
deriving DecidableEq, Repr

namespace Alphabet

def full (host : IntegerType) : Alphabet where
  host := host
  low := .ofInt host.least
  high := .ofInt host.greatest
  narrowed := false

def value (alphabet : Alphabet) (key : Key) : Int :=
  alphabet.host.value key.pattern

/-- Order of keys, by signed or by unsigned comparison of the patterns. -/
def compare (alphabet : Alphabet) (left right : Key) : Ordering :=
  if alphabet.host.signed then Ord.compare left.pattern right.pattern
  else Ord.compare left.pattern.toUInt64 right.pattern.toUInt64

def below (alphabet : Alphabet) (left right : Key) : Bool :=
  alphabet.compare left right == .lt

def above (alphabet : Alphabet) (left right : Key) : Bool :=
  alphabet.compare left right == .gt

def atMost (alphabet : Alphabet) (left right : Key) : Bool :=
  !alphabet.above left right

def atLeast (alphabet : Alphabet) (left right : Key) : Bool :=
  !alphabet.below left right

def contains (alphabet : Alphabet) (key : Key) : Bool :=
  alphabet.atLeast key alphabet.low && alphabet.atMost key alphabet.high

/-- The number of keys from one key up to another one, both included. The one
number that does not fit, all 2^64 keys, is cut down to 2^64 - 1. -/
def span (alphabet : Alphabet) (low high : Key) : UInt64 :=
  if alphabet.below high low then 0
  else
    let distance := low.distance high
    if distance = 0xffffffffffffffff then distance else distance + 1

def decimal (alphabet : Alphabet) (key : Key) : String :=
  alphabet.host.decimal key.pattern

end Alphabet

end StateTables
