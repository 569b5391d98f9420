/-! # Integer literals

Unsigned 64-bit literals are read digit by digit from the left, so a literal
that exceeds 64 bits is too large as soon as the excess shows, whatever follows.
The marks `0x`, `0o` and `0b` and a leading zero select the base. Underscores may
separate digits, and one may follow the base mark.
-/

namespace StateTables.Literal

inductive IntegerError where
  | malformed
  | tooLarge
deriving DecidableEq, Repr

namespace Integer

/-- The largest unsigned 64-bit number. -/
def limit : Nat :=
  Nat.pow 2 64 - 1

/-- The value of a digit or letter, letters counting from ten in either case. -/
def digitValue? (character : Char) : Option Nat :=
  if character.isDigit then some (character.toNat - '0'.toNat)
  else if character.isAlpha then some (character.toLower.toNat - 'a'.toNat + 10)
  else none

/-- Read the digits that follow a number read so far. Underscores are passed
over if they are permitted at all. -/
def accumulate (base : Nat) (underscores : Bool) (number : Nat) :
    List Char → Except IntegerError Nat
  | [] => .ok number
  | '_' :: rest =>
    if underscores then accumulate base underscores number rest else .error .malformed
  | character :: rest =>
    match digitValue? character with
    | none => .error .malformed
    | some digit =>
      if base ≤ digit then .error .malformed
      else if limit < number * base + digit then .error .tooLarge
      else accumulate base underscores (number * base + digit) rest

/-- The base a literal announces, and the digits behind the announcement. -/
def announcedBase : List Char → Nat × List Char
  | '0' :: mark :: digit :: rest =>
    match mark.toLower with
    | 'b' => (2, digit :: rest)
    | 'o' => (8, digit :: rest)
    | 'x' => (16, digit :: rest)
    | _ => (8, mark :: digit :: rest)
  | '0' :: rest => (8, rest)
  | digits => (10, digits)

inductive Before where
  | nothing
  | digit
  | underscore
  | other
deriving DecidableEq

/-- Does every underscore stand between two digits? -/
def separated (hexadecimal : Bool) (before : Before) : List Char → Bool
  | [] => before != .underscore
  | character :: rest =>
    if character.isDigit ||
        (hexadecimal && 'a' ≤ character.toLower && character.toLower ≤ 'f') then
      separated hexadecimal .digit rest
    else if character == '_' then
      before == .digit && separated hexadecimal .underscore rest
    else
      before != .underscore && separated hexadecimal .other rest

/-- Are the underscores of a literal well placed? A base mark counts as a
digit. -/
def underscoresPlaced (characters : List Char) : Bool :=
  let unsigned := match characters with
    | '-' :: rest => rest
    | '+' :: rest => rest
    | _ => characters
  match unsigned with
  | '0' :: mark :: rest =>
    if mark.toLower ∈ ['b', 'o', 'x'] then separated (mark.toLower == 'x') .digit rest
    else separated false .nothing unsigned
  | _ => separated false .nothing unsigned

def readUnsigned (characters : List Char) : Except IntegerError Nat :=
  match characters with
  | [] => .error .malformed
  | _ =>
    let (base, digits) := announcedBase characters
    match accumulate base true 0 digits with
    | .error problem => .error problem
    | .ok number =>
      if digits.contains '_' && !underscoresPlaced characters then .error .malformed
      else .ok number

def readUnsignedDecimal (characters : List Char) : Except IntegerError Nat :=
  match characters with
  | [] => .error .malformed
  | _ => accumulate 10 false 0 characters

/-- Give a magnitude its sign, if the result is a signed 64-bit number. -/
def applySign (negative : Bool) (magnitude : Except IntegerError Nat) :
    Except IntegerError Int :=
  match magnitude with
  | .error problem => .error problem
  | .ok number =>
    if negative then if Nat.pow 2 63 < number then .error .tooLarge else .ok (-number)
    else if Nat.pow 2 63 ≤ number then .error .tooLarge else .ok number

def readSigned (reader : List Char → Except IntegerError Nat) (characters : List Char) :
    Except IntegerError Int :=
  match characters with
  | '-' :: rest => applySign true (reader rest)
  | '+' :: rest => applySign false (reader rest)
  | _ => applySign false (reader characters)

end Integer

end StateTables.Literal
