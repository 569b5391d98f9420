/-! # Nearest binary numbers

The binary number of 53 digits that is nearest to a fraction. Of two that are
equally near, the one with an even last digit is taken. Numbers below the least
normal one have fewer digits, and there is none at or above 2 to the power 1024.
-/

namespace StateTables.Decimal

/-- The whole number nearest to a fraction, the even one of two. -/
def roundDivision (numerator denominator : Nat) : Nat :=
  let quotient := numerator / denominator
  let twice := 2 * (numerator % denominator)
  if twice < denominator || (twice = denominator && quotient % 2 = 0) then quotient
  else quotient + 1

/-- A number of binary digits times a power of two. -/
structure Binary where
  mantissa : Nat
  exponent : Int
deriving DecidableEq, Repr

namespace Binary

def precision : Nat := 53

def leastExponent : Int := -1074

def limitExponent : Nat := 1024

def scales (exponent : Int) : Nat × Nat :=
  if exponent < 0 then (Nat.pow 2 (-exponent).toNat, 1) else (1, Nat.pow 2 exponent.toNat)

def roundScaled (numerator denominator : Nat) (exponent : Int) : Nat :=
  let (up, down) := scales exponent
  roundDivision (numerator * up) (denominator * down)

def isWide (numerator denominator : Nat) (exponent : Int) : Bool :=
  let (up, down) := scales exponent
  Nat.pow 2 precision * (denominator * down) ≤ numerator * up

def nearest (numerator denominator : Nat) : Binary :=
  if numerator = 0 then ⟨0, 0⟩
  else
    let guess : Int := (numerator.log2 : Int) - denominator.log2 - precision
    let exponent := if isWide numerator denominator guess then guess + 1 else guess
    let exponent := max leastExponent exponent
    ⟨roundScaled numerator denominator exponent, exponent⟩

def whole (number : Binary) : Nat :=
  if number.exponent < 0 then number.mantissa / Nat.pow 2 (-number.exponent).toNat
  else number.mantissa * Nat.pow 2 number.exponent.toNat

def overflows (number : Binary) : Bool :=
  Nat.pow 2 limitExponent ≤ number.whole

end Binary

/-- A power of ten beyond which every number is too large, and below which every
number is nearest to zero. -/
def reach : Nat := 400

def nearest? (digits : List Nat) (exponent : Int) : Option Binary :=
  let significant := digits.dropWhile (· = 0)
  let size : Int := significant.length + exponent
  if significant.isEmpty || size < -(reach : Int) then some ⟨0, 0⟩
  else if (reach : Int) < size then none
  else
    let mantissa := significant.foldl (fun number digit => 10 * number + digit) 0
    let number := if exponent < 0 then Binary.nearest mantissa (Nat.pow 10 (-exponent).toNat)
      else Binary.nearest (mantissa * Nat.pow 10 exponent.toNat) 1
    if number.overflows then none else some number

end StateTables.Decimal
