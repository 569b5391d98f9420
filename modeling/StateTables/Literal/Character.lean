/-! # Character literals

What stands between single quotes: a character, or an escape introduced by a
backslash. Escapes are single letters, three octal digits, two hexadecimal
digits after `x`, four after `u` and eight after `U`; the latter two name code
points and exclude surrogates.
-/

namespace StateTables.Literal.Character

def hexadecimalValue? (character : Char) : Option Nat :=
  if character.isDigit then some (character.toNat - '0'.toNat)
  else if 'a' ≤ character && character ≤ 'f' then some (character.toNat - 'a'.toNat + 10)
  else if 'A' ≤ character && character ≤ 'F' then some (character.toNat - 'A'.toNat + 10)
  else none

def octalValue? (character : Char) : Option Nat :=
  if '0' ≤ character && character ≤ '7' then some (character.toNat - '0'.toNat) else none

def readDigits (base : Nat) (digit? : Char → Option Nat) :
    (count value : Nat) → List Char → Option (Nat × List Char)
  | 0, value, rest => some (value, rest)
  | count + 1, value, character :: rest =>
    match digit? character with
    | some digit => readDigits base digit? count (value * base + digit) rest
    | none => none
  | _ + 1, _, [] => none

/-- Read an escape whose backslash has been read. -/
def readEscape : List Char → Option (Nat × List Char)
  | [] => none
  | letter :: rest =>
    match letter with
    | 'a' => some (0x07, rest)
    | 'b' => some (0x08, rest)
    | 'f' => some (0x0c, rest)
    | 'n' => some (0x0a, rest)
    | 'r' => some (0x0d, rest)
    | 't' => some (0x09, rest)
    | 'v' => some (0x0b, rest)
    | '\\' => some (0x5c, rest)
    | '\'' => some (0x27, rest)
    | 'x' => readDigits 16 hexadecimalValue? 2 0 rest
    | 'u' => (readDigits 16 hexadecimalValue? 4 0 rest).filter (·.1.isValidChar)
    | 'U' => (readDigits 16 hexadecimalValue? 8 0 rest).filter (·.1.isValidChar)
    | _ =>
      if (octalValue? letter).isSome then
        (readDigits 8 octalValue? 3 0 (letter :: rest)).filter (·.1 ≤ 255)
      else none

def readOne : List Char → Option (Nat × List Char)
  | [] => none
  | '\'' :: _ => none
  | '\\' :: rest => readEscape rest
  | character :: rest => some (character.toNat, rest)

def code? (characters : List Char) : Option Nat :=
  match readOne characters with
  | some (code, []) => some code
  | _ => none

end StateTables.Literal.Character
