import StateTables.Format.Token

/-! # Numerals

Numbers as they are written in source: in one of four bases, with a fraction or an
exponent, and with underscores between digits.
-/

namespace StateTables.Format.Numeral

inductive Radix where
  | decimal
  /-- A zero, and octal digits unless it is no integer. -/
  | zero
  | hexadecimal
  | octal
  | binary
deriving DecidableEq, Repr

def isHexadecimalDigit (character : Char) : Bool :=
  character.isDigit || ('a' ≤ character && character ≤ 'f') ||
    ('A' ≤ character && character ≤ 'F')

namespace Radix

def leading : List Char → Radix × List Char
  | '0' :: mark :: _ =>
    match mark.toLower with
    | 'x' => (.hexadecimal, ['0', mark])
    | 'o' => (.octal, ['0', mark])
    | 'b' => (.binary, ['0', mark])
    | _ => (.zero, ['0'])
  | '0' :: _ => (.zero, ['0'])
  | _ => (.decimal, [])

def digits (radix : Radix) (characters : List Char) : List Char :=
  characters.takeWhile fun character => character = '_' ||
    if radix = .hexadecimal then isHexadecimalDigit character else character.isDigit

def allows (radix : Radix) (digits : List Char) : Bool :=
  match radix with
  | .binary => digits.all fun digit => digit = '_' || digit < '2'
  | .octal | .zero => digits.all fun digit => digit = '_' || digit < '8'
  | _ => true

end Radix

inductive Before where
  | digit
  | separator
  | other
deriving DecidableEq, Repr

def separated (hexadecimal : Bool) : Before → List Char → Bool
  | before, [] => before != .separator
  | before, '_' :: rest => before = .digit && separated hexadecimal .separator rest
  | before, character :: rest =>
    if character.isDigit || (hexadecimal && isHexadecimalDigit character) then
      separated hexadecimal .digit rest
    else before != .separator && separated hexadecimal .other rest

def fraction (radix : Radix) : List Char → List Char
  | '.' :: rest => '.' :: radix.digits rest
  | _ => []

def exponent : List Char → Option (Char × List Char × List Char)
  | mark :: rest =>
    if mark.toLower = 'e' || mark.toLower = 'p' then
      let sign := rest.takeWhile (fun character => character = '+' || character = '-')
      let sign := sign.take 1
      some (mark, sign, Radix.decimal.digits (rest.drop sign.length))
    else none
  | [] => none

def hasDigit (digits : List Char) : Bool :=
  digits.any (· != '_')

def read (characters : List Char) : Option (LiteralKind × List Char) :=
  let (radix, mark) := Radix.leading characters
  let rest := characters.drop mark.length
  let whole := radix.digits rest
  let rest := rest.drop whole.length
  let fraction := fraction radix rest
  let rest := rest.drop fraction.length
  let exponent := exponent rest
  let power := match exponent with
    | some (letter, sign, digits) => letter :: sign ++ digits
    | none => []
  let rest := rest.drop power.length
  let unit := if rest.head? = some 'i' then ['i'] else []
  let text := mark ++ whole ++ fraction ++ power ++ unit
  let isInteger := fraction.isEmpty && exponent.isNone
  let kind := if !unit.isEmpty then LiteralKind.imaginary
    else if isInteger then .integer else .floating
  let hasDigits := radix = .zero || hasDigit whole || hasDigit (fraction.drop 1)
  let fractionAllowed := fraction.isEmpty || (radix != .octal && radix != .binary)
  let exponentAllowed := match exponent with
    | some (letter, _, digits) =>
      hasDigit digits && if letter.toLower = 'e' then radix = .decimal || radix = .zero
        else radix = .hexadecimal
    | none => fraction.isEmpty || radix != .hexadecimal
  let digitsAllowed := kind != .integer || radix.allows whole
  let marked := radix = .hexadecimal || radix = .octal || radix = .binary
  let separatorsAllowed := !text.contains '_' ||
    if marked then separated (radix = .hexadecimal) .digit (text.drop 2)
    else separated false .other text
  if hasDigits && fractionAllowed && exponentAllowed && digitsAllowed && separatorsAllowed then
    some (kind, text)
  else none

/-- Lower one letter of a text: the last one that is the given capital. -/
def lowerLast (capital : Char) (characters : List Char) : List Char :=
  let behind := characters.reverse.takeWhile (· != capital)
  match characters.reverse.drop behind.length with
  | letter :: before => before.reverse ++ letter.toLower :: behind.reverse
  | [] => characters

/-- The canonical form of a numeral: marks of a radix and of an exponent are small
letters, and whole imaginary numbers have no leading zeros. -/
def canonical (text : String) : String :=
  let characters := text.toList
  String.ofList <| match characters with
    | '0' :: 'X' :: rest => '0' :: 'x' :: lowerLast 'P' rest
    | '0' :: 'x' :: rest => '0' :: 'x' :: lowerLast 'P' rest
    | '0' :: 'O' :: rest => '0' :: 'o' :: rest
    | '0' :: 'B' :: rest => '0' :: 'b' :: rest
    | '0' :: 'o' :: _ => decimal characters
    | '0' :: 'b' :: _ => decimal characters
    | _ => decimal characters
where
  decimal (characters : List Char) : List Char :=
    if characters.length < 2 then characters
    else if characters.contains 'E' then lowerLast 'E' characters
    else if characters.getLast? = some 'i' && !characters.contains '.' &&
        !characters.contains 'e' then
      match characters.dropWhile (fun character => character = '0' || character = '_') with
      | ['i'] => ['0', 'i']
      | trimmed => trimmed
    else characters

end StateTables.Format.Numeral
