import StateTables.Text.Printable
import StateTables.Text.Utf8

/-! # Quoted text

Text between double quotes, with escapes for the quote, the backslash and every
character that is not printable.
-/

namespace StateTables.Text.Quoted

/-- Hexadecimal digits of a number, in lower case, filled up with zeros. -/
def hexadecimal (width value : Nat) : List Char :=
  let digits := Nat.toDigits 16 value
  List.replicate (width - digits.length) '0' ++ digits

def escape (character : Char) : List Char :=
  let code := character.toNat
  if character = '"' || character = '\\' then ['\\', character]
  else if isPrintable character then [character]
  else match code with
    | 0x07 => ['\\', 'a']
    | 0x08 => ['\\', 'b']
    | 0x0c => ['\\', 'f']
    | 0x0a => ['\\', 'n']
    | 0x0d => ['\\', 'r']
    | 0x09 => ['\\', 't']
    | 0x0b => ['\\', 'v']
    | _ =>
      if code < 0x80 then '\\' :: 'x' :: hexadecimal 2 code
      else if code < 0x10000 then '\\' :: 'u' :: hexadecimal 4 code
      else '\\' :: 'U' :: hexadecimal 8 code

def escapePiece : Piece → List Char
  | .character character => escape character
  | .stray byte => '\\' :: 'x' :: hexadecimal 2 byte.toNat

def text (content : String) : String :=
  String.ofList ('"' :: content.toList.flatMap escape ++ ['"'])

def character (content : Char) : String :=
  let escaped := if content = '\'' then ['\\', '\''] else if content = '"' then ['"']
    else escape content
  String.ofList ('\'' :: escaped ++ ['\''])

def bytes (content : List UInt8) : String :=
  String.ofList ('"' :: (Utf8.pieces content).flatMap escapePiece ++ ['"'])

end StateTables.Text.Quoted
