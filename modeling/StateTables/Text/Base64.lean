/-! # Bytes written with 64 letters

Three bytes are written as four letters of six bits each. At the end, two or three
letters and equals signs up to four stand for one or two bytes. Line breaks do
not count.
-/

namespace StateTables.Text.Base64

def value? (letter : Char) : Option Nat :=
  if 'A' ≤ letter && letter ≤ 'Z' then some (letter.toNat - 'A'.toNat)
  else if 'a' ≤ letter && letter ≤ 'z' then some (letter.toNat - 'a'.toNat + 26)
  else if letter.isDigit then some (letter.toNat - '0'.toNat + 52)
  else if letter = '+' then some 62
  else if letter = '/' then some 63
  else none

def decodeLetters : List Char → Option (List UInt8)
  | [] => some []
  | [first, second, '=', '='] => do
    return [.ofNat (4 * (← value? first) + (← value? second) / 16)]
  | [first, second, third, '='] => do
    let (first, second, third) := (← value? first, ← value? second, ← value? third)
    return [.ofNat (4 * first + second / 16), .ofNat (16 * second + third / 4)]
  | first :: second :: third :: fourth :: rest => do
    let (first, second) := (← value? first, ← value? second)
    let (third, fourth) := (← value? third, ← value? fourth)
    let bytes ← decodeLetters rest
    return .ofNat (4 * first + second / 16) :: .ofNat (16 * second + third / 4) ::
      .ofNat (64 * third + fourth) :: bytes
  | _ => none

def decode? (text : String) : Option (List UInt8) :=
  decodeLetters (text.toList.filter fun letter => letter != '\n' && letter != '\r')

end StateTables.Text.Base64
