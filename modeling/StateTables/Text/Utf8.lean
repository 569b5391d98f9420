/-! # Reading UTF-8

A byte sequence falls apart into encoded characters and single bytes that
belong to none. Overlong forms, surrogates and values above the last code point
encode no character.
-/

namespace StateTables.Text

inductive Piece where
  | character (value : Char)
  | stray (byte : UInt8)
deriving DecidableEq

namespace Utf8

def isTail (byte : UInt8) : Bool :=
  0x80 ≤ byte && byte ≤ 0xbf

/-- The character made of the bits of a first byte and of tail bytes, if the
encoding is the shortest one of a character. -/
def assemble (first : Nat) (tails : List UInt8) (least : Nat) : Option Char :=
  let code := tails.foldl (fun code tail => code * 64 + tail.toNat % 64) first
  if tails.all isTail && least ≤ code then
    if valid : code.isValidChar then some (Char.ofNatAux code valid) else none
  else none

/-- The character at the start of a byte sequence, with the number of tail
bytes behind its first byte. -/
def leading (first : UInt8) (rest : List UInt8) : Option (Char × Nat) :=
  if first < 0x80 then some (Char.ofNat first.toNat, 0)
  else match first, rest with
    | _, second :: _ =>
      if 0xc2 ≤ first && first ≤ 0xdf then
        (assemble (first.toNat % 32) [second] 0x80).map (·, 1)
      else match rest with
        | second :: third :: more =>
          if 0xe0 ≤ first && first ≤ 0xef then
            (assemble (first.toNat % 16) [second, third] 0x800).map (·, 2)
          else match more with
            | fourth :: _ =>
              if 0xf0 ≤ first && first ≤ 0xf4 then
                (assemble (first.toNat % 8) [second, third, fourth] 0x10000).map (·, 3)
              else none
            | [] => none
        | _ => none
    | _, [] => none

def pieces : List UInt8 → List Piece
  | [] => []
  | first :: rest =>
    match leading first rest with
    | some (character, tails) => .character character :: pieces (rest.drop tails)
    | none => .stray first :: pieces rest
termination_by bytes => bytes.length
decreasing_by all_goals simp only [List.length_drop, List.length_cons]; omega

/-- Read bytes as text, a replacement character standing for each stray byte. -/
def decodeLossy (bytes : List UInt8) : String :=
  String.ofList ((pieces bytes).map fun
    | .character character => character
    | .stray _ => Char.ofNat 0xfffd)

end Utf8

end StateTables.Text
