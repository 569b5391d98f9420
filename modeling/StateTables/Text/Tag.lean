/-! # Colour tags

A text may set parts of it in colours, as in `<red>warning</>`. Where there are no
colours the tags are left out. Only a text with a closing tag counts as tagged.
-/

namespace StateTables.Text.Tag

def isNameCharacter (character : Char) : Bool :=
  character.isAlphanum || ['_', '=', ',', ';'].contains character

def nameLength? (characters : List Char) : Option Nat :=
  let name := characters.takeWhile isNameCharacter
  if (characters.drop name.length).head? = some '>' then some (name.length + 1) else none

def length? : List Char → Option Nat
  | '<' :: '/' :: rest => (nameLength? rest).map (· + 2)
  | '<' :: rest => (nameLength? rest).map (· + 1)
  | _ => none

/-- Leave out a number of characters, and all tags behind them. -/
def remove : Nat → List Char → List Char
  | _, [] => []
  | skipped + 1, _ :: rest => remove skipped rest
  | 0, character :: rest =>
    match length? (character :: rest) with
    | some (skipped + 1) => remove skipped rest
    | _ => character :: remove 0 rest

def strip (text : String) : String :=
  if (text.splitOn "</>").length > 1 then String.ofList (remove 0 text.toList) else text

/-- The times that tags are left out of what is shown: what remains of a text may
look like a tag again. -/
def rounds : Nat := 4

def plain (text : String) : String :=
  (List.range rounds).foldl (fun text _ => strip text) text

end StateTables.Text.Tag
