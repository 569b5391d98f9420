/-! # Reading positions

A cursor is the rest of a text to be read, with the place where it starts.
Lines and columns count from zero. There are five line breaks: the line feed, the
carriage return, both together, the next line, and the line and paragraph
separators. The first four read as a line feed.
-/

namespace StateTables.Yaml

structure Mark where
  index : Nat
  line : Nat
  column : Nat
deriving DecidableEq, Repr

def isBlank (character : Char) : Bool :=
  character = ' ' || character = '\t'

def isBreak (character : Char) : Bool :=
  character = '\n' || character = '\r' || character = Char.ofNat 0x85 ||
    character = Char.ofNat 0x2028 || character = Char.ofNat 0x2029

def lineEnds : List Char → Bool
  | [] => true
  | character :: _ => isBreak character

def wordEnds : List Char → Bool
  | [] => true
  | character :: _ => isBlank character || isBreak character

def isNameCharacter (character : Char) : Bool :=
  character.isAlphanum || character = '_' || character = '-'

structure Cursor where
  rest : List Char
  mark : Mark
  /-- The number of line breaks since the last character that is no blank. -/
  breaks : Nat
deriving DecidableEq, Repr

namespace Cursor

def ofText (characters : List Char) : Cursor :=
  ⟨characters, ⟨0, 0, 0⟩, 0⟩

def skip (cursor : Cursor) : Cursor :=
  match cursor.rest with
  | [] => cursor
  | character :: rest =>
    { rest := rest
      mark := { cursor.mark with
        index := cursor.mark.index + 1
        column := cursor.mark.column + 1 }
      breaks := if isBlank character then cursor.breaks else 0 }

def skipMany (cursor : Cursor) : (count : Nat) → Cursor
  | 0 => cursor
  | count + 1 => cursor.skip.skipMany count

def skipWhile (cursor : Cursor) (test : Char → Bool) : Cursor :=
  cursor.skipMany (cursor.rest.takeWhile fun character => test character && !isBreak character).length

def skipLine (cursor : Cursor) : Cursor :=
  cursor.skipWhile fun _ => true

/-- Step over a line break, if there is one, and give the characters it reads
as. -/
def readBreak (cursor : Cursor) : List Char × Cursor :=
  let after (length : Nat) : Cursor :=
    ⟨cursor.rest.drop length, ⟨cursor.mark.index + length, cursor.mark.line + 1, 0⟩,
      cursor.breaks + 1⟩
  match cursor.rest with
  | '\r' :: '\n' :: _ => (['\n'], after 2)
  | character :: _ =>
    if !isBreak character then ([], cursor)
    else if character.toNat < 0x2028 then (['\n'], after 1)
    else ([character], after 1)
  | [] => ([], cursor)

def skipBreak (cursor : Cursor) : Cursor :=
  cursor.readBreak.2

def at? (cursor : Cursor) (character : Char) : Bool :=
  cursor.rest.head? = some character

def atBreak (cursor : Cursor) : Bool :=
  cursor.rest.head?.any isBreak

def atBlank (cursor : Cursor) : Bool :=
  cursor.rest.head?.any isBlank

def atLineMark (cursor : Cursor) (character : Char) : Bool :=
  cursor.mark.column = 0 && cursor.rest.take 3 = [character, character, character] &&
    wordEnds (cursor.rest.drop 3)

def atDocumentMark (cursor : Cursor) : Bool :=
  cursor.atLineMark '-' || cursor.atLineMark '.'

end Cursor

end StateTables.Yaml
