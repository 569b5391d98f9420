import StateTables.Literal.Character
import StateTables.Text.Utf8
import StateTables.Yaml.Problem
import StateTables.Yaml.Token

/-! # Names, tags and directives

A node can be named by an anchor, and an alias stands for the node so named. A
tag tells what a node is. Its handle stands for the front of an address, as
directives before a document say.
-/

namespace StateTables.Yaml

/-! ## Anchors and aliases -/

def endsName : List Char → Bool
  | [] => true
  | character :: rest => wordEnds (character :: rest) ||
      ['?', ':', ',', ']', '\x7d', '%', '@', Char.ofNat 0x60].contains character

def readName (cursor : Cursor) : Except Problem (String × Cursor) :=
  let name := cursor.rest.tail.takeWhile isNameCharacter
  let following := cursor.skip.skipMany name.length
  if name.isEmpty || !endsName following.rest then refuse .nameCharacter cursor.mark following
  else .ok (String.ofList name, following)

/-! ## Tags -/

/-- A handle: an exclamation mark, or a name between two of them. Where it need
not be a handle, the second mark can be missing. -/
def readHandle (directive : Bool) (start : Mark) (cursor : Cursor) :
    Except Problem (List Char × Cursor) :=
  if !cursor.at? '!' then refuse .tagOpening start cursor
  else
    let name := cursor.rest.tail.takeWhile isNameCharacter
    let following := cursor.skip.skipMany name.length
    if following.at? '!' then .ok ('!' :: name ++ ['!'], following.skip)
    else if directive && !name.isEmpty then refuse .tagOpening start following
    else .ok ('!' :: name, following)

def encodedLength (octet : Nat) : Nat :=
  if octet < 0x80 then 1
  else if octet / 0x20 = 0x6 then 2
  else if octet / 0x10 = 0xe then 3
  else if octet / 0x08 = 0x1e then 4
  else 0

def readOctet (start : Mark) (cursor : Cursor) : Except Problem (Nat × Cursor) :=
  match cursor.rest with
  | '%' :: rest =>
    match Literal.Character.readDigits 16 Literal.Character.hexadecimalValue? 2 0 rest with
    | some (octet, _) => .ok (octet, cursor.skipMany 3)
    | none => refuse .octet start cursor
  | _ => refuse .octet start cursor

def readTrailingOctets (start : Mark) :
    (count : Nat) → Cursor → Except Problem (List Nat × Cursor)
  | 0, cursor => .ok ([], cursor)
  | count + 1, cursor => do
    let (octet, following) ← readOctet start cursor
    if octet / 0x40 ≠ 0x2 then refuse .trailingOctet start cursor
    let (more, last) ← readTrailingOctets start count following
    return (octet :: more, last)

def readOctets (start : Mark) (cursor : Cursor) : Except Problem (List Char × Cursor) := do
  let (octet, following) ← readOctet start cursor
  let length := encodedLength octet
  if length = 0 then refuse .leadingOctet start cursor
  let (more, last) ← readTrailingOctets start (length - 1) following
  let bytes := (octet :: more).map UInt8.ofNat
  return ((Text.Utf8.decodeLossy bytes).toList, last)

def isAddressCharacter (character : Char) : Bool :=
  isNameCharacter character || [';', '/', '?', ':', '@', '&', '=', '+', '$', ',', '.', '!',
    '~', '*', '\'', '(', ')', '[', ']', '%'].contains character

def readAddressCharacters (start : Mark) :
    (fuel : Nat) → Cursor → Except Problem (List Char × Cursor)
  | 0, cursor => .ok ([], cursor)
  | fuel + 1, cursor => match cursor.rest with
    | [] => .ok ([], cursor)
    | character :: _ =>
      if !isAddressCharacter character then .ok ([], cursor)
      else do
        let (front, following) ← if character = '%' then readOctets start cursor
          else .ok ([character], cursor.skip)
        let (more, last) ← readAddressCharacters start fuel following
        return (front ++ more, last)

def readAddress (start : Mark) (front : List Char) (cursor : Cursor) :
    Except Problem (List Char × Cursor) := do
  let (address, following) ← readAddressCharacters start (cursor.rest.length + 1) cursor
  if front.isEmpty && address.isEmpty then refuse .tagAddress start following
  return (front.drop 1 ++ address, following)

/-- The handle and the rest of a tag. A tag in angle brackets has no handle, nor
has the tag that is a mere exclamation mark. -/
def readTagParts (cursor : Cursor) : Except Problem (List Char × List Char × Cursor) := do
  let start := cursor.mark
  if cursor.rest[1]? = some '<' then
    let (address, following) ← readAddress start [] cursor.skip.skip
    if !following.at? '>' then refuse .tagClosing start following
    return ([], address, following.skip)
  let (handle, following) ← readHandle false start cursor
  if 1 < handle.length && handle.getLast? = some '!' then
    let (address, following) ← readAddress start [] following
    return (handle, address, following)
  let (address, following) ← readAddress start handle following
  if address.isEmpty then return ([], handle, following)
  return (['!'], address, following)

def readTag (cursor : Cursor) : Except Problem (TokenKind × Cursor) := do
  let (handle, suffix, following) ← readTagParts cursor
  if !wordEnds following.rest then refuse .tagEnding cursor.mark following
  return (.tag (String.ofList handle) (String.ofList suffix), following)

/-! ## Directives -/

def readVersionNumber (start : Mark) (cursor : Cursor) : Except Problem (Nat × Cursor) :=
  let digits := cursor.rest.takeWhile Char.isDigit
  if digits.isEmpty then refuse .versionNumber start cursor
  else if 2 < digits.length then refuse .versionLength start (cursor.skipMany 2)
  else .ok (digits.foldl (fun number digit => 10 * number + (digit.toNat - '0'.toNat)) 0,
    cursor.skipMany digits.length)

def readVersion (start : Mark) (cursor : Cursor) : Except Problem (TokenKind × Cursor) := do
  let (major, following) ← readVersionNumber start (cursor.skipWhile isBlank)
  if !following.at? '.' then refuse .versionPoint start following
  let (minor, last) ← readVersionNumber start following.skip
  return (.versionDirective major minor, last)

def readHandleMeaning (start : Mark) (cursor : Cursor) :
    Except Problem (TokenKind × Cursor) := do
  let (handle, following) ← readHandle true start (cursor.skipWhile isBlank)
  if !following.atBlank then refuse .directiveBlank start following
  let (address, last) ← readAddress start [] (following.skipWhile isBlank)
  if !wordEnds last.rest then refuse .tagEnding start last
  return (.tagDirective (String.ofList handle) (String.ofList address), last)

def readDirective (cursor : Cursor) : Except Problem (TokenKind × Cursor) := do
  let start := cursor.mark
  let name := cursor.rest.tail.takeWhile isNameCharacter
  let behind := cursor.skip.skipMany name.length
  if name.isEmpty then refuse .directiveName start behind
  if !wordEnds behind.rest then refuse .directiveCharacter start behind
  let (kind, following) ←
    if name = "YAML".toList then readVersion start behind
    else if name = "TAG".toList then readHandleMeaning start behind
    else refuse .directiveUnknown start behind
  let blanks := following.skipWhile isBlank
  let ending := if blanks.at? '#' then blanks.skipLine else blanks
  if !lineEnds ending.rest then refuse .lineGoesOn start ending
  return (kind, ending.skipBreak)

end StateTables.Yaml
