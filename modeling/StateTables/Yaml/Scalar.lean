import StateTables.Literal.Character
import StateTables.Yaml.Problem

/-! # Scalars

Plain scalars end where the structure around them goes on. Quoted scalars end at
their quote; in double quotes there are escapes. Lines of both are folded: a
line break counts as a blank, and every empty line as a line break. Block
scalars are the indented lines below their header, kept or folded.

Readers take a number that exceeds the length of the text as their fuel.
-/

namespace StateTables.Yaml

/-! ## Gaps between the words of a scalar -/

structure Gap where
  spaces : List Char
  /-- Is there a line break? -/
  broken : Bool
  /-- What the first line break reads as. Nothing, if it is escaped. -/
  first : List Char
  /-- What the further line breaks read as. -/
  more : List Char
deriving DecidableEq, Repr

namespace Gap

def none : Gap :=
  ⟨[], false, [], []⟩

def escaped : Gap :=
  ⟨[], true, [], []⟩

def text (gap : Gap) : List Char :=
  if !gap.broken then gap.spaces
  else if gap.first = ['\n'] then if gap.more.isEmpty then [' '] else gap.more
  else gap.first ++ gap.more

/-- Pass over the gap at a cursor. `tabColumn` is the column before which no tab
may stand on a new line, and `start` is where the scalar starts. -/
def read (start : Mark) (tabColumn : Nat) :
    (fuel : Nat) → Gap → Cursor → Except Problem (Gap × Cursor)
  | 0, gap, cursor => .ok (gap, cursor)
  | fuel + 1, gap, cursor => match cursor.rest with
    | [] => .ok (gap, cursor)
    | character :: _ =>
      if isBlank character then
        if gap.broken && character = '\t' && cursor.mark.column < tabColumn then
          refuse .tabIndentation start cursor
        else
          let spaces := if gap.broken then gap.spaces else gap.spaces ++ [character]
          read start tabColumn fuel { gap with spaces := spaces } cursor.skip
      else if isBreak character then
        let (found, following) := cursor.readBreak
        let wider := if gap.broken then { gap with more := gap.more ++ found }
          else { gap with broken := true, first := found }
        read start tabColumn fuel wider following
      else .ok (gap, cursor)

end Gap

/-! ## Plain scalars -/

def isFlowIndicator (character : Char) : Bool :=
  [',', '?', '[', ']', '\x7b', '\x7d'].contains character

def plainWord (flow : Bool) : List Char → List Char
  | [] => []
  | character :: rest =>
    if isBlank character || isBreak character || (character = ':' && wordEnds rest) ||
        (flow && isFlowIndicator character) then []
    else character :: plainWord flow rest

def readPlainWords (size : Nat) (flow : Bool) (indent : Nat) (start : Mark) :
    (fuel : Nat) → (read : List Char) → Gap → Cursor → Except Problem (String × Bool × Cursor)
  | 0, read, gap, cursor => .ok (String.ofList read.reverse, gap.broken, cursor)
  | fuel + 1, read, gap, cursor =>
    if cursor.atDocumentMark || cursor.at? '#' then
      .ok (String.ofList read.reverse, gap.broken, cursor)
    else
      let word := plainWord flow cursor.rest
      if word.isEmpty then .ok (String.ofList read.reverse, gap.broken, cursor)
      else
        let read := word.reverse ++ gap.text.reverse ++ read
        let behind := cursor.skipMany word.length
        match Gap.none.read start indent size behind with
        | .error problem => .error problem
        | .ok (gap, following) =>
          if !flow && following.mark.column < indent then
            .ok (String.ofList read.reverse, gap.broken, following)
          else readPlainWords size flow indent start fuel read gap following

/-- A plain scalar, whose further lines are indented at least by `indent`. -/
def readPlain (size : Nat) (flow : Bool) (indent : Nat) (cursor : Cursor) :
    Except Problem (String × Bool × Cursor) :=
  readPlainWords size flow indent cursor.mark size [] .none cursor

/-! ## Quoted scalars -/

def plainEscape? : Char → Option Char
  | '0' => some (Char.ofNat 0)
  | 'a' => some (Char.ofNat 7)
  | 'b' => some (Char.ofNat 8)
  | 't' => some '\t'
  | '\t' => some '\t'
  | 'n' => some '\n'
  | 'v' => some (Char.ofNat 11)
  | 'f' => some (Char.ofNat 12)
  | 'r' => some '\r'
  | 'e' => some (Char.ofNat 27)
  | ' ' => some ' '
  | '"' => some '"'
  | '\'' => some '\''
  | '\\' => some '\\'
  | 'N' => some (Char.ofNat 0x85)
  | '_' => some (Char.ofNat 0xa0)
  | 'L' => some (Char.ofNat 0x2028)
  | 'P' => some (Char.ofNat 0x2029)
  | _ => none

def escapeDigits : Char → Nat
  | 'x' => 2
  | 'u' => 4
  | 'U' => 8
  | _ => 0

def readEscape (start : Mark) (backslash : Cursor) (cursor : Cursor) :
    Except Problem (Char × Cursor) :=
  match cursor.rest with
  | [] => refuse .unknownEscape start backslash
  | letter :: rest =>
    match plainEscape? letter with
    | some character => .ok (character, cursor.skip)
    | none =>
      let count := escapeDigits letter
      if count = 0 then refuse .unknownEscape start backslash
      else match Literal.Character.readDigits 16 Literal.Character.hexadecimalValue? count 0 rest with
        | none => refuse .missingHexadecimal start cursor.skip
        | some (code, _) =>
          if code.isValidChar then .ok (Char.ofNat code, cursor.skipMany (count + 1))
          else refuse .invalidCode start cursor.skip

inductive QuotedEnd where
  | quote
  /-- A blank, a line break, or the end of the text. -/
  | blank
  | escapedBreak
deriving DecidableEq, Repr

def readQuotedWord (quote : Char) (start : Mark) :
    (fuel : Nat) → (read : List Char) → Cursor → Except Problem (List Char × QuotedEnd × Cursor)
  | 0, read, cursor => .ok (read, .blank, cursor)
  | fuel + 1, read, cursor => match cursor.rest with
    | [] => .ok (read, .blank, cursor)
    | character :: rest =>
      if isBlank character || isBreak character then .ok (read, .blank, cursor)
      else if character = '\'' && quote = '\'' && rest.head? = some '\'' then
        readQuotedWord quote start fuel ('\'' :: read) cursor.skip.skip
      else if character = quote then .ok (read, .quote, cursor)
      else if character = '\\' && quote = '"' then
        if rest.head?.any isBreak then .ok (read, .escapedBreak, cursor.skip.skipBreak)
        else match readEscape start cursor cursor.skip with
          | .error problem => .error problem
          | .ok (escaped, following) =>
            readQuotedWord quote start fuel (escaped :: read) following
      else readQuotedWord quote start fuel (character :: read) cursor.skip

def readQuotedWords (size : Nat) (quote : Char) (start : Mark) :
    (fuel : Nat) → (read : List Char) → Cursor → Except Problem (String × Cursor)
  | 0, _, cursor => refuse .unexpectedEnd start cursor
  | fuel + 1, read, cursor =>
    if cursor.atDocumentMark then refuse .documentMark start cursor
    else if cursor.rest.isEmpty then refuse .unexpectedEnd start cursor
    else do
      let (read, ending, behind) ← readQuotedWord quote start size read cursor
      if ending = .quote || (ending = .escapedBreak && behind.at? quote) then
        return (String.ofList read.reverse, behind.skip)
      else
        let gap := if ending = .escapedBreak then Gap.escaped else Gap.none
        let (gap, following) ← gap.read start 0 size behind
        readQuotedWords size quote start fuel (gap.text.reverse ++ read) following

def readQuoted (size : Nat) (quote : Char) (cursor : Cursor) : Except Problem (String × Cursor) :=
  readQuotedWords size quote cursor.mark size [] cursor.skip

/-! ## Block scalars -/

inductive Chomping where
  | strip
  | clip
  | keep
deriving DecidableEq, Repr

def Chomping.ofIndicator? : Char → Option Chomping
  | '+' => some .keep
  | '-' => some .strip
  | _ => none

def readChomping (cursor : Cursor) : Option Chomping × Cursor :=
  match cursor.rest.head?.bind Chomping.ofIndicator? with
  | some chomping => (some chomping, cursor.skip)
  | none => (none, cursor)

def readIndentation (start : Mark) (cursor : Cursor) : Except Problem (Option Nat × Cursor) :=
  match cursor.rest with
  | digit :: _ =>
    if !digit.isDigit then .ok (none, cursor)
    else if digit = '0' then refuse .zeroIndentation start cursor
    else .ok (some (digit.toNat - '0'.toNat), cursor.skip)
  | [] => .ok (none, cursor)

def readIndicators (start : Mark) (cursor : Cursor) :
    Except Problem (Chomping × Option Nat × Cursor) := do
  match readChomping cursor with
  | (some chomping, cursor) =>
    let (indentation, cursor) ← readIndentation start cursor
    return (chomping, indentation, cursor)
  | (none, cursor) =>
    let (indentation, cursor) ← readIndentation start cursor
    if indentation.isNone then return (.clip, none, cursor)
    let (chomping, cursor) := readChomping cursor
    return (chomping.getD .clip, indentation, cursor)

/-- Step over the blanks at the start of a line that belong to its indentation:
all of them if that is not known yet. -/
def skipIndentation (indentation : Option Nat) (cursor : Cursor) : Cursor :=
  let blanks := (cursor.rest.takeWhile (· = ' ')).length
  match indentation with
  | none => cursor.skipMany blanks
  | some depth => cursor.skipMany (min blanks (depth - cursor.mark.column))

/-- Pass over empty lines of a block and over the indentation of the line behind
them. Gives what the line breaks read as and the deepest column reached. -/
def readEmptyLines (indentation : Option Nat) (start : Mark) :
    (fuel : Nat) → (breaks : List Char) → (deepest : Nat) → Cursor →
      Except Problem (List Char × Nat × Cursor)
  | 0, breaks, deepest, cursor => .ok (breaks, deepest, cursor)
  | fuel + 1, breaks, deepest, cursor =>
    let cursor := skipIndentation indentation cursor
    let deepest := max deepest cursor.mark.column
    if cursor.at? '\t' && indentation.all (cursor.mark.column < ·) then
      refuse .tabInBlock start cursor
    else if cursor.atBreak then
      let (found, following) := cursor.readBreak
      readEmptyLines indentation start fuel (breaks ++ found) deepest following
    else .ok (breaks, deepest, cursor)

/-- The lines of a block with a known indentation. `pending` is what the line
break behind the line before reads as, `breaks` are those of the empty lines
since, and `spaced` tells whether the line before starts with a blank. -/
def readBlockLines (size : Nat) (folds : Bool) (depth : Nat) (start : Mark) :
    (fuel : Nat) → (read pending breaks : List Char) → (spaced : Bool) → Cursor →
      Except Problem (List Char × List Char × List Char × Cursor)
  | 0, read, pending, breaks, _, cursor => .ok (read, pending, breaks, cursor)
  | fuel + 1, read, pending, breaks, spaced, cursor =>
    if cursor.mark.column ≠ depth || cursor.rest.isEmpty then
      .ok (read, pending, breaks, cursor)
    else do
      let startsSpaced := cursor.atBlank
      let joined := folds && !spaced && !startsSpaced && pending = ['\n']
      let front := if joined then if breaks.isEmpty then [' '] else [] else pending
      let line := cursor.rest.takeWhile fun character => !isBreak character
      let read := line.reverse ++ breaks.reverse ++ front.reverse ++ read
      let (pending, behind) := cursor.skipLine.readBreak
      let (breaks, _, following) ←
        readEmptyLines (some depth) start size [] 0 behind
      readBlockLines size folds depth start fuel read pending breaks startsSpaced following

/-- A block scalar in a structure with an indentation, from its first indicator
on. -/
def readBlock (size : Nat) (indent : Int) (cursor : Cursor) : Except Problem (String × Cursor) := do
  let start := cursor.mark
  let folds := cursor.at? '>'
  let (chomping, given, header) ← readIndicators start cursor.skip
  let blanks := header.skipWhile isBlank
  let ending := if blanks.at? '#' then blanks.skipLine else blanks
  if !lineEnds ending.rest then refuse .lineGoesOn start ending
  let indentation := given.map fun count => (max indent 0).toNat + count
  let body := ending.skipBreak
  let (breaks, deepest, content) ←
    readEmptyLines indentation start size [] 0 body
  let depth := indentation.getD (max deepest (max (indent + 1).toNat 1))
  let (read, pending, breaks, following) ←
    readBlockLines size folds depth start size [] [] breaks false content
  let tail := match chomping with
    | .strip => []
    | .clip => pending
    | .keep => pending ++ breaks
  return (String.ofList (read.reverse ++ tail), following)

end StateTables.Yaml
