import StateTables.Yaml.Property
import StateTables.Yaml.Scalar

/-! # Reading tokens

Tokens are read ahead of their use, for two reasons. A key of a mapping is known
for a key only when the colon behind it is found; the tokens that announce it go
before it then. Such a key stands on one line and ends within 1024 characters.
And two more tokens than the one in use are always read, so that problems of
those show first.

Indentation is followed outside of brackets: a token in a deeper column can start
a block collection, one in a lesser column ends those that are deeper.
-/

namespace StateTables.Yaml

structure KeyCandidate where
  possible : Bool
  /-- Must there be a key? -/
  required : Bool
  /-- The number of the token that starts the key. -/
  token : Nat
  mark : Mark
deriving DecidableEq, Repr

structure Tokenizer where
  cursor : Cursor
  /-- The number of characters before a forbidden one comes into view. -/
  limit : Option Nat
  started : Bool
  /-- The tokens read so far. -/
  tokens : Array Token
  /-- The number of tokens that are used already. -/
  used : Nat
  indent : Int
  /-- The lesser indentations around. -/
  indents : List Int
  /-- Can a key start here? -/
  keyAllowed : Bool
  /-- The candidate outside of all brackets, and one for each bracket around. -/
  candidates : Array KeyCandidate
  /-- The tokens that may start keys, with the number of brackets around. -/
  watched : List (Nat × Nat)
  /-- A bound for the number of steps that reading can take. -/
  size : Nat
deriving DecidableEq, Repr

namespace Tokenizer

/-! ## The text -/

def isPermitted (character : Char) : Bool :=
  let code := character.toNat
  code = 0x09 || code = 0x0a || code = 0x0d || (0x20 ≤ code && code ≤ 0x7e) || code = 0x85 ||
    (0xa0 ≤ code && code ≤ 0xfffd) || 0x10000 ≤ code

def portion : Nat := 512

/-- The number of characters in the portions before the one that holds a
forbidden character. `passed` characters lie before the current portion, of which
`room` bytes are left, and `count` characters were met in it. -/
def permittedCount (passed count room : Nat) : List Char → Option Nat
  | [] => none
  | character :: rest =>
    if character.utf8Size ≤ room then
      if isPermitted character then
        permittedCount passed (count + 1) (room - character.utf8Size) rest
      else some passed
    else if isPermitted character then
      permittedCount (passed + count) 1 (portion - character.utf8Size) rest
    else some (passed + count)

/-- The start of a text. A byte order mark is passed over. -/
def ofText (text : String) : Tokenizer :=
  let characters := text.toList
  let marked := characters.head? = some (Char.ofNat 0xfeff)
  let body := if marked then characters.drop 1 else characters
  let limit := permittedCount 0 0 (if marked then portion - 3 else portion) body
  { cursor := .ofText (match limit with
      | some count => body.take count
      | none => body)
    limit := limit
    started := false
    tokens := #[]
    used := 0
    indent := -1
    indents := []
    keyAllowed := true
    candidates := #[⟨false, false, 0, ⟨0, 0, 0⟩⟩]
    watched := []
    size := characters.length + 8 }

def nearLimit (tokenizer : Tokenizer) (mark : Mark) (distance : Nat) : Bool :=
  tokenizer.limit.any fun count => count < mark.index + distance

/-! ## Candidates for keys -/

def flowLevel (tokenizer : Tokenizer) : Nat :=
  tokenizer.candidates.size - 1

def inFlow (tokenizer : Tokenizer) : Bool :=
  0 < tokenizer.flowLevel

def nextNumber (tokenizer : Tokenizer) : Nat :=
  tokenizer.tokens.size

def unwatch (tokenizer : Tokenizer) (token : Nat) : Tokenizer :=
  { tokenizer with watched := tokenizer.watched.filter fun (number, _) => number ≠ token }

def setCandidate (tokenizer : Tokenizer) (level : Nat) (candidate : KeyCandidate) : Tokenizer :=
  { tokenizer with candidates := tokenizer.candidates.setIfInBounds level candidate }

def keyLength : Nat := 1024

def checkCandidate (tokenizer : Tokenizer) (level : Nat) : Except Problem (Bool × Tokenizer) :=
  match tokenizer.candidates[level]? with
  | none => .ok (false, tokenizer)
  | some candidate =>
    let here := tokenizer.cursor.mark
    if !candidate.possible then .ok (false, tokenizer)
    else if candidate.mark.line < here.line || candidate.mark.index + keyLength < here.index then
      if candidate.required then refuse .keyWithoutColon candidate.mark tokenizer.cursor
      else .ok (false, tokenizer.setCandidate level { candidate with possible := false })
    else .ok (true, tokenizer)

def dropCandidate (tokenizer : Tokenizer) : Except Problem Tokenizer :=
  match tokenizer.candidates.back? with
  | none => .ok tokenizer
  | some candidate =>
    if !candidate.possible then .ok tokenizer
    else if candidate.required then refuse .keyWithoutColon candidate.mark tokenizer.cursor
    else
      let given := { candidate with possible := false }
      .ok ((tokenizer.setCandidate tokenizer.flowLevel given).unwatch candidate.token)

def noteCandidate (tokenizer : Tokenizer) : Except Problem Tokenizer :=
  if !tokenizer.keyAllowed then .ok tokenizer
  else do
    let mark := tokenizer.cursor.mark
    let required := !tokenizer.inFlow && tokenizer.indent = mark.column
    let candidate : KeyCandidate := ⟨true, required, tokenizer.nextNumber, mark⟩
    let tokenizer ← tokenizer.dropCandidate
    let watched := (candidate.token, tokenizer.flowLevel) :: tokenizer.watched
    return { tokenizer.setCandidate tokenizer.flowLevel candidate with watched := watched }

/-! ## Indentation -/

def push (tokenizer : Tokenizer) (kind : TokenKind) (start : Mark) : Tokenizer :=
  { tokenizer with tokens := tokenizer.tokens.push ⟨kind, start⟩ }

/-- Put a token before the one of a number, or behind all others if that one has
been used. -/
def insert (tokenizer : Tokenizer) (number : Nat) (kind : TokenKind) (start : Mark) : Tokenizer :=
  if number < tokenizer.used then tokenizer.push kind start
  else { tokenizer with tokens := tokenizer.tokens.insertIdxIfInBounds number ⟨kind, start⟩ }

def candidateMark (tokenizer : Tokenizer) : Mark :=
  match tokenizer.candidates.back? with
  | some candidate => candidate.mark
  | none => tokenizer.cursor.mark

/-- Start a block collection in a column that is deeper than the indentation. Its
token goes before the one of a number. -/
def indentTo (tokenizer : Tokenizer) (column number : Nat) (kind : TokenKind) (start : Mark) :
    Except Problem Tokenizer :=
  if tokenizer.inFlow || !decide (tokenizer.indent < column) then .ok tokenizer
  else if depthLimit < tokenizer.indents.length + 1 then
    refuse .tooDeep tokenizer.candidateMark tokenizer.cursor
  else
    .ok ({ tokenizer with
      indents := tokenizer.indent :: tokenizer.indents
      indent := column }.insert number kind start)

def dedent (column : Int) (start : Mark) : List Int → Tokenizer → Tokenizer
  | [], tokenizer => tokenizer
  | outer :: more, tokenizer =>
    if column < tokenizer.indent then
      dedent column start more { tokenizer.push .blockEnd start with
        indent := outer
        indents := more }
    else tokenizer

/-- End the block collections that are deeper than a column. -/
def dedentTo (tokenizer : Tokenizer) (column : Int) (start : Mark) : Tokenizer :=
  if tokenizer.inFlow then tokenizer else dedent column start tokenizer.indents tokenizer

/-! ## Blanks and comments -/

def gapBeforeComment? (cursor : Cursor) : Option Nat :=
  let gap := cursor.rest.takeWhile fun character =>
    isBlank character || character = '\n' || character = '\r'
  if cursor.rest[gap.length]? = some '#' then some gap.length else none

def skipTo (index : Nat) : (fuel : Nat) → Cursor → Cursor
  | 0, cursor => cursor
  | fuel + 1, cursor =>
    if index ≤ cursor.mark.index then cursor
    else if cursor.atBreak then skipTo index fuel cursor.skipBreak
    else skipTo index fuel cursor.skip

def skipComments : (fuel : Nat) → Cursor → Cursor
  | 0, cursor => cursor
  | fuel + 1, cursor =>
    let ending := cursor.skipLine
    match gapBeforeComment? ending with
    | some gap => skipComments fuel (skipTo (ending.mark.index + gap) (gap + 1) ending)
    | none => ending

/-- Step over blanks, comments and line breaks. Outside of brackets a line break
makes keys possible again, and tabs are passed over only where there can be no
key. -/
def skipInsignificant : (fuel : Nat) → Tokenizer → Tokenizer
  | 0, tokenizer => tokenizer
  | fuel + 1, tokenizer =>
    let isSkipped (character : Char) : Bool :=
      character = ' ' || (character = '\t' && (tokenizer.inFlow || !tokenizer.keyAllowed))
    let blanks := tokenizer.cursor.skipWhile isSkipped
    let cursor := if blanks.at? '#' then skipComments tokenizer.size blanks else blanks
    if cursor.atBreak then
      skipInsignificant fuel { tokenizer with
        cursor := cursor.skipBreak
        keyAllowed := tokenizer.keyAllowed || !tokenizer.inFlow }
    else { tokenizer with cursor := cursor }

def skipLineComment (cursor : Cursor) : Cursor :=
  if 0 < cursor.breaks then cursor
  else
    let blanks := cursor.skipWhile isBlank
    if blanks.at? '#' then blanks.skipLine else cursor

/-! ## Tokens -/

/-- Read the end of the text. It stands on a line of its own. -/
def fetchEnd (tokenizer : Tokenizer) : Except Problem Tokenizer := do
  let mark := tokenizer.cursor.mark
  let mark := if mark.column = 0 then mark else { mark with line := mark.line + 1, column := 0 }
  let tokenizer := { tokenizer with cursor := { tokenizer.cursor with mark := mark } }
  let tokenizer ← (tokenizer.dedentTo (-1) mark).dropCandidate
  return { tokenizer with keyAllowed := false }.push .streamEnd mark

def fetchDirective (tokenizer : Tokenizer) : Except Problem Tokenizer := do
  let start := tokenizer.cursor.mark
  let tokenizer ← (tokenizer.dedentTo (-1) start).dropCandidate
  let (kind, following) ← readDirective tokenizer.cursor
  return { tokenizer with cursor := following, keyAllowed := false }.push kind start

def fetchDocumentMark (tokenizer : Tokenizer) (kind : TokenKind) : Except Problem Tokenizer := do
  let start := tokenizer.cursor.mark
  let tokenizer ← (tokenizer.dedentTo (-1) start).dropCandidate
  return { tokenizer with cursor := tokenizer.cursor.skipMany 3, keyAllowed := false }.push kind start

/-- Read an opening bracket. It can start a key itself. -/
def fetchOpening (tokenizer : Tokenizer) (kind : TokenKind) : Except Problem Tokenizer := do
  let tokenizer ← tokenizer.noteCandidate
  let start := tokenizer.cursor.mark
  let candidate : KeyCandidate := ⟨false, false, tokenizer.nextNumber, start⟩
  if depthLimit < tokenizer.flowLevel + 1 then refuse .tooDeep start tokenizer.cursor
  return { tokenizer with
    candidates := tokenizer.candidates.push candidate
    keyAllowed := true
    cursor := tokenizer.cursor.skip }.push kind start

def fetchClosing (tokenizer : Tokenizer) (kind : TokenKind) : Except Problem Tokenizer := do
  let tokenizer ← tokenizer.dropCandidate
  let start := tokenizer.cursor.mark
  let tokenizer := match tokenizer.inFlow, tokenizer.candidates.back? with
    | true, some candidate =>
      { tokenizer with candidates := tokenizer.candidates.pop }.unwatch candidate.token
    | _, _ => tokenizer
  return { tokenizer with keyAllowed := false, cursor := tokenizer.cursor.skip }.push kind start

def fetchFlowEntry (tokenizer : Tokenizer) : Except Problem Tokenizer := do
  let tokenizer ← tokenizer.dropCandidate
  let start := tokenizer.cursor.mark
  return { tokenizer with keyAllowed := true, cursor := tokenizer.cursor.skip }.push .flowEntry start

def fetchBlockEntry (tokenizer : Tokenizer) : Except Problem Tokenizer := do
  let start := tokenizer.cursor.mark
  if !tokenizer.inFlow && !tokenizer.keyAllowed then
    refuse .sequenceEntryPlace start tokenizer.cursor
  let tokenizer ←
    tokenizer.indentTo start.column tokenizer.nextNumber .blockSequenceStart start
  let tokenizer ← tokenizer.dropCandidate
  return { tokenizer with keyAllowed := true, cursor := tokenizer.cursor.skip }.push .blockEntry start

def fetchKey (tokenizer : Tokenizer) : Except Problem Tokenizer := do
  let start := tokenizer.cursor.mark
  if !tokenizer.inFlow && !tokenizer.keyAllowed then
    refuse .mappingKeyPlace start tokenizer.cursor
  let tokenizer ←
    tokenizer.indentTo start.column tokenizer.nextNumber .blockMappingStart start
  let tokenizer ← tokenizer.dropCandidate
  return { tokenizer with
    keyAllowed := !tokenizer.inFlow
    cursor := tokenizer.cursor.skip }.push .key start

/-- Read the colon before a value. If what stands before it can be a key, it is
one. -/
def fetchValue (tokenizer : Tokenizer) : Except Problem Tokenizer := do
  let start := tokenizer.cursor.mark
  let (isKey, tokenizer) ← tokenizer.checkCandidate tokenizer.flowLevel
  match isKey, tokenizer.candidates.back? with
  | true, some candidate =>
    let tokenizer := tokenizer.insert candidate.token .key candidate.mark
    let tokenizer ← tokenizer.indentTo candidate.mark.column candidate.token
      .blockMappingStart candidate.mark
    let given := { candidate with possible := false }
    let tokenizer := (tokenizer.setCandidate tokenizer.flowLevel given).unwatch candidate.token
    return { tokenizer with
      keyAllowed := false
      cursor := tokenizer.cursor.skip }.push .value start
  | _, _ =>
    if !tokenizer.inFlow && !tokenizer.keyAllowed then
      refuse .mappingValuePlace start tokenizer.cursor
    let tokenizer ←
      tokenizer.indentTo start.column tokenizer.nextNumber .blockMappingStart start
    return { tokenizer with
      keyAllowed := !tokenizer.inFlow
      cursor := tokenizer.cursor.skip }.push .value start

def fetchProperty (tokenizer : Tokenizer)
    (read : Cursor → Except Problem (TokenKind × Cursor)) : Except Problem Tokenizer := do
  let tokenizer ← tokenizer.noteCandidate
  let start := tokenizer.cursor.mark
  let (kind, following) ← read tokenizer.cursor
  return { tokenizer with keyAllowed := false, cursor := following }.push kind start

def fetchBlock (tokenizer : Tokenizer) : Except Problem Tokenizer := do
  let tokenizer ← tokenizer.dropCandidate
  let start := tokenizer.cursor.mark
  let (text, following) ← readBlock tokenizer.size tokenizer.indent tokenizer.cursor
  return { tokenizer with keyAllowed := true, cursor := following }.push (.scalar false text) start

def fetchQuoted (tokenizer : Tokenizer) (quote : Char) : Except Problem Tokenizer := do
  let tokenizer ← tokenizer.noteCandidate
  let start := tokenizer.cursor.mark
  let (text, following) ← readQuoted tokenizer.size quote tokenizer.cursor
  return { tokenizer with keyAllowed := false, cursor := following }.push (.scalar false text) start

/-- Read a plain scalar. A line break behind it makes keys possible again. -/
def fetchPlain (tokenizer : Tokenizer) : Except Problem Tokenizer := do
  let tokenizer ← tokenizer.noteCandidate
  let start := tokenizer.cursor.mark
  let (text, broken, following) ←
    readPlain tokenizer.size tokenizer.inFlow (tokenizer.indent + 1).toNat tokenizer.cursor
  return { tokenizer with keyAllowed := broken, cursor := following }.push (.scalar true text) start

def isIndicator (character : Char) : Bool :=
  ['-', '?', ':', ',', '[', ']', '\x7b', '\x7d', '#', '&', '*', '!', '|', '>', '\'', '"', '%',
    '@', Char.ofNat 0x60].contains character

def fetchContent (tokenizer : Tokenizer) (first : Char) (rest : List Char) :
    Except Problem Tokenizer :=
  let flow := tokenizer.inFlow
  let stands := wordEnds rest
  if first = '[' then tokenizer.fetchOpening .flowSequenceStart
  else if first = '\x7b' then tokenizer.fetchOpening .flowMappingStart
  else if first = ']' then tokenizer.fetchClosing .flowSequenceEnd
  else if first = '\x7d' then tokenizer.fetchClosing .flowMappingEnd
  else if first = ',' then tokenizer.fetchFlowEntry
  else if first = '-' && stands then tokenizer.fetchBlockEntry
  else if first = '?' && (flow || stands) then tokenizer.fetchKey
  else if first = ':' && (flow || stands) then tokenizer.fetchValue
  else if first = '*' then
    tokenizer.fetchProperty fun cursor => do
      let (name, following) ← readName cursor
      return (.alias name, following)
  else if first = '&' then
    tokenizer.fetchProperty fun cursor => do
      let (name, following) ← readName cursor
      return (.anchor name, following)
  else if first = '!' then tokenizer.fetchProperty readTag
  else if (first = '|' || first = '>') && !flow then tokenizer.fetchBlock
  else if first = '\'' || first = '"' then tokenizer.fetchQuoted first
  else if !(isBlank first || isIndicator first) || first = '-' || first = '?' || first = ':' then
    tokenizer.fetchPlain
  else refuse .unknownToken tokenizer.cursor.mark tokenizer.cursor

def fetchHere (tokenizer : Tokenizer) : Except Problem Tokenizer :=
  let cursor := tokenizer.cursor
  match cursor.rest with
  | [] => tokenizer.fetchEnd
  | first :: rest =>
    if first = '%' && cursor.mark.column = 0 then tokenizer.fetchDirective
    else if cursor.atLineMark '-' then tokenizer.fetchDocumentMark .documentStart
    else if cursor.atLineMark '.' then tokenizer.fetchDocumentMark .documentEnd
    else do
      let tokenizer ← tokenizer.fetchContent first rest
      let entry := tokenizer.tokens.back?.any fun token => token.kind = .blockEntry
      return if entry then tokenizer
        else { tokenizer with cursor := skipLineComment tokenizer.cursor }

/-- Read the next token. A forbidden character that comes into view goes before
every other problem. -/
def fetch (tokenizer : Tokenizer) : Except Problem Tokenizer :=
  if !tokenizer.started then
    if tokenizer.limit = some 0 then .error .forbiddenCharacter
    else .ok ({ tokenizer with started := true }.push .streamStart tokenizer.cursor.mark)
  else
    let before := tokenizer.cursor.mark
    let tokenizer := skipInsignificant tokenizer.size tokenizer
    let tokenizer := tokenizer.dedentTo tokenizer.cursor.mark.column before
    if tokenizer.nearLimit tokenizer.cursor.mark 4 then .error .forbiddenCharacter
    else match tokenizer.fetchHere with
      | .ok tokenizer =>
        if tokenizer.nearLimit tokenizer.cursor.mark 1 then .error .forbiddenCharacter
        else .ok tokenizer
      | .error (.token fault context place) =>
        if tokenizer.nearLimit place 1 then .error .forbiddenCharacter
        else .error (.token fault context place)
      | .error problem => .error problem

/-! ## Tokens in use -/

/-- May the token in use start a key, so that more must be read to know? -/
def isUndecided (tokenizer : Tokenizer) : Except Problem (Bool × Tokenizer) :=
  match tokenizer.watched.lookup tokenizer.used with
  | some level => tokenizer.checkCandidate level
  | none => .ok (false, tokenizer)

/-- Read ahead until the token in use is decided and two more are read. -/
def fetchMore : (fuel : Nat) → Tokenizer → Except Problem Tokenizer
  | 0, tokenizer => .ok tokenizer
  | fuel + 1, tokenizer =>
    if tokenizer.tokens.size < tokenizer.used + 3 then do fetchMore fuel (← tokenizer.fetch)
    else do
      let (undecided, tokenizer) ← tokenizer.isUndecided
      if undecided then fetchMore fuel (← tokenizer.fetch) else return tokenizer

def peek (tokenizer : Tokenizer) : Except Problem (Token × Tokenizer) := do
  let tokenizer ← fetchMore tokenizer.size tokenizer
  match tokenizer.tokens[tokenizer.used]? with
  | some token => return (token, tokenizer)
  | none => return (⟨.streamEnd, tokenizer.cursor.mark⟩, tokenizer)

def advance (tokenizer : Tokenizer) : Tokenizer :=
  { tokenizer with
    used := tokenizer.used + 1
    watched := tokenizer.watched.filter fun (number, _) => tokenizer.used < number }

end Tokenizer

end StateTables.Yaml
