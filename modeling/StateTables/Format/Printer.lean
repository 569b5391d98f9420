import StateTables.Format.Cells
import StateTables.Format.DocComment
import StateTables.Format.Numeral

/-! # Printing tokens

A printer takes tokens and the space between them in order. Space is held back until
the next token is known, so that the comments before the token find their place in
it. Line ends of the source are kept where they do no harm, two at most.
-/

namespace StateTables.Format

inductive Space where
  | ignored
  | blank
  | cell
  | newline
  | formfeed
  | indent
  | unindent
deriving DecidableEq, Repr

def Space.endsLine : Space → Bool
  | .newline => true
  | .formfeed => true
  | _ => false

namespace Printer

structure State where
  output : Array Glyph
  indentation : Nat
  /-- The number of composite values around. -/
  level : Nat
  /-- No blank is added behind a comment between marks. -/
  noExtraBlank : Bool
  /-- No line end is added behind a comment between marks. -/
  noExtraLine : Bool
  /-- Cells end with the line. -/
  endsAlignment : Bool
  /-- Would a line end become the end of a statement? -/
  impliesEnd : Bool
  /-- The last token, if no space follows it. -/
  lastToken : Option Token
  /-- The opening bracket before the last token, if there was nothing between. -/
  lastOpening : Option Symbol
  pending : List Space
  /-- Where the next token stands in the source, as far as it is known. -/
  place : Place
  /-- Where the output ends. -/
  out : Place
  /-- Where the last token ended in the source. -/
  last : Place
  /-- Lines of the output that were asked for. -/
  lines : Array Nat
  /-- The line to be noted down with the next token. -/
  wanted : Option Nat
  /-- The groups of comments still to be printed. -/
  comments : List (List Comment)
  /-- Where comments start that tell by a formula when the file is used. -/
  formulas : Array Nat
  /-- Where comments start that do so by a choice. -/
  choices : Array Nat
  /-- Is the output only made to find its size? -/
  isMeasured : Bool

def State.start (comments : List (List Comment)) : State :=
  { output := #[], indentation := 0, level := 0, noExtraBlank := false, noExtraLine := false
    endsAlignment := false, impliesEnd := false, lastToken := none, lastOpening := none
    pending := [], place := .start, out := .start, last := .unknown, lines := #[]
    wanted := none, comments := comments, formulas := #[], choices := #[]
    isMeasured := false }

end Printer

abbrev Printer := StateM Printer.State

namespace Printer

def lineLimit : Nat := 2

/-- Something beyond every place. -/
def beyond : Nat := 1073741824

/-! ## Comments to come -/

def hasLineEnd (group : List Comment) : Bool :=
  match group with
  | [] => false
  | first :: _ => group.any fun comment => comment.place.line != first.place.line ||
      comment.isLine || comment.text.contains '\n'

def isBefore (next : Place) (impliesEnd : Bool) (group : List Comment) : Bool :=
  match group with
  | [] => false
  | first :: _ => first.place.offset < next.offset && (!impliesEnd || !hasLineEnd group)

def commentBefore (next : Place) : Printer Bool := do
  let state ← get
  return match state.comments with
    | group :: _ => isBefore next state.impliesEnd group
    | [] => false

def commentSizeBefore (next : Place) : Printer Nat := do
  let state ← get
  let before := state.comments.takeWhile (isBefore next state.impliesEnd)
  return before.flatten.foldl (fun size comment => size + comment.text.utf8ByteSize) 0

/-! ## Output -/

def shift (count : Nat) (place : Place) : Place :=
  ⟨place.offset + count, place.line, place.column + count⟩

def descend (count : Nat) (place : Place) : Place :=
  ⟨place.offset + count, place.line + count, 1⟩

def writeIndentation : Printer Unit := do
  let state ← get
  if state.out.column = 1 then
    let count := state.indentation
    set { state with
      output := state.output ++ Array.replicate count Glyph.tab
      place := shift count state.place
      out := ⟨state.out.offset, state.out.line, state.out.column + count⟩ }

def writeSpace (glyph : Glyph) (count : Nat) : Printer Unit := do
  let state ← get
  let (glyph, endsAlignment) := if state.endsAlignment then
      match glyph with
      | .tab | .cell => (Glyph.blank, true)
      | .newline | .formfeed => (.formfeed, false)
      | _ => (glyph, true)
    else (glyph, false)
  set { state with endsAlignment := endsAlignment }
  writeIndentation
  modify fun state =>
    let move := if glyph.endsLine then descend count else shift count
    { state with
      output := state.output ++ Array.replicate count glyph
      place := move state.place
      out := move state.out }

def pass (content : String) (place : Place) : Place :=
  let count := content.toList.count '\n'
  let size := content.utf8ByteSize
  if count = 0 then shift size place
  else
    let lastLine := (content.splitOn "\n").getLastD ""
    ⟨place.offset + size, place.line + count, lastLine.utf8ByteSize + 1⟩

def writeText (place : Place) (content : String) : Printer Unit := do
  writeIndentation
  modify fun state =>
    let start := if place.isKnown then place else state.place
    let stop := pass content start
    { state with
      output := state.output.push (.text content)
      endsAlignment := state.endsAlignment || content.contains '\n'
      place := stop
      out := pass content state.out
      last := stop }

def writeSpaces : List Space → Printer Unit
  | [] => return
  | .ignored :: rest => writeSpaces rest
  | .indent :: rest => do
    modify fun state => { state with indentation := state.indentation + 1 }
    writeSpaces rest
  | .unindent :: rest => do
    modify fun state => { state with indentation := state.indentation - 1 }
    writeSpaces rest
  | .newline :: .unindent :: rest => do
    modify fun state => { state with indentation := state.indentation - 1 }
    writeSpaces (.formfeed :: rest)
  | .formfeed :: .unindent :: rest => do
    modify fun state => { state with indentation := state.indentation - 1 }
    writeSpaces (.formfeed :: rest)
  | .newline :: rest => do
    writeSpace .newline 1
    writeSpaces rest
  | .formfeed :: rest => do
    writeSpace .formfeed 1
    writeSpaces rest
  | .blank :: rest => do
    writeSpace .blank 1
    writeSpaces rest
  | .cell :: rest => do
    writeSpace .cell 1
    writeSpaces rest
termination_by spaces => spaces.length

def writePending (count : Nat) : Printer Unit := do
  let pending := (← get).pending
  writeSpaces (pending.take count)
  modify fun state => { state with pending := pending.drop count }

def writeAllPending : Printer Unit := do
  writePending (← get).pending.length

/-! ## Space before comments -/

/-- Go through the space before a comment on the line of the last token: the space
that remains, how much of it comes first, and whether there is a cell in it. -/
def spaceBeside : List Space → List Space × Option Nat × Bool
  | .blank :: rest =>
    let (more, stop, hasCell) := spaceBeside rest
    (.ignored :: more, stop.map (· + 1), hasCell)
  | .cell :: rest =>
    let (more, stop, _) := spaceBeside rest
    (.cell :: more, stop.map (· + 1), true)
  | .indent :: rest =>
    let (more, stop, hasCell) := spaceBeside rest
    (.indent :: more, stop.map (· + 1), hasCell)
  | [] => ([], none, false)
  | other => (other, some 0, false)

/-- Go through the space before a comment on a line of its own: the space that
remains, how much of it comes first, and whether a line end was left out. `isAligned`
tells whether the comment stands in the column of the next token. -/
def spaceAbove (isAligned : Bool) : List Space → List Space × Option Nat × Bool
  | .blank :: rest =>
    let (more, stop, dropped) := spaceAbove isAligned rest
    (.ignored :: more, stop.map (· + 1), dropped)
  | .cell :: rest =>
    let (more, stop, dropped) := spaceAbove isAligned rest
    (.ignored :: more, stop.map (· + 1), dropped)
  | .indent :: rest =>
    let (more, stop, dropped) := spaceAbove isAligned rest
    (.indent :: more, stop.map (· + 1), dropped)
  | .unindent :: rest =>
    if rest.head? = some .unindent || isAligned then
      let (more, stop, dropped) := spaceAbove isAligned rest
      (.unindent :: more, stop.map (· + 1), dropped)
    else (.unindent :: rest, some 0, false)
  | .newline :: rest => (.ignored :: rest, some 0, true)
  | .formfeed :: rest => (.ignored :: rest, some 0, true)
  | .ignored :: rest => (.ignored :: rest, some 0, false)
  | [] => ([], none, false)

def writeSpaceBefore (place next : Place) (previous : Option Comment) (token : Token) :
    Printer Unit := do
  let state ← get
  let afterLine := (previous.map Comment.isLine).getD false
  if state.output.isEmpty then return
  else if place.line = state.last.line && !afterLine then
    let hasCell ← if previous.isNone then do
        let (spaces, stop, hasCell) := spaceBeside state.pending
        modify fun state => { state with pending := spaces }
        writePending (stop.getD 0)
        pure hasCell
      else pure false
    if !hasCell then
      writeSpace (if place.line = next.line then .blank else .tab) 1
  else
    let isAligned := token != .symbol .closeBrace && place.column = next.column
    let (spaces, stop, dropped) := spaceAbove isAligned state.pending
    modify fun state => { state with pending := spaces }
    writePending (stop.getD 0)
    let state ← get
    let count := if place.isKnown && state.last.isKnown then place.line - state.last.line else 0
    let count := if state.indentation = 0 && dropped && previous.isNone then count + 1 else count
    let count := if count = 0 && afterLine then 1 else count
    if count > 0 then writeSpace .formfeed (min count lineLimit)

/-! ## Comments between marks -/

def isBlankLine (line : List Char) : Bool :=
  line.all (· ≤ ' ')

def commonMargin : List Char → List Char → List Char
  | first :: rest, other :: others =>
    if first = other && (first ≤ ' ' || first = '*') then first :: commonMargin rest others
    else []
  | _, _ => []

def withoutSuffix (suffix text : List Char) : List Char :=
  if suffix.isSuffixOf text then text.take (text.length - suffix.length) else text

/-- The margin of a comment whose lines have no stars, shortened so that its text
stays indented as against its first line. -/
def shortenedMargin (first margin : List Char) : List Char :=
  let behind := first.drop 2
  if isBlankLine behind then
    let blanks := (margin.reverse.takeWhile (· = ' ')).length
    if blanks > 0 then margin.take (margin.length - min 3 blanks)
    else if margin.getLast? = some '\t' then margin.dropLast else margin
  else
    let space := behind.takeWhile (· ≤ ' ')
    if space.head? = some '\t' then withoutSuffix space margin
    else withoutSuffix (' ' :: ' ' :: space) margin

def withoutMargin (lines : List (List Char)) : List (List Char) :=
  match lines with
  | [] => []
  | [first] => [first]
  | first :: rest =>
    let final := rest.getLastD []
    let inner := rest.dropLast.map fun line => if isBlankLine line then [] else line
    let margin := match inner.filter (!·.isEmpty) with
      | [] => commonMargin final final
      | line :: lines => lines.foldl commonMargin (commonMargin line line)
    let isStarred := margin.contains '*'
    let margin := if isStarred then withoutSuffix [' '] (margin.takeWhile (· != '*'))
      else shortenedMargin first margin
    let closing := ['*', '/']
    let isClosing := isBlankLine (final.take (final.length - 2))
    let (margin, final) := if isClosing then
        (margin, margin ++ (if isStarred then ' ' :: closing else closing))
      else (commonMargin margin final, final)
    first :: (inner ++ [final]).map fun line =>
      if line.isEmpty then line else line.drop margin.length

def withoutTrailing (line : List Char) : String :=
  String.ofList (line.reverse.dropWhile Text.isBlank).reverse

def writeCommentLines (place : Place) : List (List Char) → Printer Unit
  | [] => return
  | line :: rest => do
    if !line.isEmpty then writeText place (withoutTrailing line)
    if !rest.isEmpty then writeSpace .formfeed 1
    writeCommentLines (← get).place rest

/-! ## Build constraints -/

/-- Does a text consist of a word and nothing, or of a word and space behind it? -/
def isHeadedBy (word : String) (text : List Char) : Bool :=
  let text := Text.trimBlanks text
  if word.toList.isPrefixOf text then
    let behind := text.drop word.length
    behind.isEmpty || (behind.head?.map Text.isBlank).getD false
  else false

def isFormula (text : String) : Bool :=
  text.startsWith "//go:build" && isHeadedBy "//go:build" text.toList

def isChoice (text : String) : Bool :=
  text.startsWith "//" && isHeadedBy "+build" (text.toList.drop 2)

/-! ## Comments -/

def writeComment (comment : Comment) : Printer Unit := do
  let text := comment.text
  let indentation := (← get).indentation
  let isLineNote := text.startsWith "//line " &&
    (!comment.place.isKnown || comment.place.column = 1)
  if isLineNote then modify fun state => { state with indentation := 0 }
  if comment.isLine then
    modify fun state =>
      if isFormula text then { state with formulas := state.formulas.push state.output.size }
      else if isChoice text then
        { state with choices := state.choices.push state.output.size }
      else state
    writeText comment.place (withoutTrailing text.toList)
  else
    let lines := (text.splitOn "\n").map String.toList
    let moved := comment.place.isKnown && comment.place.column = 1 && indentation > 0
    let lines := match lines with
      | first :: rest =>
        first :: if moved then rest.map fun line => ' ' :: ' ' :: ' ' :: line else rest
      | [] => []
    writeCommentLines comment.place (withoutMargin lines)
  if isLineNote then modify fun state => { state with indentation := indentation }

/-- The space behind comments: one line end is kept if it is needed, and the others
are left out. Tells whether there is one, and whether a section end was left out. -/
def spaceBehind : Bool → List Space → List Space × Bool × Bool × Bool
  | needed, [] => ([], needed, false, false)
  | needed, space :: rest =>
    match space with
    | .blank | .cell =>
      let (more, needed, kept, dropped) := spaceBehind needed rest
      (.ignored :: more, needed, kept, dropped)
    | .newline | .formfeed =>
      if needed then
        let (more, needed, _, dropped) := spaceBehind false rest
        (space :: more, needed, true, dropped)
      else
        let (more, needed, kept, dropped) := spaceBehind needed rest
        (.ignored :: more, needed, kept, dropped || space = .formfeed)
    | _ =>
      let (more, needed, kept, dropped) := spaceBehind needed rest
      (space :: more, needed, kept, dropped)

def writeSpaceBehind (needsLine : Bool) : Printer (Bool × Bool) := do
  let (spaces, stillNeeded, kept, dropped) := spaceBehind needsLine (← get).pending
  modify fun state => { state with pending := spaces }
  writeAllPending
  if stillNeeded then writeSpace .newline 1
  return (kept || stillNeeded, dropped)

def writeGroup (next : Place) (token : Token) : Option Comment → List Comment →
    Printer (Option Comment)
  | previous, [] => return previous
  | previous, comment :: rest => do
    writeSpaceBefore comment.place next previous token
    writeComment comment
    writeGroup next token (some comment) rest

/-- Does a group document what stands at the next place? It starts a line, and there is
one line end or one blank behind it. -/
def documents (next : Place) (token : Option Token) (group : List Comment) : Bool :=
  match group, group.getLast? with
  | first :: _, some last =>
    let stop := last.stop
    token != some (.keyword .import) && first.place.column = 1 &&
      (next = ⟨stop.offset + 1, stop.line + 1, 1⟩ ||
        next = ⟨stop.offset + 1, stop.line, stop.column + 1⟩)
  | _, _ => false

inductive Interspersed where
  /-- The last comment that was printed. -/
  | printed (last : Option Comment)
  /-- Documentation that says nothing was left out. -/
  | emptied
deriving DecidableEq, Repr

def writeGroups (next : Place) (token : Token) : Nat → Option Comment → Printer Interspersed
  | 0, previous => return .printed previous
  | fuel + 1, previous => do
    let state ← get
    match state.comments with
    | [] => return .printed previous
    | group :: others =>
      if isBefore next state.impliesEnd group then
        let isDocumentation := documents next state.lastToken group
        let canonical := if isDocumentation then DocComment.canonical group else group
        if canonical.isEmpty then
          writeSpaceBefore ((group.head?.map Comment.place).getD .unknown) next previous token
          modify fun state => { state with place := next, last := next, comments := others }
          return .emptied
        else
          let last ← writeGroup next token previous canonical
          modify fun state => { state with comments := others }
          if isDocumentation then
            let stop := (group.getLast?.map Comment.stop).getD .unknown
            modify fun state => { state with place := stop, last := stop }
            writeGroups next token fuel (group.getLast?.or last)
          else writeGroups next token fuel last
      else return .printed previous

/-- Write the comments before a token. Tells whether a line end was written behind
them, and whether a section end was left out. -/
def writeComments (next : Place) (token : Token) : Printer (Bool × Bool) := do
  match ← writeGroups next token ((← get).comments.length + 1) none with
  | .emptied => writeSpaceBehind false
  | .printed none => return (false, false)
  | .printed (some last) =>
    let state ← get
    let closes (closing opening : Symbol) :=
      token = .symbol closing && state.lastOpening != some opening
    let sameLine := !state.noExtraBlank && !last.isLine && last.place.line = next.line &&
      token != .symbol .comma && !closes .closeParen .openParen &&
      !closes .closeBracket .openBracket
    let breaksLine := sameLine && state.pending.any Space.endsLine && !state.noExtraLine &&
      state.level = 0
    if sameLine && !breaksLine then writeSpace .blank 1
    let needsLine := breaksLine || last.isLine || token = .finish ||
      (token = .symbol .closeBrace && !state.noExtraLine)
    writeSpaceBehind needsLine

def flush (next : Place) (token : Token) : Printer (Bool × Bool) := do
  if ← commentBefore next then writeComments next token
  else
    writeAllPending
    return (false, false)

/-! ## Tokens and space -/

def noteOpening : Printer Unit :=
  modify fun state =>
    match state.lastToken with
    | none => state
    | some (.symbol .openParen) => { state with lastOpening := some .openParen }
    | some (.symbol .openBracket) => { state with lastOpening := some .openBracket }
    | some _ => { state with lastOpening := none }

/-- Would two tokens read as another one without space between? -/
def combines (last : Option Token) (next : Symbol) : Bool :=
  let first := next.text.toList.head?
  match last with
  | some (.literal .integer _) => first = some '.'
  | some (.symbol .plus) => first = some '+'
  | some (.symbol .minus) => first = some '-'
  | some (.symbol .slash) => first = some '*'
  | some (.symbol .less) => first = some '-' || first = some '<'
  | some (.symbol .and) => first = some '&' || first = some '^'
  | _ => false

def space (space : Space) : Printer Unit := do
  noteOpening
  if space != .ignored then
    if (← get).pending.length ≥ 16 then writeAllPending
    modify fun state =>
      { state with
        pending := state.pending ++ [space]
        impliesEnd := state.impliesEnd && !space.endsLine
        lastToken := none }

def tokenText : Token → String
  | .name text => text
  | .literal _ text => text
  | .symbol sign => sign.text
  | .keyword word => word.text
  | .comment text => text
  | .lineEnd => ""
  | .finish => ""

def token (token : Token) : Printer Unit := do
  noteOpening
  let state ← get
  match token with
  | .symbol sign =>
    if combines state.lastToken sign then
      modify fun state => { state with pending := [.blank] }
  | _ => pure ()
  modify fun state => { state with lastToken := some token }
  let next := (← get).place
  let (wroteLine, dropped) ← flush next token
  let state ← get
  let broken ← if state.impliesEnd then pure false
    else do
      let count := min (next.line - state.place.line) lineLimit
      let count := if wroteLine && count = lineLimit then lineLimit - 1 else count
      if count > 0 then writeSpace (if dropped then .formfeed else .newline) count
      pure (count > 0)
  modify fun state => match state.wanted with
    | some index => { state with
        lines := state.lines.setIfInBounds index state.out.line, wanted := none }
    | none => state
  writeText next (tokenText token)
  modify fun state => { state with impliesEnd := token.endsStatement && !broken }

def symbol (symbol : Symbol) : Printer Unit :=
  token (.symbol symbol)

def keyword (keyword : Keyword) : Printer Unit :=
  token (.keyword keyword)

def moveTo (place : Place) : Printer Unit := do
  if place.isKnown then modify fun state => { state with place := place }

def symbolAt (place : Place) (sign : Symbol) : Printer Unit := do
  moveTo place
  symbol sign

def newLine : Printer Nat := do
  let state ← get
  set { state with lines := state.lines.push 0 }
  return state.lines.size

def recordLine (index : Nat) : Printer Unit :=
  modify fun state => { state with wanted := some index }

def isBelow (index : Nat) : Printer Bool := do
  let state ← get
  return state.out.line > state.lines[index]?.getD 0

/-- Break the line as the source does, but a number of times at least. Tells how
many lines apart what follows is, a new section counting for more. -/
def lineBreak (line least : Nat) (first : Space) (newSection : Bool) : Printer Nat := do
  let count := max (min (line - (← get).place.line) lineLimit) least
  if count = 0 then return 0
  space first
  if newSection then
    space .formfeed
    for _ in List.range (count - 1) do space .newline
    return count + 1
  else
    for _ in List.range count do space .newline
    return count

end Printer

end StateTables.Format
