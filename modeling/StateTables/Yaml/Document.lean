import StateTables.Yaml.Node
import StateTables.Yaml.Tokenizer

/-! # Reading documents

Documents are read by recursive descent through their tokens. The readers take
fuel: every step of one of them uses a token or enters a reader that does.

Only the first document of a text is read. What follows it is of no account, as
far as it was not read ahead.
-/

namespace StateTables.Yaml

structure DocumentState where
  tokenizer : Tokenizer
  /-- What the handles of tags stand for. -/
  handles : List (String × String)
  /-- The numbers of the nodes with anchors, the latest first. -/
  anchors : List (String × Nat)
  anchored : List (Nat × Node)
  aliases : Nat

abbrev Reading := StateT DocumentState (Except Problem)

def peek : Reading Token := fun state => do
  let (token, tokenizer) ← state.tokenizer.peek
  return (token, { state with tokenizer := tokenizer })

def advance : Reading Unit :=
  modify fun state => { state with tokenizer := state.tokenizer.advance }

def misplaced {α : Type} (fault : OrderFault) (context : Option Mark) (token : Token) : Reading α :=
  throw (.order fault context token.start)

def lineOf (mark : Mark) : Nat :=
  mark.line + 1

def leftOut (mark : Mark) : Node :=
  .scalar (lineOf mark) (defaultTag true "") ""

/-! ## Anchors and tags -/

/-- What stands before a node: the name of an anchor and a tag. -/
structure Properties where
  start : Mark
  anchor : Option String
  tag : Option String
deriving DecidableEq, Repr

def commonAddress : String :=
  "tag:yaml.org,2002:"

def shortTag (tag : String) : String :=
  match commonAddress.toList.isPrefixOf tag.toList with
  | true => "!!" ++ String.ofList (tag.toList.drop commonAddress.length)
  | false => tag

def resolveTag (start mark : Mark) (handle suffix : String) : Reading String := do
  if handle.isEmpty then return suffix
  match (← get).handles.lookup handle with
  | some address =>
    if (address ++ suffix).isEmpty then throw (.order .unknownHandle (some start) mark)
    return address ++ suffix
  | none => throw (.order .unknownHandle (some start) mark)

def readAnchor : Reading (Option String) := do
  match (← peek).kind with
  | .anchor name =>
    advance
    return some name
  | _ => return none

def readTagToken : Reading (Option (Mark × String × String)) := do
  let token ← peek
  match token.kind with
  | .tag handle suffix =>
    advance
    return some (token.start, handle, suffix)
  | _ => return none

def readProperties : Reading Properties := do
  let start := (← peek).start
  let first ← readAnchor
  let tag ← readTagToken
  let anchor ← if first.isNone && tag.isSome then readAnchor else pure first
  let _ ← peek
  match tag with
  | some (mark, handle, suffix) =>
    return ⟨start, anchor, some (← resolveTag start mark handle suffix)⟩
  | none => return ⟨start, anchor, none⟩

/-- The tag of a node. An exclamation mark stands for no tag. -/
def Properties.tagOr (properties : Properties) (default : String) : String :=
  match properties.tag with
  | some tag => if tag.isEmpty || tag == "!" then default else shortTag tag
  | none => default

def declare (properties : Properties) : Reading (Option Nat) := do
  match properties.anchor with
  | none => return none
  | some name =>
    let number := (← get).anchors.length
    modify fun state => { state with anchors := (name, number) :: state.anchors }
    return some number

def keep (number : Option Nat) (node : Node) : Reading Node := do
  match number with
  | none => return node
  | some number =>
    modify fun state => { state with anchored := (number, node) :: state.anchored }
    return node

def readAlias (mark : Mark) (name : String) : Reading Node := do
  let state ← get
  match state.anchors.lookup name with
  | none => throw (.unknownAnchor name)
  | some number =>
    set { state with aliases := state.aliases + 1 }
    advance
    return .alias (lineOf mark) state.aliases name number

/-! ## Nodes -/

def endsBlockValue (kind : TokenKind) : Bool :=
  kind = .key || kind = .value || kind = .blockEnd

mutual

/-- A node. Block collections start only where `block` says so, and a sequence
without indentation only where `indentless` does. -/
def readNode (block indentless : Bool) : (fuel : Nat) → Reading Node
  | 0 => do misplaced .nodeContent none (← peek)
  | fuel + 1 => do
    let first ← peek
    match first.kind with
    | .alias name => readAlias first.start name
    | _ =>
      let properties ← readProperties
      let token ← peek
      let line := lineOf properties.start
      let sequenceTag := properties.tagOr "!!seq"
      let mappingTag := properties.tagOr "!!map"
      if token.kind = .blockEntry && indentless then
        let number ← declare properties
        keep number (.sequence line sequenceTag (← readIndentlessItems [] fuel))
      else match token.kind with
        | .scalar plain text =>
          let number ← declare properties
          advance
          keep number (.scalar line (properties.tagOr (defaultTag plain text)) text)
        | .flowSequenceStart =>
          let number ← declare properties
          advance
          keep number (.sequence line sequenceTag (← readFlowItems token.start [] fuel))
        | .flowMappingStart =>
          let number ← declare properties
          advance
          keep number (.mapping line mappingTag (← readFlowEntries token.start [] fuel))
        | kind =>
          if kind = .blockSequenceStart && block then
            let number ← declare properties
            advance
            keep number (.sequence line sequenceTag (← readBlockItems token.start [] fuel))
          else if kind = .blockMappingStart && block then
            let number ← declare properties
            advance
            keep number (.mapping line mappingTag (← readBlockEntries token.start [] fuel))
          else if properties.anchor.isSome || properties.tag.isSome then
            let number ← declare properties
            keep number (.scalar line (properties.tagOr (defaultTag true "")) "")
          else misplaced .nodeContent (some properties.start) token

def readIndentlessItems (items : List Node) : (fuel : Nat) → Reading (List Node)
  | 0 => do misplaced .nodeContent none (← peek)
  | fuel + 1 => do
    let token ← peek
    if token.kind ≠ .blockEntry then return items.reverse
    else
      advance
      let following := (← peek).kind
      let item ← if following = .blockEntry || endsBlockValue following then
          pure (leftOut token.start)
        else readNode true false fuel
      readIndentlessItems (item :: items) fuel

def readBlockItems (context : Mark) (items : List Node) : (fuel : Nat) → Reading (List Node)
  | 0 => do misplaced .nodeContent none (← peek)
  | fuel + 1 => do
    let token ← peek
    match token.kind with
    | .blockEntry =>
      advance
      let following := (← peek).kind
      let item ← if following = .blockEntry || following = .blockEnd then
          pure (leftOut token.start)
        else readNode true false fuel
      readBlockItems context (item :: items) fuel
    | .blockEnd =>
      advance
      return items.reverse
    | _ => misplaced .sequenceDash (some context) token

def readBlockValue : (fuel : Nat) → Reading Node
  | 0 => do misplaced .nodeContent none (← peek)
  | fuel + 1 => do
    let token ← peek
    if token.kind ≠ .value then return leftOut token.start
    else
      advance
      if endsBlockValue (← peek).kind then return leftOut token.start
      else readNode true true fuel

def readBlockEntries (context : Mark) (entries : List (Node × Node)) :
    (fuel : Nat) → Reading (List (Node × Node))
  | 0 => do misplaced .nodeContent none (← peek)
  | fuel + 1 => do
    let token ← peek
    match token.kind with
    | .key =>
      advance
      let key ← if endsBlockValue (← peek).kind then pure (leftOut token.start)
        else readNode true true fuel
      let value ← readBlockValue fuel
      let _ ← peek
      readBlockEntries context ((key, value) :: entries) fuel
    | .blockEnd =>
      advance
      return entries.reverse
    | _ => misplaced .mappingKey (some context) token

def readPair (start : Mark) : (fuel : Nat) → Reading Node
  | 0 => do misplaced .nodeContent none (← peek)
  | fuel + 1 => do
    let token ← peek
    let key ← if token.kind = .value || token.kind = .flowEntry || token.kind = .flowSequenceEnd then
        advance
        pure (leftOut token.start)
      else readNode false false fuel
    let token ← peek
    let value ← if token.kind = .value then
        advance
        let following := (← peek).kind
        if following = .flowEntry || following = .flowSequenceEnd then
          pure (leftOut token.start)
        else readNode false false fuel
      else pure (leftOut token.start)
    let _ ← peek
    return .mapping (lineOf start) "!!map" [(key, value)]

def readFlowItems (context : Mark) (items : List Node) : (fuel : Nat) → Reading (List Node)
  | 0 => do misplaced .nodeContent none (← peek)
  | fuel + 1 => do
    let separator ← peek
    if separator.kind = .flowSequenceEnd then
      advance
      return items.reverse
    else
      if !items.isEmpty then
        if separator.kind ≠ .flowEntry then misplaced .sequenceComma (some context) separator
        advance
      let token ← peek
      match token.kind with
      | .flowSequenceEnd =>
        advance
        return items.reverse
      | .key =>
        advance
        let item ← readPair token.start fuel
        readFlowItems context (item :: items) fuel
      | _ =>
        let item ← readNode false false fuel
        readFlowItems context (item :: items) fuel

def readFlowValue : (fuel : Nat) → Reading Node
  | 0 => do misplaced .nodeContent none (← peek)
  | fuel + 1 => do
    let token ← peek
    if token.kind ≠ .value then return leftOut token.start
    else
      advance
      let following ← peek
      if following.kind = .flowEntry || following.kind = .flowMappingEnd then
        return leftOut following.start
      else readNode false false fuel

def readFlowEntries (context : Mark) (entries : List (Node × Node)) :
    (fuel : Nat) → Reading (List (Node × Node))
  | 0 => do misplaced .nodeContent none (← peek)
  | fuel + 1 => do
    let separator ← peek
    if separator.kind = .flowMappingEnd then
      advance
      return entries.reverse
    else
      if !entries.isEmpty then
        if separator.kind ≠ .flowEntry then misplaced .mappingComma (some context) separator
        advance
      let token ← peek
      match token.kind with
      | .flowMappingEnd =>
        advance
        return entries.reverse
      | .key =>
        advance
        let following ← peek
        let key ← if following.kind = .value || following.kind = .flowEntry ||
            following.kind = .flowMappingEnd then pure (leftOut following.start)
          else readNode false false fuel
        let value ← readFlowValue fuel
        readFlowEntries context ((key, value) :: entries) fuel
      | _ =>
        let key ← readNode false false fuel
        let value := leftOut (← peek).start
        readFlowEntries context ((key, value) :: entries) fuel

end

/-! ## Documents -/

def commonHandles : List (String × String) :=
  [("!", "!"), ("!!", commonAddress)]

def readDirectives : (fuel : Nat) → (versioned : Bool) → Reading Unit
  | 0, _ => return
  | fuel + 1, versioned => do
    let token ← peek
    match token.kind with
    | .versionDirective major minor =>
      if versioned then misplaced .repeatedVersion none token
      if major ≠ 1 || minor ≠ 1 then misplaced .incompatibleVersion none token
      advance
      readDirectives fuel true
    | .tagDirective handle address =>
      if ((← get).handles.lookup handle).isSome then misplaced .repeatedHandle none token
      modify fun state => { state with handles := state.handles ++ [(handle, address)] }
      advance
      readDirectives fuel versioned
    | _ =>
      let known := (← get).handles
      let missing := commonHandles.filter fun (handle, _) => (known.lookup handle).isNone
      modify fun state => { state with handles := known ++ missing }

def isBetweenDocuments : TokenKind → Bool
  | .versionDirective _ _ => true
  | .tagDirective _ _ => true
  | .documentStart => true
  | .documentEnd => true
  | .streamEnd => true
  | _ => false

def readRoot (fuel : Nat) : Reading (Option Node) := do
  let _ ← peek
  advance
  let first ← peek
  if first.kind = .streamEnd then return none
  else
    readDirectives fuel false
    let root ← if !isBetweenDocuments first.kind || first.kind = .documentEnd then
        readNode true false fuel
      else do
        let token ← peek
        if token.kind ≠ .documentStart then misplaced .documentStart none token
        advance
        let content ← peek
        if isBetweenDocuments content.kind then pure (leftOut content.start)
        else readNode true false fuel
    let _ ← peek
    return some root

def readDocument (text : String) : Except Problem (Option Document) :=
  let state : DocumentState := ⟨.ofText text, [], [], [], 0⟩
  match readRoot (8 * text.length + 64) state with
  | .error problem => .error problem
  | .ok (none, _) => .ok none
  | .ok (some root, state) => .ok (some ⟨root, state.anchored⟩)

end StateTables.Yaml
