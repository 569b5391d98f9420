import StateTables.Encoding.Basic

/-! # Laying out graphs

The columns of an encoding are produced from a graph in a fixed order: the
columns for the lookup of keys, transitions and conditions, actions of states,
end of input, action lists, alternates.
-/

namespace StateTables

namespace Graph

def transitionAt (graph : Graph) (transition : Nat) : Transition :=
  graph.transitions[transition]?.getD ⟨none, #[]⟩

def conditionAt (graph : Graph) (condition : Nat) : ConditionTarget :=
  graph.conditions[condition]?.getD ⟨0, none⟩

/-! ## Slots -/

/-- The transitions of a state in the order of its row: singles, ranges, the
fallback if it has one. -/
def row (state : State) : List Nat :=
  (state.singles.toList.map Single.transition) ++
    (state.ranges.toList.map Range.transition) ++ state.fallback.toList

/-- Are the tables smaller if transitions are addressed through indices? Every
transition costs an entry in three columns, whose width is estimated from the
number of condition entries. -/
def prefersIndices (graph : Graph) : Bool :=
  let entries := (graph.states.toList.map fun state => (row state).length).foldl (· + ·) 0
  let count := graph.transitions.size
  let outcomes :=
    (graph.transitions.toList.map fun transition => transition.outcomes.size).foldl (· + ·) 0
  let bytes (greatest : Nat) := (IntegerType.select 0 (Int64.ofNat greatest) false).width.bytes
  let cost := 1 + 2 * bytes outcomes
  entries * bytes count + count * cost < entries * cost

def isDirect (graph : Graph) (options : EncodingOptions) : Bool :=
  options.kind == .binary && match options.indices with
    | .always => false
    | .never => true
    | .auto => !graph.prefersIndices

def keySlots (graph : Graph) (direct : Bool) : List Nat :=
  if direct then graph.states.toList.flatMap row else List.range graph.transitions.size

/-- Transitions in the order of their slots, and the slots of the end-of-input
transitions of states. -/
structure Slots where
  transitions : Array Nat
  eof : List (Option Nat)
deriving DecidableEq, Repr

def slotOf (slots : List Nat) (transition : Nat) : Except EncodingError Nat :=
  match slots.findIdx? (· = transition) with
  | some slot => .ok slot
  | none => .error (.noSlot transition)

def slotOf? (slots : List Nat) : Option Nat → Except EncodingError (Option Nat)
  | some transition => some <$> slotOf slots transition
  | none => pure none

/-- Give an end-of-input transition a slot: that of a key transition, unless
these are laid out per row entry or it is not among them. -/
def addEofSlot (keys : List Nat) (direct : Bool) (slots : Slots) (state : State) : Slots :=
  match state.eofTransition with
  | none => { slots with eof := slots.eof ++ [none] }
  | some transition =>
    match direct, keys.findIdx? (· = transition) with
    | false, some slot => { slots with eof := slots.eof ++ [some slot] }
    | _, _ => ⟨slots.transitions.push transition, slots.eof ++ [some slots.transitions.size]⟩

def slots (graph : Graph) (direct : Bool) : Slots :=
  let keys := graph.keySlots direct
  graph.states.foldl (addEofSlot keys direct) ⟨keys.toArray, []⟩

/-! ## Columns -/

/-- The bound of all positions in columns and of all numbers that stand in them:
a cell has 64 bits, one of which is the sign. -/
def cellBound : Nat := Nat.pow 2 63

def column (name : String) (values : List Int64) (storage : Column.Storage) :
    Except EncodingError Column :=
  if cellBound ≤ values.length then .error (.oversized name)
  else match Column.build name values.toArray storage with
    | .ok column => .ok column
    | .error difference => .error (.desynchronized name difference)

def counts (name : String) (values : List Nat) : Except EncodingError Column :=
  if values.all (· < cellBound) then column name (values.map Int64.ofNat) .narrowest
  else .error (.oversized name)

/-- Where consecutive parts of given lengths start. -/
def offsets (start : Nat) : List Nat → List Nat
  | [] => []
  | length :: rest => start :: offsets (start + length) rest

/-- The number of a condition space, or -1 without one. -/
def spaceNumber : Option Nat → Int64
  | none => -1
  | some space => Int64.ofNat space

def spaceColumn (name : String) (spaces : List (Option Nat)) : Except EncodingError Column :=
  if spaces.all fun space => space.all (· < cellBound) then
    column name (spaces.map spaceNumber) .narrowestSigned
  else .error (.oversized name)

/-! ### Dense rows -/

/-- The row of a state that claims keys: its bounds as keys or as classes, and
the slot of every position. -/
structure DenseRow where
  low : Int64
  high : Int64
  span : UInt64
  entries : List Nat
deriving DecidableEq, Repr

def denseSlot (slots : List Nat) (transition : Option Nat) : Except EncodingError Nat :=
  (fun slot => slot.getD 0) <$> slotOf? slots transition

/-- The slot a dense row has for a key. -/
def denseEntry (graph : Graph) (slots : List Nat) (state : State) (key : Key) :
    Except EncodingError Nat :=
  denseSlot slots (state.locate graph.alphabet key)

def requireClass (graph : Graph) (classes : Array KeyInterval) (key : Key) :
    Except EncodingError Nat :=
  match graph.classOf classes key with
  | some number => .ok number
  | none => .error (.outsideClasses key)

def classRow (graph : Graph) (slots : List Nat) (classes : Array KeyInterval) (state : State)
    (envelope : KeyInterval) : Except EncodingError DenseRow := do
  let low ← graph.requireClass classes envelope.low
  let high ← graph.requireClass classes envelope.high
  let members := (classes.extract low (high + 1)).toList
  let entries ← members.mapM fun interval => graph.denseEntry slots state interval.low
  return ⟨Int64.ofNat low, Int64.ofNat high, UInt64.ofNat (high + 1 - low), entries⟩

def keyRow (graph : Graph) (limit : UInt64) (slots : List Nat) (id : Nat) (state : State)
    (envelope : KeyInterval) : Except EncodingError DenseRow := do
  let span := graph.alphabet.span envelope.low envelope.high
  if limit < span then throw (.stateSpan id span)
  let entries ← envelope.keys.mapM (graph.denseEntry slots state)
  return ⟨envelope.low.pattern, envelope.high.pattern, span, entries⟩

def classesFor (graph : Graph) (options : EncodingOptions) :
    Except EncodingError (Array KeyInterval) :=
  match options.classMap, graph.envelope with
  | true, some envelope =>
    let span := graph.alphabet.span envelope.low envelope.high
    if options.spanLimit < span then .error (.classSpan span)
    else .ok (graph.keyClasses envelope)
  | _, _ => .ok #[]

def denseRow (graph : Graph) (options : EncodingOptions) (slots : List Nat)
    (classes : Array KeyInterval) (id : Nat) (state : State) :
    Except EncodingError (Option DenseRow) :=
  match state.envelope graph.alphabet with
  | none => .ok none
  | some envelope => some <$>
    if options.classMap then graph.classRow slots classes state envelope
    else graph.keyRow options.spanLimit slots id state envelope

def classColumn (classes : Array KeyInterval) : Except EncodingError Column :=
  counts "char_class" <| classes.toList.zipIdx.flatMap fun (interval, number) =>
    interval.keys.map fun _ => number

def classMapFor (graph : Graph) (options : EncodingOptions) (classes : Array KeyInterval) :
    Except EncodingError (Option ClassMap) :=
  if options.classMap then do
    return some ⟨← classColumn classes, graph.envelope⟩
  else pure none

/-- The bounds of a row, zero without a row. -/
def DenseRow.bounds : Option DenseRow → List Int64
  | some row => [row.low, row.high]
  | none => [0, 0]

def flatKeys (graph : Graph) (options : EncodingOptions) (slots : List Nat) :
    Except EncodingError FlatKeys := do
  let classes ← graph.classesFor options
  let rows ← graph.states.toList.zipIdx.mapM fun (state, id) =>
    graph.denseRow options slots classes id state
  let classMap ← graph.classMapFor options classes
  let entries := rows.map fun row => (row.map DenseRow.entries).getD []
  let defaults ← graph.states.toList.mapM fun state => denseSlot slots state.fallback
  return {
    classMap
    transKeys := ← column "trans_keys" (rows.flatMap DenseRow.bounds) <|
      if options.classMap then .narrowest else .fixed graph.alphabet.host
    keySpans := ← column "key_spans"
      (rows.map fun row => ((row.map DenseRow.span).getD 0).toInt64) .narrowest
    indexOffsets := ← counts "index_offsets" (offsets 0 (entries.map List.length))
    indices := ← counts "indices" entries.flatten
    indexDefaults := ← counts "index_defaults" defaults }

/-! ### Sorted keys -/

def sortedKeys (state : State) : List Key :=
  state.singles.toList.map Single.key ++
    state.ranges.toList.flatMap fun range => [range.low, range.high]

def rowSlots (graph : Graph) (direct : Bool) (slots : List Nat) :
    Except EncodingError (Option (List Nat)) :=
  if direct then pure none
  else some <$> (graph.states.toList.flatMap row).mapM (slotOf slots)

def counts? (name : String) : Option (List Nat) → Except EncodingError (Option Column)
  | some values => some <$> counts name values
  | none => pure none

def binaryKeys (graph : Graph) (direct : Bool) (slots : List Nat) :
    Except EncodingError BinaryKeys := do
  let states := graph.states.toList
  let indices ← graph.rowSlots direct slots
  return {
    keyOffsets := ← counts "key_offsets"
      (offsets 0 (states.map fun state => (sortedKeys state).length))
    singleLengths := ← counts "single_lengths" (states.map fun state => state.singles.size)
    rangeLengths := ← counts "range_lengths" (states.map fun state => state.ranges.size)
    indexOffsets := ← counts "index_offsets"
      (offsets 0 (states.map fun state => (row state).length))
    transKeys := ← column "trans_keys"
      ((states.flatMap sortedKeys).map Key.pattern) (.fixed graph.alphabet.host)
    indices := ← counts? "indices" indices }

/-! ### Comparisons -/

def switchState (graph : Graph) (slots : List Nat) (state : State) :
    Except EncodingError SwitchState := do
  let singles ← state.singles.toList.mapM fun single =>
    return ⟨single.key, ← slotOf slots single.transition⟩
  let ranges ← state.ranges.toList.mapM fun range =>
    return ⟨range.low, range.high, ← slotOf slots range.transition⟩
  let fallback ← slotOf? slots state.fallback
  return ⟨singles, .ofRanges graph.alphabet.low graph.alphabet.high ranges, fallback⟩

/-! ### All kinds -/

def keyLookup (graph : Graph) (options : EncodingOptions) (direct : Bool) :
    Except EncodingError KeyLookup :=
  let slots := graph.keySlots direct
  match options.kind with
  | .flat => .flat <$> graph.flatKeys options slots
  | .binary => .binary <$> graph.binaryKeys direct slots
  | .switch => (fun states => .switch states.toArray) <$>
      graph.states.toList.mapM (graph.switchState slots)

def entries (graph : Graph) (transitions : List Nat) : List Outcome :=
  transitions.flatMap fun transition => (graph.transitionAt transition).outcomes.toList

def transitionColumns (graph : Graph) (direct : Bool) (transitions : List Nat) :
    Except EncodingError TransitionColumns := do
  let laidOut := transitions.map graph.transitionAt
  let lengths := laidOut.map fun transition => transition.outcomes.size
  return {
    spaces := ← spaceColumn (transitionColumnName direct "trans_cond_spaces")
      (laidOut.map Transition.space)
    offsets := ← counts (transitionColumnName direct "trans_offsets") (offsets 0 lengths)
    lengths := ← counts (transitionColumnName direct "trans_lengths") lengths }

def conditionColumns (graph : Graph) (outcomes : List Outcome) :
    Except EncodingError ConditionColumns := do
  let targets := outcomes.map fun outcome => graph.conditionAt outcome.condition
  return {
    keys := ← column "cond_keys"
      ((outcomes.map fun outcome => outcome.value.toInt64) ++ [0]) .narrowest
    targets := ← counts "cond_targs"
      (targets.map ConditionTarget.target ++ [graph.error.getD 0])
    actions := ← counts "cond_actions"
      ((targets.map fun target => graph.location target.actions) ++ [0]) }

def stateActions (graph : Graph) (name : String) (list : State → Option Nat) :
    Except EncodingError (Option Column) :=
  if graph.states.any fun state => (list state).isSome then
    some <$> counts name (graph.states.toList.map fun state => graph.location (list state))
  else pure none

def eofGuardColumns (graph : Graph) : Except EncodingError EofGuardColumns := do
  let states := graph.states.toList
  let lengths := states.map fun state => state.eofValues.length
  return {
    spaces := ← spaceColumn "eof_cond_spaces" (states.map State.eofGuard)
    offsets := ← counts "eof_cond_key_offs" (offsets 0 lengths)
    lengths := ← counts "eof_cond_key_lens" lengths
    keys := ← column "eof_cond_keys"
      ((states.flatMap State.eofValues).map UInt64.toInt64) .narrowest }

def eofGuards (graph : Graph) : Except EncodingError (Option EofGuardColumns) :=
  if graph.hasEofGuards then some <$> graph.eofGuardColumns else pure none

def eofColumns (graph : Graph) (slots : List (Option Nat)) :
    Except EncodingError (Option EofColumns) :=
  if graph.hasEof then return some {
      actions := ← counts "eof_actions"
        (graph.states.toList.map fun state => graph.location state.eofActions)
      transitions := ← counts "eof_trans" (slots.map fun slot => (slot.map (· + 1)).getD 0)
      guards := ← graph.eofGuards }
  else pure none

/-- The first action list that is not where its predecessors end. -/
def misplaced (id expected : Nat) : List ActionList → Option EncodingError
  | [] => none
  | list :: rest =>
    if list.location.toNat = expected then
      misplaced (id + 1) (expected + 1 + list.actions.length) rest
    else some (.misplacedList id list.location expected)

/-- A zero, then every list as its length and its actions. -/
def actionColumn (graph : Graph) : Except EncodingError Column :=
  match misplaced 0 1 graph.lists.toList with
  | some problem => .error problem
  | none => counts "actions" <|
      0 :: graph.lists.toList.flatMap fun list => list.actions.length :: list.actions

/-- Where the alternates of states start, zero for states without any. -/
def alternateOffsets (start : Nat) : List State → List Nat
  | [] => []
  | state :: rest =>
    if state.alternates.isEmpty then 0 :: alternateOffsets start rest
    else start :: alternateOffsets (start + 1 + state.alternates.length) rest

def alternateCells (graph : Graph) (front : State → Nat) (cell : Alternate → Nat) : List Nat :=
  0 :: graph.states.toList.flatMap fun state =>
    if state.alternates.isEmpty then [] else front state :: state.alternates.map cell

def alternateColumns (graph : Graph) : Except EncodingError (Option AlternateColumns) :=
  if graph.hasAlternates then return some {
      offsets := ← counts "nfa_offsets" (alternateOffsets 1 graph.states.toList)
      targets := ← counts "nfa_targs"
        (graph.alternateCells (fun state => state.alternates.length) Alternate.target)
      pushActions := ← counts "nfa_push_actions"
        (graph.alternateCells (fun _ => 0) fun alternate => graph.location alternate.push)
      popTests := ← counts "nfa_pop_trans"
        (graph.alternateCells (fun _ => 0) fun alternate => graph.location alternate.popTest) }
  else pure none

def encode (graph : Graph) (options : EncodingOptions) : Except EncodingError Encoding := do
  if graph.hasAlternates && !options.alternates then throw .alternatesDisabled
  if graph.hasEof && !options.endOfInput then throw .endOfInputDisabled
  let direct := graph.isDirect options
  let slots := graph.slots direct
  let transitions := slots.transitions.toList
  let outcomes := graph.entries transitions
  return {
    name := graph.name
    alphabet := graph.alphabet
    start := graph.start
    firstFinal := graph.firstFinal
    error := graph.error
    stateCount := graph.states.size
    actions := graph.actions
    spaces := graph.spaces
    usesControl := graph.usesControl
    lookup := ← graph.keyLookup options direct
    transitions := ← graph.transitionColumns direct transitions
    conditions := ← graph.conditionColumns outcomes
    errorEntry := outcomes.length
    toState := ← graph.stateActions "to_state_actions" State.toState
    fromState := ← graph.stateActions "from_state_actions" State.fromState
    eof := ← graph.eofColumns slots.eof
    actionTable := ← graph.actionColumn
    alternates := ← graph.alternateColumns }

end Graph

end StateTables
