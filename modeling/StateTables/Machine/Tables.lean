import StateTables.Machine.Program

/-! # Reading tables

An encoding as a program: every question a machine asks is answered by reading
the columns. Transitions are numbered by their slots.
-/

namespace StateTables

namespace Column

def read (column : Column) (index : Nat) : Except Fault Int64 :=
  match column.values[index]? with
  | some value => .ok value
  | none => .error (.outsideTable column.name index)

def readIndex (column : Column) (index : Nat) : Except Fault Nat := do
  let value ← column.read index
  match value.toInt with
  | .ofNat number => return number
  | .negSucc _ => throw (.outsideTable column.name value.toInt)

def readRow (column : Column) (start count : Nat) : Except Fault (List Int64) :=
  (List.range count).mapM fun offset => column.read (start + offset)

/-- Some consecutive values, which are to be used as indices. -/
def readIndices (column : Column) (start count : Nat) : Except Fault (List Nat) :=
  (List.range count).mapM fun offset => column.readIndex (start + offset)

end Column

namespace FlatKeys

def entry (keys : FlatKeys) (state : Nat) (distance : Nat) : Except Fault Nat := do
  keys.indices.readIndex ((← keys.indexOffsets.readIndex state) + distance)

def locateByClass (keys : FlatKeys) (alphabet : Alphabet) (classes : Column)
    (envelope : KeyInterval) (state : Nat) (key : Key) : Except Fault Nat := do
  if (← keys.keySpans.read state) = 0 || alphabet.below key envelope.low ||
      alphabet.above key envelope.high then
    keys.indexDefaults.readIndex state
  else
    let number ← classes.readIndex (envelope.low.distance key).toNat
    let low ← keys.transKeys.readIndex (2 * state)
    let high ← keys.transKeys.readIndex (2 * state + 1)
    if number < low || high < number then keys.indexDefaults.readIndex state
    else keys.entry state (number - low)

def locateByKey (keys : FlatKeys) (alphabet : Alphabet) (state : Nat) (key : Key) :
    Except Fault Nat := do
  let low : Key := ⟨← keys.transKeys.read (2 * state)⟩
  let high : Key := ⟨← keys.transKeys.read (2 * state + 1)⟩
  if (← keys.keySpans.read state) = 0 || alphabet.below key low || alphabet.above key high then
    keys.indexDefaults.readIndex state
  else keys.entry state (low.distance key).toNat

def locate (keys : FlatKeys) (alphabet : Alphabet) (state : Nat) (key : Key) :
    Except Fault Nat :=
  match keys.classMap with
  | some ⟨classes, some envelope⟩ =>
    keys.locateByClass alphabet classes envelope state key
  | some ⟨_, none⟩ => keys.indexDefaults.readIndex state
  | none => keys.locateByKey alphabet state key

end FlatKeys

namespace BinaryKeys

def probeSingle (keys : BinaryKeys) (alphabet : Alphabet) (start : Nat) (key : Key)
    (index : Nat) : Except Fault Ordering := do
  return alphabet.compare key ⟨← keys.transKeys.read (start + index)⟩

def probeRange (keys : BinaryKeys) (alphabet : Alphabet) (start : Nat) (key : Key)
    (index : Nat) : Except Fault Ordering := do
  if alphabet.below key ⟨← keys.transKeys.read (start + 2 * index)⟩ then return .lt
  if alphabet.above key ⟨← keys.transKeys.read (start + 2 * index + 1)⟩ then return .gt
  return .eq

/-- The position of a key in the row of a state: among the singles, among the
ranges, or behind them. -/
def position (keys : BinaryKeys) (alphabet : Alphabet) (state : Nat) (key : Key) :
    Except Fault Nat := do
  let start ← keys.keyOffsets.readIndex state
  let singles ← keys.singleLengths.readIndex state
  let ranges ← keys.rangeLengths.readIndex state
  match ← Search.bisect (keys.probeSingle alphabet start key) 0 singles with
  | some index => return index
  | none => match ← Search.bisect (keys.probeRange alphabet (start + singles) key) 0 ranges with
    | some index => return singles + index
    | none => return singles + ranges

def locate (keys : BinaryKeys) (alphabet : Alphabet) (state : Nat) (key : Key) :
    Except Fault Nat := do
  let position ← keys.position alphabet state key
  let entry := (← keys.indexOffsets.readIndex state) + position
  match keys.indices with
  | some indices => indices.readIndex entry
  | none => return entry

end BinaryKeys

def KeyLookup.locate (alphabet : Alphabet) (lookup : KeyLookup) (state : Nat) (key : Key) :
    Except Fault Nat :=
  match lookup with
  | .flat keys => keys.locate alphabet state key
  | .binary keys => keys.locate alphabet state key
  | .switch states =>
    match states[state]? with
    | none => .error (.outsideTable "switch" state)
    | some cases => match cases.lookup alphabet key with
      | some slot => .ok slot
      | none => .error (.noTransition state key)

namespace Encoding

def spaceOf (encoding : Encoding) (slot : Nat) : Except Fault (Option Nat) := do
  match (← encoding.transitions.spaces.read slot).toInt with
  | .ofNat space => return some space
  | .negSucc _ => return none

def moveAt (encoding : Encoding) (entry : Nat) : Except Fault Move :=
  return ⟨← encoding.conditions.targets.readIndex entry,
    ← encoding.conditions.actions.readIndex entry⟩

/-- The entry of a slot for a condition value, by bisection. A value without an
entry leads to the error entry. -/
def entryFor (encoding : Encoding) (slot : Nat) (value : ConditionValue) :
    Except Fault Nat := do
  let start ← encoding.transitions.offsets.readIndex slot
  let count ← encoding.transitions.lengths.readIndex slot
  let probe index := do
    return Ord.compare value.toInt64 (← encoding.conditions.keys.read index)
  return (← Search.bisect probe start (start + count)).getD encoding.errorEntry

/-- The actions at a place: a length, then as many actions. -/
def actionsAt (encoding : Encoding) (location : Nat) : Except Fault (List Nat) := do
  encoding.actionTable.readIndices (location + 1) (← encoding.actionTable.readIndex location)

/-- The place of the actions of a state; zero without the column. -/
def stateActions (column : Option Column) (state : Nat) : Except Fault Nat :=
  match column with
  | some column => column.readIndex state
  | none => .ok 0

def eofTransition (encoding : Encoding) (state : Nat) : Except Fault (Option Nat) :=
  match encoding.eof with
  | none => .ok none
  | some columns => do
    match ← columns.transitions.readIndex state with
    | 0 => return none
    | slot + 1 => return some slot

def eofGuard (encoding : Encoding) (state : Nat) :
    Except Fault (Option (Nat × List ConditionValue)) :=
  match encoding.eof.bind EofColumns.guards with
  | none => .ok none
  | some columns => do
    match (← columns.spaces.read state).toInt with
    | .negSucc _ => return none
    | .ofNat space =>
      let values ← columns.keys.readRow (← columns.offsets.readIndex state)
        (← columns.lengths.readIndex state)
      return some (space, values.map Int64.toUInt64)

/-- The alternates of a state, which follow a cell with their number. -/
def alternatesOf (columns : AlternateColumns) (state : Nat) :
    Except Fault (List PendingMove) := do
  match ← columns.offsets.readIndex state with
  | 0 => return []
  | offset =>
    let count ← columns.targets.readIndex offset
    (List.range count).mapM fun index => return {
      target := ← columns.targets.readIndex (offset + 1 + index)
      push := ← columns.pushActions.readIndex (offset + 1 + index)
      popTest := ← columns.popTests.readIndex (offset + 1 + index) }

def program (encoding : Encoding) : Program where
  name := encoding.name
  alphabet := encoding.alphabet
  start := encoding.start
  firstFinal := encoding.firstFinal
  error := encoding.error
  actions := encoding.actions
  spaces := encoding.spaces
  usesControl := encoding.usesControl
  locate := encoding.lookup.locate encoding.alphabet
  spaceOf := encoding.spaceOf
  plainMove slot := do encoding.moveAt (← encoding.transitions.offsets.readIndex slot)
  guardedMove slot value := do encoding.moveAt (← encoding.entryFor slot value)
  actionsAt := encoding.actionsAt
  toState := stateActions encoding.toState
  fromState := stateActions encoding.fromState
  eofActions := stateActions (encoding.eof.map EofColumns.actions)
  eofTransition := encoding.eofTransition
  eofGuard := encoding.eofGuard
  alternates state := match encoding.alternates with
    | some columns => alternatesOf columns state
    | none => .ok []

end Encoding

end StateTables
