import StateTables.Encoding.KeyClass
import StateTables.Encoding.Options
import StateTables.Encoding.RangeTree
import StateTables.Table.Column

/-! # Encodings

An encoding is a graph laid out as integer columns, with what a driver needs to
know beside them. Transitions are addressed by slots. A slot has a condition
space, and an offset and a length that delimit its entries in the condition
columns. Behind all entries stands one more, which leads into the error state;
a failed search for a condition value ends there.
-/

namespace StateTables

/-- The mapping of keys to classes, which starts at the low key of the
envelope. -/
structure ClassMap where
  column : Column
  /-- Absent if no state claims a key. -/
  envelope : Option KeyInterval
deriving DecidableEq, Repr

/-- A dense row per state. Keys outside of the row of a state take its default;
keys inside index the row, directly or through their class. -/
structure FlatKeys where
  classMap : Option ClassMap
  transKeys : Column
  keySpans : Column
  indexOffsets : Column
  indices : Column
  indexDefaults : Column
deriving DecidableEq, Repr

/-- Sorted singles, then pairs of range bounds per state. The row of a state has
an entry per single, one per range and one for the fallback. -/
structure BinaryKeys where
  keyOffsets : Column
  singleLengths : Column
  rangeLengths : Column
  indexOffsets : Column
  transKeys : Column
  /-- The slots of row entries. Without it a row entry is a slot itself. -/
  indices : Option Column
deriving DecidableEq, Repr

inductive KeyLookup where
  | flat (keys : FlatKeys)
  | binary (keys : BinaryKeys)
  | switch (states : Array SwitchState)
deriving DecidableEq, Repr

structure TransitionColumns where
  spaces : Column
  offsets : Column
  lengths : Column
deriving DecidableEq, Repr

structure ConditionColumns where
  keys : Column
  targets : Column
  actions : Column
deriving DecidableEq, Repr

structure EofGuardColumns where
  spaces : Column
  offsets : Column
  lengths : Column
  keys : Column
deriving DecidableEq, Repr

/-- End-of-input transitions are stored as their slot plus one; zero stands for
none. -/
structure EofColumns where
  actions : Column
  transitions : Column
  guards : Option EofGuardColumns
deriving DecidableEq, Repr

/-- The offset of a state points to a cell with the number of its alternates,
which the alternates follow. Offset zero stands for none. -/
structure AlternateColumns where
  offsets : Column
  targets : Column
  pushActions : Column
  popTests : Column
deriving DecidableEq, Repr

structure Encoding where
  name : String
  alphabet : Alphabet
  start : Nat
  firstFinal : Int
  error : Option Nat
  stateCount : Nat
  actions : Array Action
  spaces : Array ConditionSpace
  usesControl : Bool
  lookup : KeyLookup
  transitions : TransitionColumns
  conditions : ConditionColumns
  /-- The condition entry that leads into the error state. -/
  errorEntry : Nat
  toState : Option Column
  fromState : Option Column
  eof : Option EofColumns
  actionTable : Column
  alternates : Option AlternateColumns
deriving DecidableEq, Repr

namespace KeyLookup

def kind : KeyLookup → EncodingKind
  | .flat _ => .flat
  | .binary _ => .binary
  | .switch _ => .switch

def columns : KeyLookup → List Column
  | .flat keys => (keys.classMap.map ClassMap.column).toList ++
      [keys.transKeys, keys.keySpans, keys.indexOffsets, keys.indices, keys.indexDefaults]
  | .binary keys =>
      [keys.keyOffsets, keys.singleLengths, keys.rangeLengths, keys.indexOffsets,
        keys.transKeys] ++ keys.indices.toList
  | .switch _ => []

/-- Are transitions laid out per row entry, not once each? -/
def isDirect : KeyLookup → Bool
  | .binary keys => keys.indices.isNone
  | _ => false

end KeyLookup

/-- The name of a transition column. Columns laid out per row entry are told
apart by a suffix. -/
def transitionColumnName (direct : Bool) (base : String) : String :=
  if direct then base ++ "_wi" else base

namespace Encoding

def kind (encoding : Encoding) : EncodingKind :=
  encoding.lookup.kind

def usesIndices (encoding : Encoding) : Bool :=
  match encoding.lookup with
  | .binary keys => keys.indices.isSome
  | _ => false

def classMap? (encoding : Encoding) : Option ClassMap :=
  match encoding.lookup with
  | .flat keys => keys.classMap
  | _ => none

def hasEof (encoding : Encoding) : Bool :=
  encoding.eof.isSome

def hasEofGuards (encoding : Encoding) : Bool :=
  (encoding.eof.bind EofColumns.guards).isSome

def hasAlternates (encoding : Encoding) : Bool :=
  encoding.alternates.isSome

def columns (encoding : Encoding) : List Column :=
  let guards := fun (columns : EofGuardColumns) =>
    [columns.spaces, columns.offsets, columns.lengths, columns.keys]
  let eof := fun (columns : EofColumns) =>
    [columns.actions, columns.transitions] ++ (columns.guards.map guards).getD []
  let alternates := fun (columns : AlternateColumns) =>
    [columns.offsets, columns.targets, columns.pushActions, columns.popTests]
  encoding.lookup.columns ++
    [encoding.transitions.spaces, encoding.transitions.offsets, encoding.transitions.lengths,
      encoding.conditions.keys, encoding.conditions.targets, encoding.conditions.actions] ++
    encoding.toState.toList ++ encoding.fromState.toList ++
    (encoding.eof.map eof).getD [] ++ [encoding.actionTable] ++
    (encoding.alternates.map alternates).getD []

def column? (encoding : Encoding) (name : String) : Option Column :=
  encoding.columns.find? fun column => column.name == name

def transitionColumn (encoding : Encoding) (base : String) : String :=
  transitionColumnName encoding.lookup.isDirect base

structure Size where
  columns : Nat
  values : Nat
  bytes : Nat
deriving DecidableEq, Repr

def size (encoding : Encoding) : Size where
  columns := encoding.columns.length
  values := (encoding.columns.map fun column => column.values.size).foldl (· + ·) 0
  bytes := (encoding.columns.map Column.storedBytes).foldl (· + ·) 0

end Encoding

/-- Why a graph has no encoding. A graph that was built from a draft does not run
into `desynchronized`, `noSlot` or `outsideClasses`. -/
inductive EncodingError where
  | alternatesDisabled
  | endOfInputDisabled
  | classSpan (keys : UInt64)
  | stateSpan (state : Nat) (keys : UInt64)
  /-- A column has more values, or larger ones, than can be addressed. -/
  | oversized (column : String)
  | desynchronized (column : String) (difference : Column.Desync)
  | noSlot (transition : Nat)
  | outsideClasses (key : Key)
  /-- An action list lies so far behind that its location does not say where. -/
  | misplacedList (list : Nat) (location : UInt32) (expected : Nat)
deriving DecidableEq, Repr

def EncodingError.failure (graph : String) : EncodingError → Failure
  | .alternatesDisabled => .because .alternatesDisabled graph
  | .endOfInputDisabled => .because .endOfInputDisabled graph
  | .classSpan keys => .because .spanTooLarge s!"{graph}: char_class spans {keys} keys"
  | .stateSpan state keys => .because .spanTooLarge s!"{graph}: state {state} spans {keys} keys"
  | .oversized column => .plain s!"{graph}: column {column} cannot be addressed"
  | .desynchronized column difference => difference.failure column
  | .noSlot transition => .plain s!"{graph}: transition {transition} has no slot"
  | .outsideClasses key =>
    .plain (graph ++ ": key " ++ toString key.signedValue ++ " outside classes")
  | .misplacedList list location expected =>
    .plain s!"{graph}: action list {list} at location {location}, expected {expected}"

end StateTables
