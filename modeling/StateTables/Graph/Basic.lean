import StateTables.Alphabet.Basic
import StateTables.Graph.Action
import StateTables.Search

/-! # Reduced graphs

A reduced graph is what encodings lay out as tables. States, actions, action
lists, condition targets and transitions are numbered by position and refer to
each other by number. The error state, if there is one, has number zero;
final states have the highest numbers, from `firstFinal` on.

A transition without a condition space has one outcome with value zero. With a
space its outcomes are ordered by value, and values without an outcome lead into
the error state.
-/

namespace StateTables

/-- Actions executed together, with their place in the table of actions. Place
zero is reserved for "no actions". -/
structure ActionList where
  actions : List Nat
  location : UInt32
deriving DecidableEq, Repr

/-- A location is used as an index. -/
instance indexOfLocation : Coe UInt32 Nat := ⟨UInt32.toNat⟩

/-- A target state and the action list run on the way. -/
structure ConditionTarget where
  target : Nat
  actions : Option Nat
deriving DecidableEq, Repr

/-- What a transition does for one condition value. -/
structure Outcome where
  value : ConditionValue
  condition : Nat
deriving DecidableEq, Repr

structure Transition where
  space : Option Nat
  outcomes : Array Outcome
deriving DecidableEq, Repr

/-- A transition on one key. -/
structure Single where
  key : Key
  transition : Nat
deriving DecidableEq, Repr

/-- A transition on an inclusive interval of keys. -/
structure Range where
  low : Key
  high : Key
  transition : Nat
deriving DecidableEq, Repr

/-- A state the machine may try instead, with the lists run when the alternate
is pushed and when it is popped. -/
structure Alternate where
  target : Nat
  push : Option Nat
  popTest : Option Nat
deriving DecidableEq, Repr

structure State where
  name : String
  final : Bool
  isError : Bool
  singles : Array Single
  ranges : Array Range
  /-- The transition for all other keys. -/
  fallback : Option Nat
  toState : Option Nat
  fromState : Option Nat
  eofActions : Option Nat
  eofTransition : Option Nat
  /-- End-of-input actions run only for these values of the guard's space. -/
  eofGuard : Option Nat
  eofValues : List ConditionValue
  alternates : List Alternate
deriving DecidableEq, Repr

namespace State

def bare (name : String) (final isError : Bool) : State where
  name := name
  final := final
  isError := isError
  singles := #[]
  ranges := #[]
  fallback := none
  toState := none
  fromState := none
  eofActions := none
  eofTransition := none
  eofGuard := none
  eofValues := []
  alternates := []

def hasEof (state : State) : Bool :=
  state.eofActions.isSome || state.eofTransition.isSome || state.eofGuard.isSome

def text (id : Nat) (state : State) : String :=
  "(state " ++ toString id ++ " '" ++ state.name ++ "')"

end State

structure Graph where
  name : String
  alphabet : Alphabet
  states : Array State
  start : Nat
  error : Option Nat
  firstFinal : Int
  actions : Array Action
  lists : Array ActionList
  spaces : Array ConditionSpace
  conditions : Array ConditionTarget
  transitions : Array Transition
  errorTransition : Option Nat
  errorCondition : Option Nat
deriving DecidableEq, Repr

namespace Transition

/-- The outcome for a condition value, by bisection. -/
def lookup (transition : Transition) (value : ConditionValue) : Option Nat :=
  let probe index := match transition.outcomes[index]? with
    | some outcome => compare value outcome.value
    | none => .lt
  (Search.position probe transition.outcomes.size).bind fun index =>
    transition.outcomes[index]?.map Outcome.condition

/-- The only condition target of a transition without a space. -/
def plain? (transition : Transition) : Option Nat :=
  match transition.space, transition.outcomes.toList with
  | none, [outcome] => some outcome.condition
  | _, _ => none

end Transition

namespace State

/-- The transition on a single key, by bisection. -/
def locateSingle (alphabet : Alphabet) (state : State) (key : Key) : Option Nat :=
  let probe index := match state.singles[index]? with
    | some single => alphabet.compare key single.key
    | none => .lt
  (Search.position probe state.singles.size).bind fun index =>
    state.singles[index]?.map Single.transition

def locateRange (alphabet : Alphabet) (state : State) (key : Key) : Option Nat :=
  let probe index := match state.ranges[index]? with
    | some range =>
      if alphabet.below key range.low then .lt
      else if alphabet.above key range.high then .gt
      else .eq
    | none => .lt
  (Search.position probe state.ranges.size).bind fun index =>
    state.ranges[index]?.map Range.transition

/-- The transition on a key: singles first, then ranges, then the fallback. -/
def locate (alphabet : Alphabet) (state : State) (key : Key) : Option Nat :=
  (state.locateSingle alphabet key).or
    ((state.locateRange alphabet key).or state.fallback)

end State

namespace Graph

/-- The place of an action list in the table of actions. -/
def location (graph : Graph) (list : Option Nat) : Nat :=
  match list with
  | none => 0
  | some index => ((graph.lists[index]?.map ActionList.location).getD 0).toNat

/-- The transition of a state on a key. Encodings have to agree with it. -/
def locate (graph : Graph) (state : Nat) (key : Key) : Option Nat :=
  match graph.states[state]? with
  | some state => state.locate graph.alphabet key
  | none => none

def hasAlternates (graph : Graph) : Bool :=
  graph.states.any fun state => !state.alternates.isEmpty

def hasEof (graph : Graph) : Bool :=
  graph.states.any State.hasEof

def hasEofGuards (graph : Graph) : Bool :=
  graph.states.any fun state => state.eofGuard.isSome

def usesControl (graph : Graph) : Bool :=
  graph.actions.any fun action => action.kind.isControl

def findState (graph : Graph) (name : String) : Option Nat :=
  graph.states.findIdx? fun state => state.name == name

def findAction (graph : Graph) (name : String) : Option Action :=
  graph.actions.find? fun action => action.name == name

def listText (graph : Graph) (list : Option Nat) : String :=
  let actions := match list with
    | none => []
    | some index => (graph.lists[index]?.map ActionList.actions).getD []
  let names := actions.map fun action => (graph.actions[action]?.map Action.name).getD ""
  "[" ++ " ".intercalate names ++ "]"

end Graph

end StateTables
