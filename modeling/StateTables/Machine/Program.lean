import StateTables.Encoding.Layout

/-! # Programs

A program is what a machine executes: for every state and key the way to go on,
and the actions, alternates and end-of-input behaviour of states. Ways to go on
are told apart by numbers, action lists by their places in the table of actions.
A graph is a program as it stands; its encodings are programs that read tables.
-/

namespace StateTables

/-- What a machine cannot go on after. -/
inductive Fault where
  /-- A read outside of a table. -/
  | outsideTable (table : String) (index : Int)
  /-- A read of a key outside of the chunk. -/
  | outsideChunk (position : Int)
  /-- A key without a transition. -/
  | noTransition (state : Nat) (key : Key)
  /-- Too many pending alternates, where that is not to be survived. -/
  | alternateOverflow (state : Nat) (position : Int)
  /-- The fuel given for a scan ran out. -/
  | outOfFuel
deriving DecidableEq, Repr

/-- The state a transition leads to and the place of the actions run on the
way. -/
structure Move where
  target : Nat
  actions : Nat
deriving DecidableEq, Repr

/-- An alternate with the places of its actions. -/
structure PendingMove where
  target : Nat
  push : Nat
  popTest : Nat
deriving DecidableEq, Repr

structure Program where
  name : String
  alphabet : Alphabet
  start : Nat
  firstFinal : Int
  error : Option Nat
  actions : Array Action
  spaces : Array ConditionSpace
  usesControl : Bool
  /-- The transition for a state and a key. -/
  locate : Nat → Key → Except Fault Nat
  /-- The condition space of a transition. -/
  spaceOf : Nat → Except Fault (Option Nat)
  /-- What a transition without a condition space does. -/
  plainMove : Nat → Except Fault Move
  /-- What a transition does for a condition value. -/
  guardedMove : Nat → ConditionValue → Except Fault Move
  /-- The actions at a place. -/
  actionsAt : Nat → Except Fault (List Nat)
  toState : Nat → Except Fault Nat
  fromState : Nat → Except Fault Nat
  eofActions : Nat → Except Fault Nat
  eofTransition : Nat → Except Fault (Option Nat)
  /-- The space and the values that guard the end-of-input actions of a state. -/
  eofGuard : Nat → Except Fault (Option (Nat × List ConditionValue))
  alternates : Nat → Except Fault (List PendingMove)

namespace Graph

def part {α : Type} (table : String) (parts : Array α) (index : Nat) : Except Fault α :=
  match parts[index]? with
  | some found => .ok found
  | none => .error (.outsideTable table index)

def moveOf (graph : Graph) (condition : Nat) : Except Fault Move := do
  let condition ← part "conditions" graph.conditions condition
  return ⟨condition.target, graph.location condition.actions⟩

/-- The actions at a place, found among the lists of the graph. -/
def actionsAt (graph : Graph) (location : Nat) : Except Fault (List Nat) :=
  match graph.lists.find? fun list => list.location.toNat = location with
  | some list => .ok list.actions
  | none => if location = 0 then .ok [] else .error (.outsideTable "actions" location)

/-- The graph executed as it stands. A condition value a transition does not
list leads into the error state without actions. -/
def program (graph : Graph) : Program where
  name := graph.name
  alphabet := graph.alphabet
  start := graph.start
  firstFinal := graph.firstFinal
  error := graph.error
  actions := graph.actions
  spaces := graph.spaces
  usesControl := graph.usesControl
  locate state key := match graph.locate state key with
    | some transition => .ok transition
    | none => .error (.noTransition state key)
  spaceOf transition := Transition.space <$> part "transitions" graph.transitions transition
  plainMove transition := do
    let transition ← part "transitions" graph.transitions transition
    let outcome ← part "outcomes" transition.outcomes 0
    graph.moveOf outcome.condition
  guardedMove transition value := do
    let transition ← part "transitions" graph.transitions transition
    match transition.lookup value with
    | some condition => graph.moveOf condition
    | none => return ⟨graph.error.getD 0, 0⟩
  actionsAt := graph.actionsAt
  toState state := (fun state => graph.location state.toState) <$>
    part "states" graph.states state
  fromState state := (fun state => graph.location state.fromState) <$>
    part "states" graph.states state
  eofActions state := (fun state => graph.location state.eofActions) <$>
    part "states" graph.states state
  eofTransition state := State.eofTransition <$> part "states" graph.states state
  eofGuard state := (fun state => state.eofGuard.map fun space => (space, state.eofValues)) <$>
    part "states" graph.states state
  alternates state := (fun state => state.alternates.map fun alternate =>
      ⟨alternate.target, graph.location alternate.push, graph.location alternate.popTest⟩) <$>
    part "states" graph.states state

end Graph

end StateTables
