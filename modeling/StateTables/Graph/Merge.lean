import StateTables.Graph.Basic

/-! # Merging duplicates

Actions that do the same are merged, and with them the action lists, condition
targets and transitions that become equal. Merged parts keep the number of the
first of them. Finally every action list gets its place in the table of actions,
where it occupies a cell for its length and one per action.
-/

namespace StateTables.Graph

/-- What makes two actions the same: a text of all that an action does. An
action without code is dispatched by name, so the name is part of it then. The
code and the name stand in the text as they are, so a code that spells out the
end of the text can make two actions the same. -/
def fingerprint (action : Action) : String :=
  let name := if action.code.isEmpty then action.name else ""
  let target := match action.target with
    | some target => toString target
    | none => "-1"
  "\x7bCode:\"" ++ action.code ++ "\",Kind:" ++ toString (ActionKind.all.idxOf action.kind) ++
    ",Name:\"" ++ name ++ "\",Target:" ++ target ++ "\x7d"

/-- The number of the first action that does the same. -/
def canonicalAction (graph : Graph) (action : Nat) : Nat :=
  match graph.actions[action]? with
  | some subject =>
    (graph.actions.findIdx? fun other => fingerprint other = fingerprint subject).getD action
  | none => action

def renumber (numbers : Array Nat) (number : Nat) : Nat :=
  (numbers[number]?).getD number

/-- Places of consecutive action lists, the first at a given location. Behind the
last location the count goes on with zero. -/
def placeLists (location : UInt32) : List (List Nat) → List ActionList
  | [] => []
  | actions :: rest =>
    ⟨actions, location⟩ :: placeLists (location + UInt32.ofNat (1 + actions.length)) rest

def mergeState (lists transitions : Array Nat) (state : State) : State :=
  { state with
    singles := state.singles.map fun single =>
      { single with transition := renumber transitions single.transition }
    ranges := state.ranges.map fun range =>
      { range with transition := renumber transitions range.transition }
    fallback := state.fallback.map (renumber transitions)
    eofTransition := state.eofTransition.map (renumber transitions)
    toState := state.toState.map (renumber lists)
    fromState := state.fromState.map (renumber lists)
    eofActions := state.eofActions.map (renumber lists)
    alternates := state.alternates.map fun alternate =>
      { alternate with
        push := alternate.push.map (renumber lists)
        popTest := alternate.popTest.map (renumber lists) } }

/-- Merge all duplicates. The actions themselves keep their numbers. -/
def mergeDuplicates (graph : Graph) : Graph :=
  let (lists, listNumbers) := Search.distinct <|
    graph.lists.map fun list => list.actions.map graph.canonicalAction
  let (conditions, conditionNumbers) := Search.distinct <|
    graph.conditions.map fun condition =>
      { condition with actions := condition.actions.map (renumber listNumbers) }
  let (transitions, transitionNumbers) := Search.distinct <|
    graph.transitions.map fun transition =>
      { transition with outcomes := transition.outcomes.map fun outcome =>
          { outcome with condition := renumber conditionNumbers outcome.condition } }
  { graph with
    lists := (placeLists 1 lists.toList).toArray
    conditions := conditions
    transitions := transitions
    states := graph.states.map (mergeState listNumbers transitionNumbers)
    errorTransition := graph.errorTransition.map (renumber transitionNumbers)
    errorCondition := graph.errorCondition.map (renumber conditionNumbers) }

end StateTables.Graph
