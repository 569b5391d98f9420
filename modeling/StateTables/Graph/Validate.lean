import StateTables.Graph.Error

/-! # Validation

The properties of a graph encodings rely on: singles and ranges ascend and do
not overlap, every key of the alphabet has a transition, final states come last,
no from-state action holds back the key, end-of-input transitions do not loop,
and condition values ascend within their space.
-/

namespace StateTables.Graph

/-- The first position at which a row of adjacent entries is out of order. -/
def firstDisorder {α : Type} (ordered : α → α → Bool) (index : Nat) : List α → Option Nat
  | first :: second :: rest =>
    if ordered first second then firstDisorder ordered (index + 1) (second :: rest)
    else some index
  | _ => none

def checkRanges (alphabet : Alphabet) (state : String) (index : Nat) (previous : Option Range) :
    List Range → Except GraphError Unit
  | [] => .ok ()
  | range :: rest =>
    if alphabet.above range.low range.high then .error (.invertedRange state index)
    else match previous with
      | some before =>
        if alphabet.below before.high range.low then
          checkRanges alphabet state (index + 1) (some range) rest
        else .error (.rangesOverlap state index)
      | none => checkRanges alphabet state (index + 1) (some range) rest

def inRange (alphabet : Alphabet) (range : Range) (key : Key) : Bool :=
  alphabet.atLeast key range.low && alphabet.atMost key range.high

/-- The number of keys that singles and ranges of a state claim, modulo 2^64. -/
def coveredKeys (alphabet : Alphabet) (state : State) : UInt64 :=
  state.ranges.foldl (fun count range => count + alphabet.span range.low range.high)
    (UInt64.ofNat state.singles.size)

def findKind (graph : Graph) (kind : ActionKind) (list : Option Nat) : Option Action :=
  let actions := match list with
    | none => []
    | some index => (graph.lists[index]?.map ActionList.actions).getD []
  (actions.filterMap fun action => graph.actions[action]?).find? fun action =>
    action.kind == kind

def checkState (graph : Graph) (id : Nat) (state : State) : Except GraphError Unit := do
  let alphabet := graph.alphabet
  let text := state.text id
  if state.final != decide (graph.firstFinal ≤ id) then
    throw (.finalOrder text graph.firstFinal)
  if let some index := firstDisorder (fun first second =>
      alphabet.below first.key second.key) 1 state.singles.toList then
    throw (.singlesOrder text index)
  checkRanges alphabet text 0 none state.ranges.toList
  if let some single := state.singles.find? fun single =>
      state.ranges.any fun range => inRange alphabet range single.key then
    throw (.singleWithinRange text (alphabet.decimal single.key))
  if state.fallback.isNone &&
      coveredKeys alphabet state != alphabet.span alphabet.low alphabet.high then
    throw (.uncovered text)
  if let some action := graph.findKind .hold state.fromState then
    throw (.heldFromState text action.name)

/-- The states a condition target may lead to: its own, and those its actions
jump to. -/
def targetsOf (graph : Graph) (condition : Nat) : List Nat :=
  match graph.conditions[condition]? with
  | none => []
  | some condition =>
    let actions := match condition.actions with
      | none => []
      | some index => (graph.lists[index]?.map ActionList.actions).getD []
    condition.target :: actions.filterMap fun action =>
      graph.actions[action]?.bind Action.target

/-- The states an end-of-input transition of a state may lead to. -/
def eofSuccessors (graph : Graph) (state : Nat) : List Nat :=
  match (graph.states[state]?.bind State.eofTransition).bind fun transition =>
      graph.transitions[transition]? with
  | none => []
  | some transition =>
    transition.outcomes.toList.flatMap fun outcome => graph.targetsOf outcome.condition

/-- Depth-first search along end-of-input transitions. `active` are the states
on the current path, `done` those known to lead into no cycle. The result is a
state met twice on a path, or the states that are done. The depth of the search
is bounded by the states not on the path. -/
def visitEof (graph : Graph) : (fuel : Nat) → (active done : List Nat) → (state : Nat) →
    Except Nat (List Nat)
  | 0, _, done, _ => .ok done
  | fuel + 1, active, done, state =>
    if active.contains state then .error state
    else if done.contains state then .ok done
    else do
      let done ← (graph.eofSuccessors state).foldlM
        (fun done successor => visitEof graph fuel (state :: active) done successor) done
      return state :: done

/-- A state on a cycle of end-of-input transitions. -/
def eofCycle (graph : Graph) : Option Nat :=
  let search := (List.range graph.states.size).foldlM
    (fun done state => visitEof graph (graph.states.size + 1) [] done state) []
  match search with
  | .error state => some state
  | .ok _ => none

def checkOutcomes (id : Nat) (space : ConditionSpace) (previous : Option ConditionValue) :
    List Outcome → Except GraphError Unit
  | [] => .ok ()
  | outcome :: rest =>
    if space.combinations ≤ outcome.value then
      .error (.outcomeOutsideSpace id outcome.value space)
    else match previous with
      | some value =>
        if outcome.value ≤ value then .error (.outcomeOrder id)
        else checkOutcomes id space (some outcome.value) rest
      | none => checkOutcomes id space (some outcome.value) rest

def checkTransition (graph : Graph) (id : Nat) (transition : Transition) :
    Except GraphError Unit :=
  match transition.space.bind fun space => graph.spaces[space]? with
  | none =>
    match transition.outcomes.toList with
    | [⟨0, _⟩] => .ok ()
    | _ => .error (.plainOutcomes id transition.outcomes.size)
  | some space => checkOutcomes id space none transition.outcomes.toList

def checkEach {α : Type} (check : Nat → α → Except GraphError Unit) (index : Nat) :
    List α → Except GraphError Unit
  | [] => .ok ()
  | part :: rest =>
    match check index part with
    | .error problem => .error problem
    | .ok () => checkEach check (index + 1) rest

/-- Check the whole graph; the first violation is the result. -/
def validate (graph : Graph) : Except GraphError Unit := do
  checkEach graph.checkState 0 graph.states.toList
  if let some state := graph.eofCycle then
    throw (.eofCycle ((graph.states[state]?.map (State.text state)).getD ""))
  checkEach graph.checkTransition 0 graph.transitions.toList

end StateTables.Graph
