import StateTables.Graph.Draft
import StateTables.Graph.Merge
import StateTables.Graph.Validate

/-! # Building graphs from drafts

States are numbered: the error state first, if one is needed, then the states
that are not final, then the final ones, each in order of declaration. Equal
action lists, condition targets and transitions are shared. Duplicates are then
merged and the result is validated.
-/

namespace StateTables

namespace Draft

/-- Do intervals leave keys of the alphabet unclaimed, `expected` being the
lowest key not yet passed? -/
def hasGap (alphabet : Alphabet) (expected : Key) : List Claim → Bool
  | [] => true
  | claim :: rest =>
    if claim.low ≠ expected then true
    else if claim.high = alphabet.high then false
    else hasGap alphabet claim.high.successor rest

/-- Does a state have keys without a transition of its own? -/
def leavesGap (draft : Draft) (state : StateDraft) : Bool :=
  state.fallback.isNone && hasGap draft.alphabet draft.alphabet.low state.claims

def reachesError (branch : Branch) : Bool :=
  (branch.space.any fun space =>
    UInt64.ofNat branch.outcomes.length < space.combinations) ||
    branch.outcomes.any fun outcome => outcome.target.state.isEmpty

def branches (state : StateDraft) : List Branch :=
  state.fallback.toList ++ state.eofBranch.toList ++ state.claims.map Claim.branch

def needsError (draft : Draft) : Bool :=
  draft.errorRequired || draft.states.any fun state =>
    draft.leavesGap state || (branches state).any reachesError

/-- The declared states in the order of their numbers. -/
def numbered (draft : Draft) : List StateDraft :=
  draft.states.toList.filter (fun state => !state.final) ++
    draft.states.toList.filter fun state => state.final

def firstNumber (draft : Draft) : Nat :=
  if draft.needsError then 1 else 0

def errorNumber? (draft : Draft) : Option Nat :=
  if draft.needsError then some 0 else none

def stateNumber? (draft : Draft) (name : String) : Option Nat :=
  (draft.numbered.findIdx? fun state => state.name == name).map (· + draft.firstNumber)

def targetNumber? (draft : Draft) (target : Target) : Option Nat :=
  if target.state.isEmpty then draft.errorNumber? else draft.stateNumber? target.state

def actionNumber? (draft : Draft) (name : String) : Option Nat :=
  draft.actions.findIdx? fun action => action.name == name

def actionOf (draft : Draft) (action : ActionDraft) : Action where
  name := action.name
  kind := action.kind
  code := action.code
  target := if action.target.isEmpty then none else draft.stateNumber? action.target

def unknownTargets (draft : Draft) : List GraphError :=
  draft.actions.toList.filterMap fun action =>
    if action.target.isEmpty || (draft.stateNumber? action.target).isSome then none
    else some (.unknownTarget action.name action.target)

/-! ## Sharing -/

/-- The parts shared so far. -/
structure Pool where
  lists : Array (List Nat)
  conditions : Array ConditionTarget
  transitions : Array Transition
deriving DecidableEq, Repr

namespace Pool

def empty : Pool :=
  ⟨#[], #[], #[]⟩

def addList (actions : List Nat) : StateM Pool (Option Nat) := fun pool =>
  if actions.isEmpty then (none, pool)
  else
    let (lists, number) := Search.intern pool.lists actions
    (some number, { pool with lists := lists })

def addCondition (condition : ConditionTarget) : StateM Pool Nat := fun pool =>
  let (conditions, number) := Search.intern pool.conditions condition
  (number, { pool with conditions := conditions })

def addTransition (transition : Transition) : StateM Pool Nat := fun pool =>
  let (transitions, number) := Search.intern pool.transitions transition
  (number, { pool with transitions := transitions })

end Pool

def shareList (draft : Draft) (names : List String) : StateM Pool (Option Nat) :=
  Pool.addList (names.filterMap draft.actionNumber?)

/-- Put an outcome among others in the order of their values. -/
def insertOutcome (outcome : Outcome) : List Outcome → List Outcome
  | [] => [outcome]
  | other :: rest =>
    if outcome.value < other.value then outcome :: other :: rest
    else other :: insertOutcome outcome rest

def shareOutcome (draft : Draft) (outcome : OutcomeDraft) : StateM Pool Outcome := do
  let actions ← draft.shareList outcome.target.actions
  let target := (draft.targetNumber? outcome.target).getD 0
  return ⟨outcome.value, ← Pool.addCondition ⟨target, actions⟩⟩

def shareBranch (draft : Draft) (branch : Branch) : StateM Pool Nat := do
  let outcomes ← branch.outcomes.mapM draft.shareOutcome
  let sorted := outcomes.foldl (fun sorted outcome => insertOutcome outcome sorted) []
  Pool.addTransition ⟨branch.space.map ConditionSpace.id, sorted.toArray⟩

def shareBranch? (draft : Draft) (otherwise : Option Nat) : Option Branch → StateM Pool (Option Nat)
  | some branch => some <$> draft.shareBranch branch
  | none => return otherwise

def shareAlternate (draft : Draft) (alternate : AlternateDraft) : StateM Pool Alternate := do
  let push ← draft.shareList alternate.push
  let popTest ← draft.shareList alternate.popTest
  return ⟨(draft.stateNumber? alternate.state).getD 0, push, popTest⟩

/-- The finished state of a draft. Singles are the intervals of one key. -/
def shareState (draft : Draft) (errorTransition : Option Nat) (state : StateDraft) :
    StateM Pool State := do
  let claims ← state.claims.mapM fun claim => return (claim, ← draft.shareBranch claim.branch)
  let fallback ← draft.shareBranch?
    (if draft.leavesGap state then errorTransition else none) state.fallback
  let toState ← draft.shareList state.toState
  let fromState ← draft.shareList state.fromState
  let eofActions ← draft.shareList state.eofActions
  let eofTransition ← draft.shareBranch? none state.eofBranch
  let alternates ← state.alternates.mapM draft.shareAlternate
  return {
    name := state.name
    final := state.final
    isError := false
    singles := (claims.filterMap fun (claim, transition) =>
      if claim.low = claim.high then some ⟨claim.low, transition⟩ else none).toArray
    ranges := (claims.filterMap fun (claim, transition) =>
      if claim.low = claim.high then none
      else some ⟨claim.low, claim.high, transition⟩).toArray
    fallback, toState, fromState, eofActions, eofTransition
    eofGuard := state.eofGuard.map ConditionSpace.id
    eofValues := if state.eofGuard.isSome then state.eofValues else []
    alternates }

def shareError (draft : Draft) : StateM Pool (Option (Nat × Nat)) := do
  match draft.errorNumber? with
  | none => return none
  | some error =>
    let condition ← Pool.addCondition ⟨error, none⟩
    let transition ← Pool.addTransition ⟨none, #[⟨0, condition⟩]⟩
    return some (condition, transition)

def errorState (transition : Nat) : State :=
  { State.bare "error" false true with fallback := some transition }

def shareAll (draft : Draft) : StateM Pool (Option (Nat × Nat) × List State) := do
  let error ← draft.shareError
  let states ← draft.states.toList.mapM (draft.shareState (error.map Prod.snd))
  return (error, states)

/-- The graph of a draft before duplicates are merged. -/
def assemble (draft : Draft) : Graph :=
  let ((error, states), pool) := draft.shareAll.run Pool.empty
  let errorStates := (error.map fun (_, transition) => errorState transition).toList
  let plainStates := states.filter fun state => !state.final
  let finalStates := states.filter fun state => state.final
  { name := draft.name
    alphabet := draft.alphabet
    states := (errorStates ++ plainStates ++ finalStates).toArray
    start := (draft.stateNumber? draft.start).getD 0
    error := draft.errorNumber?
    firstFinal := (errorStates ++ plainStates).length
    actions := draft.actions.map draft.actionOf
    lists := pool.lists.map fun actions => ⟨actions, 0⟩
    spaces := draft.spaces
    conditions := pool.conditions
    transitions := pool.transitions
    errorTransition := error.map Prod.snd
    errorCondition := error.map Prod.fst }

/-- Build the graph. All problems found are reported together; those of the
draft stay with it and are reported again by the next attempt. -/
def build (draft : Draft) : Draft × Except (List GraphError) Graph :=
  let draft := if draft.start.isEmpty then draft.reject .noStart else draft
  if !draft.errors.isEmpty then (draft, .error draft.errors)
  else
    let draft := draft.unknownTargets.foldl reject draft
    if !draft.errors.isEmpty then (draft, .error draft.errors)
    else
      let graph := draft.assemble.mergeDuplicates
      match graph.validate with
      | .error problem => (draft, .error [problem])
      | .ok () => (draft, .ok graph)

end Draft

def GraphError.gather (problems : List GraphError) : Failure :=
  .gather (problems.map GraphError.failure)

end StateTables
