import StateTables.Graph.Error

/-! # Drafts

A draft collects the description of a graph: states, actions, condition spaces
and what states do on keys and at the end of input. States and actions come
into being when they are first mentioned. Problems do not stop the drafting;
they are collected and reported when the graph is built.
-/

namespace StateTables

/-- Where a transition leads and which actions it executes. The empty name
stands for the error state. -/
structure Target where
  state : String
  actions : List String
deriving DecidableEq, Repr

/-- The target for one condition value. -/
structure OutcomeDraft where
  value : ConditionValue
  target : Target
deriving DecidableEq, Repr

/-- A transition: outcomes, guarded by a condition space or not. -/
structure Branch where
  space : Option ConditionSpace
  outcomes : List OutcomeDraft
deriving DecidableEq, Repr

def Branch.plain (target : Target) : Branch :=
  ⟨none, [⟨0, target⟩]⟩

/-- A branch claimed for an inclusive interval of keys. -/
structure Claim where
  low : Key
  high : Key
  branch : Branch
deriving DecidableEq, Repr

structure AlternateDraft where
  state : String
  push : List String
  popTest : List String
deriving DecidableEq, Repr

structure StateDraft where
  name : String
  final : Bool
  /-- Disjoint intervals, in the order of their keys. -/
  claims : List Claim
  fallback : Option Branch
  toState : List String
  fromState : List String
  eofActions : List String
  eofBranch : Option Branch
  eofGuard : Option ConditionSpace
  /-- Ascending. -/
  eofValues : List ConditionValue
  alternates : List AlternateDraft
deriving DecidableEq, Repr

def StateDraft.bare (name : String) : StateDraft where
  name := name
  final := false
  claims := []
  fallback := none
  toState := []
  fromState := []
  eofActions := []
  eofBranch := none
  eofGuard := none
  eofValues := []
  alternates := []

structure ActionDraft where
  name : String
  kind : ActionKind
  code : String
  target : String
deriving DecidableEq, Repr

structure Draft where
  name : String
  alphabet : Alphabet
  states : Array StateDraft
  actions : Array ActionDraft
  spaces : Array ConditionSpace
  start : String
  errorRequired : Bool
  errors : List GraphError
deriving DecidableEq, Repr

namespace Draft

def empty (name : String) (alphabet : Alphabet) : Draft where
  name := name
  alphabet := alphabet
  states := #[]
  actions := #[]
  spaces := #[]
  start := ""
  errorRequired := false
  errors := []

def reject (draft : Draft) (problem : GraphError) : Draft :=
  { draft with errors := draft.errors ++ [problem] }

/-! ## States and actions -/

def findState (draft : Draft) (name : String) : Option StateDraft :=
  draft.states.find? fun state => state.name == name

def declareState (draft : Draft) (name : String) : Draft :=
  if (draft.findState name).isSome then draft
  else { draft with states := draft.states.push (.bare name) }

def updateState (draft : Draft) (name : String) (change : StateDraft → StateDraft) : Draft :=
  let draft := draft.declareState name
  { draft with states := draft.states.map fun state =>
      if state.name == name then change state else state }

def setStart (draft : Draft) (name : String) : Draft :=
  { draft.declareState name with start := name }

def markFinal (draft : Draft) (names : List String) : Draft :=
  names.foldl (fun draft name =>
    draft.updateState name fun state => { state with final := true }) draft

/-- Ask for an error state even if no transition leads to it. -/
def requireError (draft : Draft) : Draft :=
  { draft with errorRequired := true }

def findAction (draft : Draft) (name : String) : Option ActionDraft :=
  draft.actions.find? fun action => action.name == name

/-- Define an action. Jumps and calls, and only they, name a target state. -/
def defineAction (draft : Draft) (action : ActionDraft) : Draft :=
  if (draft.findAction action.name).isSome then draft.reject (.actionRedefined action.name)
  else if action.kind.needsTarget == action.target.isEmpty then
    draft.reject (.actionTarget action.name action.kind action.target)
  else { draft with actions := draft.actions.push action }

def defineHook (draft : Draft) (name code : String) : Draft :=
  draft.defineAction ⟨name, .hook, code, ""⟩

/-- Make sure an action is defined; unknown names become hooks without code. -/
def mentionAction (draft : Draft) (name : String) : Draft :=
  if (draft.findAction name).isSome then draft else draft.defineHook name ""

def mentionActions (draft : Draft) (names : List String) : Draft :=
  names.foldl mentionAction draft

/-! ## Condition spaces -/

/-- What condition spaces are found by: their predicates joined with zero
characters. -/
def spaceKey (conditions : List String) : String :=
  (String.singleton (Char.ofNat 0)).intercalate conditions

/-- The condition space of some predicates, which is made if it is new. -/
def internSpace (draft : Draft) (conditions : List String) : Draft × ConditionSpace :=
  match draft.spaces.find? fun space => spaceKey space.conditions == spaceKey conditions with
  | some space => (draft, space)
  | none =>
    let draft := if conditions.length = 0 || 32 < conditions.length then
        draft.reject (.spaceSize conditions.length)
      else draft
    let space := ⟨draft.spaces.size, conditions⟩
    ({ draft with spaces := draft.spaces.push space }, space)

/-! ## Transitions -/

/-- What is wrong with the outcomes of a guarded branch, `seen` being the values
before. -/
def guardedProblem (state : String) (space : ConditionSpace) (seen : List ConditionValue) :
    List OutcomeDraft → Option GraphError
  | [] => none
  | outcome :: rest =>
    if space.combinations ≤ outcome.value then
      some (.valueOutsideSpace state outcome.value space)
    else if seen.contains outcome.value then some (.duplicateValue state outcome.value)
    else guardedProblem state space (outcome.value :: seen) rest

def branchProblem (state : String) (branch : Branch) : Option GraphError :=
  match branch.space with
  | none =>
    match branch.outcomes with
    | [⟨0, _⟩] => none
    | _ => some (.unguardedOutcomes state)
  | some space => guardedProblem state space [] branch.outcomes

def mentionBranch (draft : Draft) (branch : Branch) : Draft :=
  branch.outcomes.foldl (fun draft outcome =>
    let draft := if outcome.target.state.isEmpty then draft
      else draft.declareState outcome.target.state
    draft.mentionActions outcome.target.actions) draft

/-- The stored interval that keeps an interval from being claimed: the last one
that starts at or below it, if it reaches into it, or else the first one that
starts at or above its start, if that one starts within it. -/
def obstacle (alphabet : Alphabet) (claims : List Claim) (low high : Key) : Option Claim :=
  let floor := (claims.takeWhile fun claim => alphabet.atMost claim.low low).getLast?
  let ceiling := claims.find? fun claim => alphabet.atLeast claim.low low
  (floor.filter fun claim => alphabet.atLeast claim.high low).or
    (ceiling.filter fun claim => alphabet.atMost claim.low high)

def insertClaim (alphabet : Alphabet) (claims : List Claim) (claim : Claim) : List Claim :=
  claims.takeWhile (fun other => alphabet.atMost other.low claim.low) ++
    claim :: claims.dropWhile (fun other => alphabet.atMost other.low claim.low)

def addClaim (draft : Draft) (state : String) (claim : Claim) : Draft :=
  let draft := draft.declareState state
  let alphabet := draft.alphabet
  let low := alphabet.decimal claim.low
  let high := alphabet.decimal claim.high
  if alphabet.above claim.low claim.high || !alphabet.contains claim.low ||
      !alphabet.contains claim.high then
    draft.reject (.keyRange state low high)
  else match branchProblem state claim.branch with
    | some problem => draft.reject problem
    | none =>
      let draft := draft.mentionBranch claim.branch
      let claims := ((draft.findState state).map StateDraft.claims).getD []
      match obstacle alphabet claims claim.low claim.high with
      | some other => draft.reject <|
          .overlap state low high (alphabet.decimal other.low) (alphabet.decimal other.high)
      | none => draft.updateState state fun state =>
          { state with claims := insertClaim alphabet state.claims claim }

def setFallback (draft : Draft) (state : String) (branch : Branch) : Draft :=
  let draft := draft.declareState state
  if ((draft.findState state).bind StateDraft.fallback).isSome then
    draft.reject (.fallbackRedefined state)
  else match branchProblem state branch with
    | some problem => draft.reject problem
    | none => (draft.mentionBranch branch).updateState state fun state =>
        { state with fallback := some branch }

/-! ## State actions, end of input and alternates -/

/-- Set the actions run whenever a transition enters the state. -/
def setToState (draft : Draft) (state : String) (actions : List String) : Draft :=
  ((draft.declareState state).mentionActions actions).updateState state fun state =>
    { state with toState := actions }

/-- Set the actions run before a key is processed in the state. -/
def setFromState (draft : Draft) (state : String) (actions : List String) : Draft :=
  ((draft.declareState state).mentionActions actions).updateState state fun state =>
    { state with fromState := actions }

/-- Set the actions run if input ends in the state. -/
def setEofActions (draft : Draft) (state : String) (actions : List String) : Draft :=
  ((draft.declareState state).mentionActions actions).updateState state fun state =>
    { state with eofActions := actions }

def setEofTransition (draft : Draft) (state : String) (target : Target) : Draft :=
  let draft := draft.declareState state
  (draft.mentionBranch (.plain target)).updateState state fun state =>
    { state with eofBranch := some (.plain target) }

def insertValue (value : ConditionValue) : List ConditionValue → List ConditionValue
  | [] => [value]
  | other :: rest =>
    if value < other then value :: other :: rest
    else if value = other then other :: rest
    else other :: insertValue value rest

def addGuardValue (draft : Draft) (state : String) (space : ConditionSpace)
    (value : ConditionValue) : Draft :=
  if space.combinations ≤ value then
    draft.reject (.eofValueOutsideSpace state value space)
  else draft.updateState state fun state =>
    { state with eofValues := insertValue value state.eofValues }

/-- Guard the end-of-input actions of a state: they run only if the condition
value is one of those given. Values given before stay. -/
def guardEof (draft : Draft) (state : String) (space : ConditionSpace)
    (values : List ConditionValue) : Draft :=
  values.foldl (fun draft value => draft.addGuardValue state space value) <|
    draft.updateState state fun state => { state with eofGuard := some space }

def unguardEof (draft : Draft) (state : String) : Draft :=
  draft.updateState state fun state => { state with eofGuard := none }

def addAlternate (draft : Draft) (state : String) (alternate : AlternateDraft) : Draft :=
  let draft := (draft.declareState state).declareState alternate.state
  let draft := (draft.mentionActions alternate.push).mentionActions alternate.popTest
  draft.updateState state fun state =>
    { state with alternates := state.alternates ++ [alternate] }

end Draft

end StateTables
