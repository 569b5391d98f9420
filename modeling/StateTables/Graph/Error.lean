import StateTables.Alphabet.Basic
import StateTables.Failure
import StateTables.Graph.Basic
import StateTables.Text.Quoted

/-! # Defects of graph descriptions

What may be wrong with the description of a graph, or with a finished graph
that was changed by hand.
-/

namespace StateTables

inductive GraphError where
  | actionRedefined (name : String)
  | actionTarget (name : String) (kind : ActionKind) (target : String)
  | spaceSize (predicates : Nat)
  | keyRange (state low high : String)
  | overlap (state low high otherLow otherHigh : String)
  | unguardedOutcomes (state : String)
  | valueOutsideSpace (state : String) (value : ConditionValue) (space : ConditionSpace)
  | duplicateValue (state : String) (value : ConditionValue)
  | fallbackRedefined (state : String)
  | eofValueOutsideSpace (state : String) (value : ConditionValue) (space : ConditionSpace)
  | noStart
  | unknownTarget (action target : String)
  | finalOrder (state : String) (firstFinal : Int)
  | singlesOrder (state : String) (index : Nat)
  | invertedRange (state : String) (index : Nat)
  | rangesOverlap (state : String) (index : Nat)
  | singleWithinRange (state key : String)
  | uncovered (state : String)
  | heldFromState (state action : String)
  | eofCycle (state : String)
  | plainOutcomes (transition count : Nat)
  | outcomeOutsideSpace (transition : Nat) (value : ConditionValue) (space : ConditionSpace)
  | outcomeOrder (transition : Nat)
deriving DecidableEq, Repr

namespace GraphError

def reason : GraphError → Reason
  | .overlap .. => .overlap
  | .singlesOrder .. => .overlap
  | .rangesOverlap .. => .overlap
  | .singleWithinRange .. => .overlap
  | _ => .malformedGraph

def detail : GraphError → String
  | .actionRedefined name => "action " ++ Text.Quoted.text name ++ " redefined"
  | .actionTarget name kind target =>
    "action " ++ Text.Quoted.text name ++ " of kind " ++ kind.name ++ " with target " ++
      Text.Quoted.text target
  | .spaceSize predicates => s!"condition space with {predicates} predicates"
  | .keyRange state low high =>
    s!"state {state}: key range [{low},{high}] invalid for alphabet"
  | .overlap state low high otherLow otherHigh =>
    s!"state {state}: [{low},{high}] overlaps [{otherLow},{otherHigh}]"
  | .unguardedOutcomes state =>
    s!"state {state}: unguarded transition needs exactly one outcome"
  | .valueOutsideSpace state value space =>
    s!"state {state}: condition value {value} outside space " ++ space.text
  | .duplicateValue state value => s!"state {state}: duplicate condition value {value}"
  | .fallbackRedefined state => s!"state {state}: default transition redefined"
  | .eofValueOutsideSpace state value space =>
    s!"state {state}: EOF condition value {value} outside space " ++ space.text
  | .noStart => "no start state"
  | .unknownTarget action target =>
    "action " ++ Text.Quoted.text action ++ " targets unknown state " ++
      Text.Quoted.text target
  | .finalOrder state firstFinal =>
    s!"{state} violates final state ordering (first final {firstFinal})"
  | .singlesOrder state index => s!"{state}: singles not ascending at {index}"
  | .invertedRange state index => s!"{state}: inverted range at {index}"
  | .rangesOverlap state index => s!"{state}: ranges overlap at {index}"
  | .singleWithinRange state key => s!"{state}: single {key} within range"
  | .uncovered state => s!"{state}: keys uncovered and no default transition"
  | .heldFromState state action => s!"{state}: from-state action {action} holds back the key"
  | .eofCycle state => s!"{state}: EOF transitions loop back to it"
  | .plainOutcomes transition count =>
    s!"unguarded transition {transition} with {count} outcomes"
  | .outcomeOutsideSpace transition value space =>
    s!"transition {transition}: value {value} outside " ++ space.text
  | .outcomeOrder transition => s!"transition {transition}: condition values not ascending"

def failure (problem : GraphError) : Failure :=
  .because problem.reason problem.detail

end GraphError

end StateTables
