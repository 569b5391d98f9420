import StateTables.Graph.Basic
import StateTables.Text.Quoted

/-! # Drawings

A graph in the language of graph drawing tools: a node per state, an edge per
outcome of every transition, dashed edges for alternates. The error state and
the fallback into it are not drawn out.
-/

namespace StateTables.Graph

def dotEdges (graph : Graph) (state : Nat) (label : String) (transition : Nat) : List String :=
  match graph.transitions[transition]? with
  | none => []
  | some transition => transition.outcomes.toList.map fun outcome =>
    let condition := graph.conditions[outcome.condition]?
    let guarded := match transition.space.bind fun space => graph.spaces[space]? with
      | some space => label ++ " " ++ space.text ++ "=" ++ toString outcome.value
      | none => label
    let labelled := match condition.bind ConditionTarget.actions with
      | some list => guarded ++ " / " ++ graph.listText (some list)
      | none => guarded
    let target := (condition.map ConditionTarget.target).getD 0
    s!"  s{state} -> s{target} [label=" ++ Text.Quoted.text labelled ++ "];\n"

def dotState (graph : Graph) (id : Nat) (state : State) : List String :=
  let shape := if state.final then "doublecircle" else "circle"
  let node := s!"  s{id} [label=" ++ Text.Quoted.text state.name ++ s!" shape={shape}];\n"
  let decimal := graph.alphabet.decimal
  let edges :=
    state.singles.toList.flatMap (fun single =>
      graph.dotEdges id (decimal single.key) single.transition) ++
    state.ranges.toList.flatMap (fun range =>
      graph.dotEdges id (decimal range.low ++ ".." ++ decimal range.high) range.transition) ++
    (match state.fallback with
      | some transition =>
        if state.fallback = graph.errorTransition then []
        else graph.dotEdges id "default" transition
      | none => []) ++
    state.alternates.map fun alternate =>
      s!"  s{id} -> s{alternate.target} [style=dashed label=\"nfa\"];\n"
  node :: if state.isError then [] else edges

def dot (graph : Graph) : String :=
  let states := graph.states.toList.zipIdx.flatMap fun (state, id) => graph.dotState id state
  "digraph " ++ Text.Quoted.text graph.name ++
    " \x7b\n  rankdir=LR;\n  node [shape=circle];\n" ++ String.join states ++
    s!"  start [shape=point];\n  start -> s{graph.start};\n" ++ "\x7d\n"

end StateTables.Graph
