import StateTables.Proofs.Wiring

/-! # Merging keeps graphs wired

Merged parts are found under their new numbers. A graph that was built is one that
was assembled from a draft without problems, merged and found valid.
-/

namespace StateTables

namespace Graph

/-! ## Numbers after merging -/

section Numbers

variable {α : Type} [DecidableEq α] {values : Array α}

theorem getElem?_renumber {number : Nat} {value : α} (found : values[number]? = some value) :
    (Search.distinct values).1[renumber (Search.distinct values).2 number]? = some value := by
  rcases (Search.numbers_distinct values).found number value (by simpa using found) with
    ⟨new, numbered, stored⟩
  rw [renumber, numbered, Option.getD_some]
  exact stored

theorem getElem?_renumber_map {β : Type} {parts : Array β} (change : β → α) {number : Nat}
    {part : β} (found : parts[number]? = some part) :
    (Search.distinct (parts.map change)).1[
      renumber (Search.distinct (parts.map change)).2 number]? = some (change part) := by
  apply getElem?_renumber
  rw [Array.getElem?_map, found, Option.map_some]

theorem renumber_lt {number : Nat} (inside : number < values.size) :
    renumber (Search.distinct values).2 number < (Search.distinct values).1.size :=
  (Array.getElem?_eq_some_iff.mp (getElem?_renumber (Array.getElem?_eq_getElem inside))).1

theorem mem_of_mem_distinct {value : α} (member : value ∈ (Search.distinct values).1) :
    value ∈ values := by
  simpa using (Search.numbers_distinct values).only value member

end Numbers

theorem canonicalAction_lt {graph : Graph} {action : Nat} (inside : action < graph.actions.size) :
    graph.canonicalAction action < graph.actions.size := by
  unfold canonicalAction
  rw [Array.getElem?_eq_getElem inside]
  dsimp only
  cases found : graph.actions.findIdx? fun other =>
      fingerprint other = fingerprint graph.actions[action] with
  | none => exact inside
  | some first => exact (Array.findIdx?_eq_some_iff_getElem.mp found).1

theorem length_placeLists (location : UInt32) (lists : List (List Nat)) :
    (placeLists location lists).length = lists.length := by
  induction lists generalizing location with
  | nil => rfl
  | cons actions rest induction => simp [placeLists, induction]

theorem map_actions_placeLists (location : UInt32) (lists : List (List Nat)) :
    (placeLists location lists).map ActionList.actions = lists := by
  induction lists generalizing location with
  | nil => rfl
  | cons actions rest induction => simp [placeLists, induction]

theorem mem_placeLists {location : UInt32} {lists : List (List Nat)} {list : ActionList}
    (member : list ∈ placeLists location lists) : list.actions ∈ lists := by
  induction lists generalizing location with
  | nil => simp [placeLists] at member
  | cons actions rest induction =>
      rcases List.mem_cons.mp member with first | later
      · simp [first]
      · exact List.mem_cons_of_mem _ (induction later)

/-! ## The parts of a merged graph -/

section Parts

variable (graph : Graph)

def canonicalLists : Array (List Nat) :=
  graph.lists.map fun list => list.actions.map graph.canonicalAction

def listNumbers : Array Nat :=
  (Search.distinct graph.canonicalLists).2

def canonicalConditions : Array ConditionTarget :=
  graph.conditions.map fun condition =>
    { condition with actions := condition.actions.map (renumber graph.listNumbers) }

def conditionNumbers : Array Nat :=
  (Search.distinct graph.canonicalConditions).2

def canonicalTransitions : Array Transition :=
  graph.transitions.map fun transition =>
    { transition with outcomes := transition.outcomes.map fun outcome =>
        { outcome with condition := renumber graph.conditionNumbers outcome.condition } }

def transitionNumbers : Array Nat :=
  (Search.distinct graph.canonicalTransitions).2

theorem mergeDuplicates_eq : graph.mergeDuplicates = { graph with
    lists := (placeLists 1 (Search.distinct graph.canonicalLists).1.toList).toArray
    conditions := (Search.distinct graph.canonicalConditions).1
    transitions := (Search.distinct graph.canonicalTransitions).1
    states := graph.states.map (mergeState graph.listNumbers graph.transitionNumbers)
    errorTransition := graph.errorTransition.map (renumber graph.transitionNumbers)
    errorCondition := graph.errorCondition.map (renumber graph.conditionNumbers) } :=
  rfl

variable {graph}

theorem renumber_list_lt {number : Nat} (inside : number < graph.lists.size) :
    renumber graph.listNumbers number < graph.mergeDuplicates.lists.size := by
  have inRange : renumber graph.listNumbers number <
      (Search.distinct graph.canonicalLists).1.size :=
    renumber_lt (by simpa [canonicalLists] using inside)
  simpa [mergeDuplicates_eq, length_placeLists] using inRange

theorem renumber_transition_lt {number : Nat} (inside : number < graph.transitions.size) :
    renumber graph.transitionNumbers number < graph.mergeDuplicates.transitions.size :=
  renumber_lt (by simpa [canonicalTransitions] using inside)

theorem renumber_condition_lt {number : Nat} (inside : number < graph.conditions.size) :
    renumber graph.conditionNumbers number < graph.mergeDuplicates.conditions.size :=
  renumber_lt (by simpa [canonicalConditions] using inside)

/-- A list stands under its new number, with canonical actions. -/
theorem exists_merged_list {number : Nat} {list : ActionList}
    (found : graph.lists[number]? = some list) :
    ∃ merged, graph.mergeDuplicates.lists[renumber graph.listNumbers number]? = some merged ∧
      merged.actions = list.actions.map graph.canonicalAction := by
  have stored := getElem?_renumber_map
    (fun list : ActionList => list.actions.map graph.canonicalAction) found
  rw [← Array.getElem?_toList, ← map_actions_placeLists 1 (Search.distinct _).1.toList,
    List.getElem?_map] at stored
  rcases Option.map_eq_some_iff.mp stored with ⟨merged, position, same⟩
  refine ⟨merged, ?_, same⟩
  rw [mergeDuplicates_eq, List.getElem?_toArray]
  exact position

theorem getElem?_merged_condition {number : Nat} {condition : ConditionTarget}
    (found : graph.conditions[number]? = some condition) :
    graph.mergeDuplicates.conditions[renumber graph.conditionNumbers number]? =
      some { condition with actions := condition.actions.map (renumber graph.listNumbers) } :=
  getElem?_renumber_map _ found

theorem getElem?_merged_transition {number : Nat} {transition : Transition}
    (found : graph.transitions[number]? = some transition) :
    graph.mergeDuplicates.transitions[renumber graph.transitionNumbers number]? =
      some { transition with outcomes := transition.outcomes.map fun outcome =>
        { outcome with condition := renumber graph.conditionNumbers outcome.condition } } :=
  getElem?_renumber_map _ found

theorem size_mergeDuplicates_states :
    graph.mergeDuplicates.states.size = graph.states.size := by
  rw [mergeDuplicates_eq, Array.size_map]

theorem mem_mergeDuplicates_states {state : State} (member : state ∈ graph.mergeDuplicates.states) :
    ∃ source ∈ graph.states, state = mergeState graph.listNumbers graph.transitionNumbers source := by
  rcases Array.mem_map.mp member with ⟨source, inside, same⟩
  exact ⟨source, inside, same.symm⟩

theorem mem_mergeDuplicates_conditions {condition : ConditionTarget}
    (member : condition ∈ graph.mergeDuplicates.conditions) : ∃ source ∈ graph.conditions,
      condition.target = source.target ∧
        condition.actions = source.actions.map (renumber graph.listNumbers) := by
  rcases Array.mem_map.mp (mem_of_mem_distinct member) with ⟨source, inside, same⟩
  exact ⟨source, inside, same ▸ ⟨rfl, rfl⟩⟩

theorem mem_mergeDuplicates_transitions {transition : Transition}
    (member : transition ∈ graph.mergeDuplicates.transitions) : ∃ source ∈ graph.transitions,
      transition.space = source.space ∧ transition.outcomes = source.outcomes.map fun outcome =>
        { outcome with condition := renumber graph.conditionNumbers outcome.condition } := by
  rcases Array.mem_map.mp (mem_of_mem_distinct member) with ⟨source, inside, same⟩
  exact ⟨source, inside, same ▸ ⟨rfl, rfl⟩⟩

end Parts

/-! ## What merging keeps -/

section Merging

variable {graph : Graph}

theorem renumbered_lt {numbers : Array Nat} {before after : Nat}
    (moves : ∀ number, number < before → renumber numbers number < after) {reference : Option Nat}
    (inside : ∀ number, reference = some number → number < before) {number : Nat}
    (found : reference.map (renumber numbers) = some number) : number < after := by
  rcases Option.map_eq_some_iff.mp found with ⟨old, oldFound, rfl⟩
  exact moves old (inside old oldFound)

theorem linked_mergeState {state : State}
    (linked : state.Linked graph.transitions.size graph.lists.size graph.states.size) :
    (mergeState graph.listNumbers graph.transitionNumbers state).Linked
      graph.mergeDuplicates.transitions.size graph.mergeDuplicates.lists.size
      graph.mergeDuplicates.states.size := by
  have lists : ∀ number, number < graph.lists.size → _ := fun _ => renumber_list_lt
  have transitions : ∀ number, number < graph.transitions.size → _ :=
    fun _ => renumber_transition_lt
  exact {
    singles := by
      intro single member
      rcases Array.mem_map.mp member with ⟨old, inside, rfl⟩
      exact transitions _ (linked.singles old inside)
    ranges := by
      intro range member
      rcases Array.mem_map.mp member with ⟨old, inside, rfl⟩
      exact transitions _ (linked.ranges old inside)
    fallback := fun _ => renumbered_lt transitions linked.fallback
    eofTransition := fun _ => renumbered_lt transitions linked.eofTransition
    toState := fun _ => renumbered_lt lists linked.toState
    fromState := fun _ => renumbered_lt lists linked.fromState
    eofActions := fun _ => renumbered_lt lists linked.eofActions
    targets := by
      intro alternate member
      rcases List.mem_map.mp member with ⟨old, inside, rfl⟩
      rw [size_mergeDuplicates_states]
      exact linked.targets old inside
    pushes := by
      intro alternate member number
      rcases List.mem_map.mp member with ⟨old, inside, rfl⟩
      exact renumbered_lt lists (linked.pushes old inside)
    popTests := by
      intro alternate member number
      rcases List.mem_map.mp member with ⟨old, inside, rfl⟩
      exact renumbered_lt lists (linked.popTests old inside) }

theorem Linked.mergeDuplicates (linked : graph.Linked) : graph.mergeDuplicates.Linked where
  start := by
    rw [size_mergeDuplicates_states]
    exact linked.start
  states := by
    intro state member
    rcases mem_mergeDuplicates_states member with ⟨source, inside, rfl⟩
    exact linked_mergeState (linked.states source inside)
  outcomes := by
    intro transition member outcome inside
    rcases mem_mergeDuplicates_transitions member with ⟨source, sourceMember, _, outcomes⟩
    rw [outcomes] at inside
    rcases Array.mem_map.mp inside with ⟨old, oldInside, rfl⟩
    exact renumber_condition_lt (linked.outcomes source sourceMember old oldInside)
  spaces := by
    intro transition member space found
    rcases mem_mergeDuplicates_transitions member with ⟨source, sourceMember, same, _⟩
    exact linked.spaces source sourceMember space (same ▸ found)
  targets := by
    intro condition member
    rcases mem_mergeDuplicates_conditions member with ⟨source, sourceMember, same, _⟩
    rw [size_mergeDuplicates_states, same]
    exact linked.targets source sourceMember
  conditionLists := by
    intro condition member list found
    rcases mem_mergeDuplicates_conditions member with ⟨source, sourceMember, _, same⟩
    rw [same] at found
    exact renumbered_lt (fun _ => renumber_list_lt) (linked.conditionLists source sourceMember) found
  listActions := by
    intro list member action inside
    have placed := mem_placeLists (List.mem_toArray.mp member)
    have merged := mem_of_mem_distinct (Array.mem_toList_iff.mp placed)
    rcases Array.mem_map.mp merged with ⟨source, sourceMember, same⟩
    rw [← same] at inside
    rcases List.mem_map.mp inside with ⟨old, oldInside, rfl⟩
    exact canonicalAction_lt (linked.listActions source sourceMember old oldInside)
  actionTargets := by
    intro action member target found
    rw [size_mergeDuplicates_states]
    exact linked.actionTargets action member target found

theorem Trapped.mergeDuplicates (trapped : graph.Trapped) : graph.mergeDuplicates.Trapped := by
  intro error needed
  rcases trapped error needed with ⟨way, state, condition, transition⟩
  refine ⟨(renumber graph.conditionNumbers way.1, renumber graph.transitionNumbers way.2),
    ?_, ?_, ?_⟩
  · rw [mergeDuplicates_eq, Array.getElem?_map, state]
    simp [mergeState, Draft.errorState, State.bare]
  · exact getElem?_merged_condition condition
  · simpa using getElem?_merged_transition transition

theorem Covers.mergeState {alphabet : Alphabet} {state : State} (covers : Covers alphabet state)
    (lists transitions : Array Nat) : Covers alphabet (mergeState lists transitions state) := by
  intro missing key contained
  have missing : state.fallback = none := by simpa [Graph.mergeState] using missing
  rcases covers missing key contained with ⟨single, member, same⟩ | ⟨range, member, contains⟩
  · exact .inl ⟨_, Array.mem_map.mpr ⟨single, member, rfl⟩, same⟩
  · exact .inr ⟨_, Array.mem_map.mpr ⟨range, member, rfl⟩, contains⟩

theorem Exhaustive.mergeDuplicates (exhaustive : graph.Exhaustive) :
    graph.mergeDuplicates.Exhaustive where
  small := exhaustive.small
  complete := by
    intro noError transition member number space found position
    rcases mem_mergeDuplicates_transitions member with ⟨source, sourceMember, same, outcomes⟩
    rw [outcomes, Array.size_map]
    exact exhaustive.complete noError source sourceMember number space (same ▸ found) position

theorem Wired.mergeDuplicates (wired : graph.Wired) : graph.mergeDuplicates.Wired where
  linked := wired.linked.mergeDuplicates
  covers := by
    intro state member
    rcases mem_mergeDuplicates_states member with ⟨source, inside, rfl⟩
    exact (wired.covers source inside).mergeState _ _
  trapped := wired.trapped.mergeDuplicates
  exhaustive := wired.exhaustive.mergeDuplicates

end Merging

/-! ## Graphs that were built -/

/-- The graph is what building some draft results in. The operations on the draft named only
condition spaces that it had made itself, which all statements about built graphs rest on: see
`Draft.Admits`. -/
def Built (graph : Graph) : Prop :=
  ∃ draft after : Draft, draft.Drafted ∧ draft.build = (after, .ok graph)

end Graph

namespace Draft

theorem errors_foldl_reject (draft : Draft) (problems : List GraphError) :
    (problems.foldl reject draft).errors = draft.errors ++ problems := by
  induction problems generalizing draft with
  | nil => simp
  | cons problem rest induction => simp [induction, reject]

/-- A draft that can be built has no problems; its graph is assembled, merged and
found valid. -/
theorem build_eq_ok {draft after : Draft} {graph : Graph}
    (built : draft.build = (after, .ok graph)) :
    draft.errors = [] ∧ draft.start ≠ "" ∧ draft.unknownTargets = [] ∧
      graph = draft.assemble.mergeDuplicates ∧ graph.validate = .ok () := by
  unfold build at built
  by_cases started : draft.start.isEmpty = true
  · simp [started, reject] at built
  · simp only [if_neg started] at built
    split at built
    next => cases built
    next noErrors =>
      have noErrors : draft.errors = [] := by simpa using noErrors
      split at built
      next => cases built
      next known =>
        have known : draft.unknownTargets = [] := by
          simpa [errors_foldl_reject, noErrors] using known
        rw [known] at built
        dsimp only [List.foldl_nil] at built
        split at built
        next => cases built
        next valid =>
          cases built
          exact ⟨noErrors, by simpa using started, known, rfl, valid⟩

theorem build_of_validate {draft : Draft} (noErrors : draft.errors = [])
    (started : draft.start.isEmpty = false) (known : draft.unknownTargets = [])
    (valid : draft.assemble.mergeDuplicates.validate = .ok ()) :
    draft.build = (draft, .ok draft.assemble.mergeDuplicates) := by
  unfold build
  simp [started, noErrors, known, valid]

end Draft

namespace Graph

variable {graph : Graph}

theorem Built.wired (built : graph.Built) : graph.Wired := by
  rcases built with ⟨draft, after, drafted, result⟩
  rcases Draft.build_eq_ok result with ⟨noProblem, started, _, rfl, _⟩
  have consistent := drafted.consistent
  have inhabited := consistent.inhabited started
  exact (Draft.wired_assemble inhabited consistent noProblem).mergeDuplicates

theorem Built.validated (built : graph.Built) : graph.validate = .ok () := by
  rcases built with ⟨draft, after, _, result⟩
  exact (Draft.build_eq_ok result).2.2.2.2

end Graph

end StateTables
