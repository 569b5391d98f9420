import StateTables.Proofs.Validity

/-! # What stands at a slot

Laying out a graph gives every transition that is in use a slot. The transition and
condition columns hold at a slot what the transition says: its condition space, and
one entry for each of its outcomes, in order.
-/

namespace StateTables

/-! ## Layouts that succeeded -/

/-- All steps of laying out a graph succeeded. -/
structure Graph.Laid (graph : Graph) (options : EncodingOptions) (encoding : Encoding) : Prop where
  name : encoding.name = graph.name
  alphabet : encoding.alphabet = graph.alphabet
  start : encoding.start = graph.start
  firstFinal : encoding.firstFinal = graph.firstFinal
  error : encoding.error = graph.error
  stateCount : encoding.stateCount = graph.states.size
  actions : encoding.actions = graph.actions
  spaces : encoding.spaces = graph.spaces
  usesControl : encoding.usesControl = graph.usesControl
  lookup : graph.keyLookup options (graph.isDirect options) = .ok encoding.lookup
  transitions : graph.transitionColumns (graph.isDirect options)
    (graph.slots (graph.isDirect options)).transitions.toList = .ok encoding.transitions
  conditions : graph.conditionColumns
    (graph.entries (graph.slots (graph.isDirect options)).transitions.toList) =
      .ok encoding.conditions
  errorEntry : encoding.errorEntry =
    (graph.entries (graph.slots (graph.isDirect options)).transitions.toList).length
  toState : graph.stateActions "to_state_actions" State.toState = .ok encoding.toState
  fromState : graph.stateActions "from_state_actions" State.fromState = .ok encoding.fromState
  eof : graph.eofColumns (graph.slots (graph.isDirect options)).eof = .ok encoding.eof
  actionTable : graph.actionColumn = .ok encoding.actionTable
  alternates : graph.alternateColumns = .ok encoding.alternates

theorem Graph.laid_of_encode {graph : Graph} {options : EncodingOptions} {encoding : Encoding}
    (encoded : graph.encode options = .ok encoding) : graph.Laid options encoding := by
  unfold encode at encoded
  dsimp only at encoded
  by_cases alternates : (graph.hasAlternates && !options.alternates) = true
  · rw [if_pos alternates] at encoded
    cases encoded
  by_cases eof : (graph.hasEof && !options.endOfInput) = true
  · rw [if_neg alternates, if_pos eof] at encoded
    cases encoded
  rw [if_neg alternates, if_neg eof] at encoded
  simp only [bind_eq_ok, pure_eq_ok] at encoded
  rcases encoded with ⟨_, lookup, _, transitions, _, conditions, _, toState, _, fromState,
    _, eofColumns, _, actionTable, _, alternateColumns, rfl⟩
  exact {
    name := rfl
    alphabet := rfl
    start := rfl
    firstFinal := rfl
    error := rfl
    stateCount := rfl
    actions := rfl
    spaces := rfl
    usesControl := rfl
    lookup := lookup
    transitions := transitions
    conditions := conditions
    errorEntry := rfl
    toState := toState
    fromState := fromState
    eof := eofColumns
    actionTable := actionTable
    alternates := alternateColumns }

namespace Graph

/-! ## Slots of transitions -/

theorem getElem?_of_slotOf {slots : List Nat} {transition slot : Nat}
    (found : slotOf slots transition = .ok slot) : slots[slot]? = some transition := by
  unfold slotOf at found
  split at found
  next index position =>
    cases found
    rcases List.findIdx?_eq_some_iff_getElem.mp position with ⟨inside, same, _⟩
    rw [List.getElem?_eq_getElem inside]
    exact congrArg some (by simpa using same)
  next => cases found

structure EofSlots (states : List State) (slots : Slots) : Prop where
  length : slots.eof.length = states.length
  slot : ∀ (index : Nat) (state : State), states[index]? = some state →
    ∃ slot?, slots.eof[index]? = some slot? ∧
      match state.eofTransition with
      | none => slot? = none
      | some transition => ∃ slot, slot? = some slot ∧ slots.transitions[slot]? = some transition

theorem extends_addEofSlot (keys : List Nat) (direct : Bool) (slots : Slots) (state : State) :
    Search.Extends slots.transitions (addEofSlot keys direct slots state).transitions := by
  unfold addEofSlot
  split
  next => exact .refl _
  next =>
    split
    next => exact .refl _
    next => exact .push _ _

theorem eof_addEofSlot {keys : List Nat} (direct : Bool) {slots : Slots} (state : State)
    (keysFirst : Search.Extends keys.toArray slots.transitions) :
    ∃ slot?, (addEofSlot keys direct slots state).eof = slots.eof ++ [slot?] ∧
      match state.eofTransition with
      | none => slot? = none
      | some transition => ∃ slot, slot? = some slot ∧
          (addEofSlot keys direct slots state).transitions[slot]? = some transition := by
  unfold addEofSlot
  cases state.eofTransition with
  | none => exact ⟨none, rfl, rfl⟩
  | some transition =>
      dsimp only
      split
      next slot position =>
        refine ⟨some slot, rfl, slot, rfl, keysFirst slot transition ?_⟩
        rcases List.findIdx?_eq_some_iff_getElem.mp position with ⟨inside, same, _⟩
        have same : keys[slot] = transition := by simpa using same
        simp [List.getElem?_eq_getElem inside, same]
      next => exact ⟨some slots.transitions.size, rfl, slots.transitions.size, rfl, by simp⟩

theorem EofSlots.step {keys : List Nat} {direct : Bool} {states : List State} {slots : Slots}
    (before : EofSlots states slots) (keysFirst : Search.Extends keys.toArray slots.transitions)
    (state : State) : EofSlots (states ++ [state]) (addEofSlot keys direct slots state) := by
  rcases eof_addEofSlot direct state keysFirst with ⟨slot?, appended, own⟩
  constructor
  · simp [appended, before.length]
  · intro index other found
    rcases Nat.lt_trichotomy index states.length with earlier | last | behind
    · rw [List.getElem?_append_left earlier] at found
      rcases before.slot index other found with ⟨old, stored, refers⟩
      refine ⟨old, ?_, ?_⟩
      · rw [appended, List.getElem?_append_left (by rw [before.length]; exact earlier), stored]
      · cases transition : other.eofTransition with
        | none => simpa [transition] using refers
        | some transition =>
            simp only [transition] at refers
            rcases refers with ⟨slot, same, position⟩
            exact ⟨slot, same, extends_addEofSlot keys direct slots state slot _ position⟩
    · subst last
      have same : state = other := by simpa using found
      subst same
      exact ⟨slot?, by simp [appended, ← before.length], own⟩
    · rw [List.getElem?_eq_none (by simp; omega)] at found
      cases found

theorem EofSlots.foldl {keys : List Nat} {direct : Bool} {states : List State} {slots : Slots}
    (before : EofSlots states slots) (keysFirst : Search.Extends keys.toArray slots.transitions)
    (more : List State) :
    EofSlots (states ++ more) (more.foldl (addEofSlot keys direct) slots) ∧
      Search.Extends keys.toArray (more.foldl (addEofSlot keys direct) slots).transitions := by
  induction more generalizing states slots with
  | nil => simpa using ⟨before, keysFirst⟩
  | cons state rest induction =>
      have after := induction (before.step keysFirst state)
        (keysFirst.trans (extends_addEofSlot keys direct slots state))
      rwa [List.append_assoc] at after

theorem eofSlots_slots (graph : Graph) (direct : Bool) :
    EofSlots graph.states.toList (graph.slots direct) ∧
      Search.Extends (graph.keySlots direct).toArray (graph.slots direct).transitions := by
  have empty : EofSlots [] ⟨(graph.keySlots direct).toArray, []⟩ :=
    ⟨rfl, fun index state found => by simp at found⟩
  unfold slots
  rw [← Array.foldl_toList]
  exact empty.foldl (.refl _) graph.states.toList

theorem getElem?_slots {graph : Graph} {direct : Bool} {slot transition : Nat}
    (found : (graph.keySlots direct)[slot]? = some transition) :
    (graph.slots direct).transitions[slot]? = some transition :=
  (graph.eofSlots_slots direct).2 slot transition (by simpa using found)

end Graph

/-! ## Columns at a slot -/

namespace Graph.Laid

variable {graph : Graph} {options : EncodingOptions} {encoding : Encoding}

def parts (graph : Graph) (options : EncodingOptions) : List (List Outcome) :=
  (graph.slots (graph.isDirect options)).transitions.toList.map fun transition =>
    (graph.transitionAt transition).outcomes.toList

theorem entries_eq_flatten (graph : Graph) (options : EncodingOptions) :
    graph.entries (graph.slots (graph.isDirect options)).transitions.toList =
      (parts graph options).flatten := by
  unfold entries parts
  rw [List.flatMap_def]

/-- A slot stands for a transition of the graph. -/
structure At (graph : Graph) (options : EncodingOptions) (slot number : Nat)
    (transition : Transition) : Prop where
  slot : (graph.slots (graph.isDirect options)).transitions[slot]? = some number
  transition : graph.transitions[number]? = some transition

theorem At.getElem?_parts {slot number : Nat} {transition : Transition}
    (stands : At graph options slot number transition) :
    (parts graph options)[slot]? = some transition.outcomes.toList := by
  simp [parts, stands.slot, transitionAt, stands.transition]

theorem spaceOf_slot (laid : graph.Laid options encoding) {slot number : Nat}
    {transition : Transition} (stands : At graph options slot number transition) :
    encoding.spaceOf slot = .ok transition.space := by
  have columns := laid.transitions
  unfold transitionColumns at columns
  simp only [bind_eq_ok, pure_eq_ok] at columns
  rcases columns with ⟨spaces, spacesBuilt, _, _, _, _, same⟩
  rcases spaces_of_spaceColumn spacesBuilt with ⟨holds, fits⟩
  have here : (List.map Transition.space (List.map graph.transitionAt
      (graph.slots (graph.isDirect options)).transitions.toList))[slot]? =
        some transition.space := by
    simp [stands.slot, transitionAt, stands.transition]
  have read : encoding.transitions.spaces.read slot = .ok (spaceNumber transition.space) := by
    rw [← same]
    exact holds.read (by rw [List.getElem?_map, here]; rfl)
  unfold Encoding.spaceOf
  rw [read]
  cases space : transition.space with
  | none => rfl
  | some number =>
      have fit := fits number (by rw [← space]; exact List.mem_of_getElem? here)
      simp only [bind, Except.bind, toInt_spaceNumber fit]
      rfl

theorem lt_size_of_spaceOf {slot : Nat} {space : Option Nat}
    (read : encoding.spaceOf slot = .ok space) :
    slot < encoding.transitions.spaces.values.size := by
  unfold Encoding.spaceOf at read
  rcases bind_eq_ok.mp read with ⟨value, found, _⟩
  exact Column.lt_size_of_read found

def startOf (graph : Graph) (options : EncodingOptions) (slot : Nat) : Nat :=
  ((parts graph options).take slot).flatten.length

theorem bounds_slot (laid : graph.Laid options encoding) {slot number : Nat}
    {transition : Transition} (stands : At graph options slot number transition) :
    encoding.transitions.offsets.readIndex slot = .ok (startOf graph options slot) ∧
      encoding.transitions.lengths.readIndex slot = .ok transition.outcomes.size := by
  have columns := laid.transitions
  unfold transitionColumns at columns
  simp only [bind_eq_ok, pure_eq_ok] at columns
  rcases columns with ⟨_, _, starts, startsBuilt, lengths, lengthsBuilt, same⟩
  have sizes : List.map (fun transition => transition.outcomes.size) (List.map graph.transitionAt
      (graph.slots (graph.isDirect options)).transitions.toList) =
        (parts graph options).map List.length := by
    simp [parts]
  rw [sizes] at startsBuilt lengthsBuilt
  have here := stands.getElem?_parts
  constructor
  · rw [← same, startOf]
    apply (counts_of_counts startsBuilt).1.readIndex
    rw [getElem?_offsets 0 here, Nat.zero_add]
  · rw [← same]
    apply (counts_of_counts lengthsBuilt).1.readIndex
    simp [here]

/-- The entries of a slot are the outcomes of its transition. -/
theorem getElem?_entries {slot number index : Nat} {transition : Transition} {outcome : Outcome}
    (stands : At graph options slot number transition)
    (found : transition.outcomes[index]? = some outcome) :
    (graph.entries (graph.slots (graph.isDirect options)).transitions.toList)[
      startOf graph options slot + index]? = some outcome := by
  rw [entries_eq_flatten]
  exact getElem?_flatten_of_getElem? stands.getElem?_parts (by simpa using found)

/-! ### Condition entries -/

theorem condition_entry (laid : graph.Laid options encoding) {entry : Nat} {outcome : Outcome}
    {condition : ConditionTarget}
    (found : (graph.entries (graph.slots (graph.isDirect options)).transitions.toList)[entry]? =
      some outcome)
    (target : graph.conditions[outcome.condition]? = some condition) :
    encoding.conditions.keys.read entry = .ok outcome.value.toInt64 ∧
      encoding.moveAt entry = .ok ⟨condition.target, graph.location condition.actions⟩ := by
  have columns := laid.conditions
  unfold conditionColumns at columns
  simp only [bind_eq_ok, pure_eq_ok] at columns
  rcases columns with ⟨keys, keysBuilt, targets, targetsBuilt, actions, actionsBuilt, same⟩
  rcases List.getElem?_eq_some_iff.mp found with ⟨inside, _⟩
  have at_ : graph.conditionAt outcome.condition = condition := by
    rw [conditionAt, target, Option.getD_some]
  constructor
  · rw [← same]
    apply (holds_of_column keysBuilt).1.read
    rw [List.getElem?_append_left (by simpa using inside), List.getElem?_map, found]
    rfl
  · have readTarget : targets.readIndex entry = .ok condition.target := by
      apply (counts_of_counts targetsBuilt).1.readIndex
      rw [List.getElem?_append_left (by simpa using inside)]
      simp [found, at_]
    have readActions : actions.readIndex entry = .ok (graph.location condition.actions) := by
      apply (counts_of_counts actionsBuilt).1.readIndex
      rw [List.getElem?_append_left (by simpa using inside)]
      simp [found, at_]
    unfold Encoding.moveAt
    rw [← same, readTarget, readActions]
    rfl

theorem moveAt_errorEntry (laid : graph.Laid options encoding) :
    encoding.moveAt encoding.errorEntry = .ok ⟨graph.error.getD 0, 0⟩ := by
  have columns := laid.conditions
  unfold conditionColumns at columns
  simp only [bind_eq_ok, pure_eq_ok] at columns
  rcases columns with ⟨_, _, targets, targetsBuilt, actions, actionsBuilt, same⟩
  have readTarget : targets.readIndex encoding.errorEntry = .ok (graph.error.getD 0) := by
    apply (counts_of_counts targetsBuilt).1.readIndex
    rw [laid.errorEntry, List.getElem?_append_right (by simp)]
    simp
  have readActions : actions.readIndex encoding.errorEntry = .ok 0 := by
    apply (counts_of_counts actionsBuilt).1.readIndex
    rw [laid.errorEntry, List.getElem?_append_right (by simp)]
    simp
  unfold Encoding.moveAt
  rw [← same, readTarget, readActions]
  rfl

end Graph.Laid

end StateTables
