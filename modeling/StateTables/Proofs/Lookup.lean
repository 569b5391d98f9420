import StateTables.Proofs.ClassLookup
import StateTables.Proofs.ComparisonLookup
import StateTables.Proofs.SortedLookup

/-! # All encodings look up keys alike

Whatever the layout, the slot found for a state and a key stands for the transition
the graph itself has there, and the columns at the slot hold its condition space and
its outcomes.
-/

namespace StateTables

/-! ## Entries of a slot -/

/-- What a transition does for one condition value: the target state and the place of
the actions. -/
structure Entry where
  value : ConditionValue
  target : Nat
  actions : Nat
deriving DecidableEq, Repr

def Encoding.entryAt (encoding : Encoding) (position : Nat) : Except Fault Entry := do
  let value ← encoding.conditions.keys.read position
  let target ← encoding.conditions.targets.readIndex position
  let actions ← encoding.conditions.actions.readIndex position
  return ⟨value.toUInt64, target, actions⟩

/-- The entries that the offset and the length of a slot delimit. -/
def Encoding.entriesAt (encoding : Encoding) (slot : Nat) : Except Fault (List Entry) := do
  let start ← encoding.transitions.offsets.readIndex slot
  let count ← encoding.transitions.lengths.readIndex slot
  (List.range count).mapM fun index => encoding.entryAt (start + index)

namespace Graph

def location? (graph : Graph) : Option Nat → Option Nat
  | none => some 0
  | some list => graph.lists[list]?.map fun list => list.location.toNat

def entryOf? (graph : Graph) (outcome : Outcome) : Option Entry := do
  let condition ← graph.conditions[outcome.condition]?
  let actions ← graph.location? condition.actions
  return ⟨outcome.value, condition.target, actions⟩

variable {graph : Graph}

theorem location?_eq_location {list : Option Nat}
    (inside : ∀ number, list = some number → number < graph.lists.size) :
    graph.location? list = some (graph.location list) := by
  cases list with
  | none => rfl
  | some number => simp [location?, location, Array.getElem?_eq_getElem (inside number rfl)]

def entryOf (graph : Graph) (outcome : Outcome) : Entry :=
  let condition := graph.conditionAt outcome.condition
  ⟨outcome.value, condition.target, graph.location condition.actions⟩

theorem entryOf?_eq_some (linked : graph.Linked) {transition : Transition}
    (used : transition ∈ graph.transitions) {outcome : Outcome}
    (member : outcome ∈ transition.outcomes) :
    graph.entryOf? outcome = some (graph.entryOf outcome) := by
  have target := Array.getElem?_eq_getElem (linked.outcomes transition used outcome member)
  have location := location?_eq_location (linked.conditionLists _ (Array.mem_of_getElem? target))
  simp [entryOf?, entryOf, conditionAt, target, location]

section Entries

variable {options : EncodingOptions} {encoding : Encoding}

theorem Laid.entryAt (laid : graph.Laid options encoding) {position : Nat} {outcome : Outcome}
    {condition : ConditionTarget}
    (found : (graph.entries (graph.slots (graph.isDirect options)).transitions.toList)[position]? =
      some outcome)
    (target : graph.conditions[outcome.condition]? = some condition) :
    encoding.entryAt position = .ok (graph.entryOf outcome) := by
  rcases laid.condition_entry found target with ⟨key, move⟩
  unfold Encoding.moveAt at move
  simp only [bind_eq_ok, pure_eq_ok] at move
  rcases move with ⟨state, stateRead, actions, actionsRead, same⟩
  cases same
  unfold Encoding.entryAt entryOf conditionAt
  rw [key, stateRead, actionsRead, target]
  simp only [bind, Except.bind, pure, Except.pure, UInt64.toUInt64_toInt64, Option.getD_some]

theorem Laid.entriesAt (laid : graph.Laid options encoding) (linked : graph.Linked)
    {slot number : Nat} {transition : Transition}
    (stands : Laid.At graph options slot number transition) :
    encoding.entriesAt slot = .ok (transition.outcomes.toList.map graph.entryOf) := by
  rcases laid.bounds_slot stands with ⟨start, count⟩
  unfold Encoding.entriesAt
  rw [start, count]
  have length : transition.outcomes.size =
      (transition.outcomes.toList.map graph.entryOf).length := by simp
  rw [length]
  apply Column.mapM_range_eq_ok
  intro index entry found
  rw [List.getElem?_map, Array.getElem?_toList, Option.map_eq_some_iff] at found
  rcases found with ⟨outcome, here, rfl⟩
  have inside := linked.outcomes transition (Array.mem_of_getElem? stands.transition) outcome
    (Array.mem_of_getElem? here)
  exact laid.entryAt (Laid.getElem?_entries stands here) (Array.getElem?_eq_getElem inside)

end Entries

/-! ## Slots of keys -/

/-- Every layout finds a slot of the transition a state has for a key. -/
theorem Laid.locate {options : EncodingOptions} {encoding : Encoding}
    (laid : graph.Laid options encoding)
    (ordered : ∀ state ∈ graph.states, state.Ordered graph.alphabet) {id : Nat} {state : State}
    (declared : graph.states[id]? = some state) {key : Key}
    (contained : graph.alphabet.contains key = true) {transition : Nat}
    (found : state.locate graph.alphabet key = some transition) :
    ∃ slot, encoding.lookup.locate encoding.alphabet id key = .ok slot ∧
      (graph.slots (graph.isDirect options)).transitions[slot]? = some transition := by
  have member := Array.mem_of_getElem? declared
  have made := laid.lookup
  unfold keyLookup at made
  rw [laid.alphabet]
  cases kind : options.kind with
  | flat =>
      simp only [kind, map_eq_ok] at made
      rcases made with ⟨keys, built, same⟩
      rcases dense_of_flatKeys built with ⟨classes, rows, dense⟩
      rcases dense.locate ordered declared contained found with ⟨slot, located, isSlot⟩
      rw [← same]
      exact ⟨slot, located, getElem?_slots isSlot⟩
  | binary =>
      simp only [kind, map_eq_ok] at made
      rcases made with ⟨keys, built, same⟩
      rcases (sorted_of_binaryKeys built).locate declared found with ⟨slot, located, isSlot⟩
      rw [← same]
      exact ⟨slot, located, getElem?_slots isSlot⟩
  | switch =>
      simp only [kind, map_eq_ok] at made
      rcases made with ⟨states, built, same⟩
      rcases (mapM_eq_ok.mp built).2 id state (by simpa using declared) with
        ⟨cases, stored, made⟩
      rcases lookup_switchState made (ordered state member) contained found with
        ⟨slot, located, isSlot⟩
      rw [← same]
      refine ⟨slot, ?_, getElem?_slots isSlot⟩
      unfold KeyLookup.locate
      simp [stored, located]

/-- A key is located in the encoding where it is located in the graph. -/
theorem Laid.exists_slot {graph : Graph} {options : EncodingOptions} {encoding : Encoding}
    (laid : graph.Laid options encoding) (wired : graph.Wired) (valid : graph.Valid) {id : Nat}
    (declared : id < graph.states.size) {key : Key} (contained : graph.alphabet.contains key = true) :
    ∃ slot number transition, encoding.lookup.locate encoding.alphabet id key = .ok slot ∧
      graph.locate id key = some number ∧ Laid.At graph options slot number transition := by
  have found := Array.getElem?_eq_getElem declared
  have member := Array.mem_of_getElem? found
  have ordered := valid.states _ member
  rcases State.exists_locate ordered (wired.covers _ member) contained with ⟨number, located⟩
  have inside := State.locate_lt (wired.linked.states _ member) ordered located
  rcases laid.locate valid.states found contained located with ⟨slot, slotFound, isSlot⟩
  refine ⟨slot, number, graph.transitions[number], slotFound, ?_, isSlot,
    Array.getElem?_eq_getElem inside⟩
  rw [Graph.locate, found]
  exact located

/-- For every state and every key of the alphabet an encoding of a graph that was built finds a
slot. The columns at the slot hold the condition space and, in order, the values, targets and places
of actions of the transition the graph has there. The draft of the graph names only condition spaces
of its own. -/
theorem lookup_eq_graph {graph : Graph} (built : graph.Built) {options : EncodingOptions}
    {encoding : Encoding} (encoded : graph.encode options = .ok encoding) {state : Nat}
    (declared : state < graph.states.size) {key : Key}
    (contained : graph.alphabet.contains key = true) :
    ∃ slot number transition entries,
      encoding.lookup.locate encoding.alphabet state key = .ok slot ∧
      slot < encoding.transitions.spaces.values.size ∧
      graph.locate state key = some number ∧
      graph.transitions[number]? = some transition ∧
      encoding.spaceOf slot = .ok transition.space ∧
      encoding.entriesAt slot = .ok entries ∧
      transition.outcomes.toList.map graph.entryOf? = entries.map some := by
  have laid := laid_of_encode encoded
  have wired := built.wired
  rcases laid.exists_slot wired built.valid declared contained with
    ⟨slot, number, transition, slotFound, located, stands⟩
  have space := laid.spaceOf_slot stands
  refine ⟨slot, number, transition, _, slotFound, Laid.lt_size_of_spaceOf space, located,
    stands.transition, space, laid.entriesAt wired.linked stands, ?_⟩
  rw [List.map_map]
  apply List.map_congr_left
  intro outcome isOutcome
  exact entryOf?_eq_some wired.linked (Array.mem_of_getElem? stands.transition)
    (by simpa using isOutcome)

end Graph

/-! ## A small graph -/

namespace Sample

def draft : Draft :=
  let even : ConditionSpace := ⟨0, ["even"]⟩
  let operations : List DraftStep := [
    .internSpace even.conditions,
    .setStart "open",
    .markFinal ["closed"],
    .addClaim "open" ⟨.ofInt (-5), .ofInt (-5), .plain ⟨"closed", ["note"]⟩⟩,
    .addClaim "open" ⟨.ofInt 10, .ofInt 20, ⟨some even, [⟨1, ⟨"closed", []⟩⟩]⟩⟩,
    .setFallback "open" (.plain ⟨"open", []⟩),
    .addAlternate "open" ⟨"aside", [], []⟩,
    .addClaim "aside" ⟨.ofInt 0, .ofInt 127, .plain ⟨"closed", []⟩⟩]
  operations.foldl Draft.perform (.empty "sample" (.full ⟨true, .one⟩))

def graph : Graph :=
  draft.assemble.mergeDuplicates

theorem built_graph : graph.Built := by
  have drafted : draft.Drafted := (Draft.Drafted.empty _ _).foldl (by decide +kernel)
  exact Graph.built_of_checks drafted (by decide +kernel)

def options : EncodingOptions where
  kind := .flat
  indices := .auto
  classMap := true
  maxSpan := 0
  alternates := true
  endOfInput := true

theorem exists_encoding : ∃ encoding, graph.encode options = .ok encoding :=
  exists_of_isOk (by decide +kernel)

end Sample

/-- A key of the guarded range of the sample is looked up through its class. -/
theorem lookup_eq_graph_sample : ∃ encoding, Sample.graph.encode Sample.options = .ok encoding ∧
    ∃ slot number transition entries,
      encoding.lookup.locate encoding.alphabet 1 (.ofInt 12) = .ok slot ∧
      slot < encoding.transitions.spaces.values.size ∧
      Sample.graph.locate 1 (.ofInt 12) = some number ∧
      Sample.graph.transitions[number]? = some transition ∧
      encoding.spaceOf slot = .ok transition.space ∧
      encoding.entriesAt slot = .ok entries ∧
      transition.outcomes.toList.map Sample.graph.entryOf? = entries.map some := by
  rcases Sample.exists_encoding with ⟨encoding, encoded⟩
  exact ⟨encoding, encoded, Graph.lookup_eq_graph Sample.built_graph encoded
    (by decide +kernel) (by decide +kernel)⟩

end StateTables
