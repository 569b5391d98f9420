import StateTables.Proofs.Slots

/-! # Lookup in sorted keys

The row of a state holds its singles, its ranges and its fallback. Bisection of the
key column takes the same turns as bisection of the state itself, so it ends at the
row entry of the transition the state has for the key.
-/

namespace StateTables

namespace Graph

/-! ## Sorted keys of a state -/

theorem getElem?_sortedKeys_single {state : State} {index : Nat} {single : Single}
    (found : state.singles[index]? = some single) :
    (sortedKeys state)[index]? = some single.key := by
  rcases Array.getElem?_eq_some_iff.mp found with ⟨inside, _⟩
  rw [sortedKeys, List.getElem?_append_left (by simpa using inside)]
  simp [found]

theorem getElem?_sortedKeys_range {state : State} {index : Nat} {range : Range}
    (found : state.ranges[index]? = some range) :
    (sortedKeys state)[state.singles.size + 2 * index]? = some range.low ∧
      (sortedKeys state)[state.singles.size + 2 * index + 1]? = some range.high := by
  have pair := getElem?_pairs Range.low Range.high
    (by simpa using found : state.ranges.toList[index]? = some range)
  constructor
  · rw [sortedKeys, List.getElem?_append_right (by simp)]
    simpa using pair.1
  · rw [sortedKeys, List.getElem?_append_right (by simp; omega)]
    simpa [Nat.add_assoc] using pair.2

/-! ## Entries of a row -/

theorem getElem?_row_single {state : State} {index : Nat} {single : Single}
    (found : state.singles[index]? = some single) :
    (row state)[index]? = some single.transition := by
  rcases Array.getElem?_eq_some_iff.mp found with ⟨inside, _⟩
  rw [row, List.append_assoc, List.getElem?_append_left (by simpa using inside)]
  simp [found]

theorem getElem?_row_range {state : State} {index : Nat} {range : Range}
    (found : state.ranges[index]? = some range) :
    (row state)[state.singles.size + index]? = some range.transition := by
  rcases Array.getElem?_eq_some_iff.mp found with ⟨inside, _⟩
  rw [row, List.append_assoc, List.getElem?_append_right (by simp),
    List.getElem?_append_left (by simpa using inside)]
  simp [found]

theorem getElem?_row_fallback {state : State} {transition : Nat}
    (fallback : state.fallback = some transition) :
    (row state)[state.singles.size + state.ranges.size]? = some transition := by
  rw [row, List.getElem?_append_right (by simp)]
  simp [fallback]

/-! ## Columns -/

structure Sorted (graph : Graph) (direct : Bool) (slots : List Nat) (keys : BinaryKeys) : Prop where
  keyOffsets : keys.keyOffsets.Counts
    (offsets 0 ((graph.states.toList.map sortedKeys).map List.length))
  singleLengths : keys.singleLengths.Counts
    (graph.states.toList.map fun state => state.singles.size)
  rangeLengths : keys.rangeLengths.Counts (graph.states.toList.map fun state => state.ranges.size)
  indexOffsets : keys.indexOffsets.Counts
    (offsets 0 ((graph.states.toList.map row).map List.length))
  transKeys : keys.transKeys.Holds
    ((graph.states.toList.map sortedKeys).flatten.map Key.pattern)
  unindexed : direct = true → keys.indices = none
  indices : direct = false → ∃ column entries, keys.indices = some column ∧
    (graph.states.toList.map row).flatten.mapM (slotOf slots) = .ok entries ∧
      column.Counts entries

theorem sorted_of_binaryKeys {graph : Graph} {direct : Bool} {slots : List Nat} {keys : BinaryKeys}
    (built : graph.binaryKeys direct slots = .ok keys) : Sorted graph direct slots keys := by
  unfold binaryKeys at built
  simp only [bind_eq_ok, pure_eq_ok] at built
  rcases built with ⟨entries, entriesFound, _, keyOffsets, _, singleLengths, _, rangeLengths,
    _, indexOffsets, _, transKeys, _, indices, rfl⟩
  refine {
    keyOffsets := by
      rw [List.map_map]
      exact (counts_of_counts keyOffsets).1
    singleLengths := (counts_of_counts singleLengths).1
    rangeLengths := (counts_of_counts rangeLengths).1
    indexOffsets := by
      rw [List.map_map]
      exact (counts_of_counts indexOffsets).1
    transKeys := by simpa [List.flatMap_def] using (holds_of_column transKeys).1
    unindexed := ?_
    indices := ?_ }
  · intro isDirect
    rw [rowSlots, if_pos isDirect, pure_eq_ok] at entriesFound
    subst entriesFound
    exact (pure_eq_ok.mp indices).symm
  · intro notDirect
    rw [rowSlots, if_neg (by simp [notDirect]), map_eq_ok] at entriesFound
    rcases entriesFound with ⟨found, steps, rfl⟩
    rcases map_eq_ok.mp indices with ⟨column, built, rfl⟩
    exact ⟨column, found, rfl, by rwa [List.flatMap_def] at steps, (counts_of_counts built).1⟩

/-! ## Bisection of the columns -/

section Bisection

variable {graph : Graph} {direct : Bool} {slots : List Nat} {keys : BinaryKeys}
  {id : Nat} {state : State}

def keyStart (graph : Graph) (id : Nat) : Nat :=
  ((graph.states.toList.map sortedKeys).take id).flatten.length

theorem Sorted.read_key (sorted : Sorted graph direct slots keys)
    (declared : graph.states[id]? = some state) {index : Nat} {key : Key}
    (found : (sortedKeys state)[index]? = some key) :
    keys.transKeys.read (graph.keyStart id + index) = .ok key.pattern := by
  apply sorted.transKeys.read
  rw [List.getElem?_map]
  have part : (graph.states.toList.map sortedKeys)[id]? = some (sortedKeys state) := by
    simp [declared]
  rw [keyStart, getElem?_flatten_of_getElem? part found]
  rfl

theorem Sorted.bisect_singles (sorted : Sorted graph direct slots keys)
    (declared : graph.states[id]? = some state) (key : Key) :
    Search.bisect (keys.probeSingle graph.alphabet (graph.keyStart id) key) 0 state.singles.size =
      .ok (Search.position (Search.among
        (fun single => graph.alphabet.compare key single.key) state.singles) state.singles.size) := by
  have reads : ∀ index, 0 ≤ index → index < state.singles.size →
      keys.probeSingle graph.alphabet (graph.keyStart id) key (0 + index) =
        pure (Search.among (fun single => graph.alphabet.compare key single.key)
          state.singles index) := by
    intro index _ inside
    have found := Array.getElem?_eq_getElem inside
    rw [Nat.zero_add, Search.among_of_getElem? found]
    unfold BinaryKeys.probeSingle
    rw [sorted.read_key declared (getElem?_sortedKeys_single found)]
    rfl
  have result := Search.bisect_eq_pure reads
  simp only [Nat.zero_add, Option.map_id'] at result
  exact result

theorem Sorted.bisect_ranges (sorted : Sorted graph direct slots keys)
    (declared : graph.states[id]? = some state) (key : Key) :
    Search.bisect (keys.probeRange graph.alphabet (graph.keyStart id + state.singles.size) key)
        0 state.ranges.size =
      .ok (Search.position (Search.among
        (fun range => State.rangeSide graph.alphabet key range.low range.high) state.ranges)
          state.ranges.size) := by
  have reads : ∀ index, 0 ≤ index → index < state.ranges.size →
      keys.probeRange graph.alphabet (graph.keyStart id + state.singles.size) key (0 + index) =
        pure (Search.among (fun range => State.rangeSide graph.alphabet key range.low range.high)
          state.ranges index) := by
    intro index _ inside
    have found := Array.getElem?_eq_getElem inside
    rcases getElem?_sortedKeys_range found with ⟨low, high⟩
    rw [Nat.zero_add, Search.among_of_getElem? found]
    unfold BinaryKeys.probeRange State.rangeSide
    rw [Nat.add_assoc, sorted.read_key declared low, Nat.add_assoc, sorted.read_key declared high]
    change (if _ then _ else _) = _
    split
    next => rfl
    next =>
      change (if _ then _ else _) = _
      split <;> rfl
  have result := Search.bisect_eq_pure reads
  simp only [Nat.zero_add, Option.map_id'] at result
  exact result

theorem Sorted.lengths (sorted : Sorted graph direct slots keys)
    (declared : graph.states[id]? = some state) :
    keys.keyOffsets.readIndex id = .ok (graph.keyStart id) ∧
      keys.singleLengths.readIndex id = .ok state.singles.size ∧
      keys.rangeLengths.readIndex id = .ok state.ranges.size := by
  refine ⟨sorted.keyOffsets.readIndex ?_, sorted.singleLengths.readIndex ?_,
    sorted.rangeLengths.readIndex ?_⟩
  · have part : (graph.states.toList.map sortedKeys)[id]? = some (sortedKeys state) := by
      simp [declared]
    rw [getElem?_offsets 0 part, Nat.zero_add]
    rfl
  · simp [declared]
  · simp [declared]

theorem Sorted.position (sorted : Sorted graph direct slots keys)
    (declared : graph.states[id]? = some state) {key : Key} {transition : Nat}
    (found : state.locate graph.alphabet key = some transition) :
    ∃ position, keys.position graph.alphabet id key = .ok position ∧
      (row state)[position]? = some transition := by
  rcases sorted.lengths declared with ⟨start, singles, ranges⟩
  unfold BinaryKeys.position
  rw [start, singles, ranges]
  simp only [bind, Except.bind]
  rw [sorted.bisect_singles declared key]
  unfold State.locate at found
  rw [State.locateSingle_eq, State.locateRange_eq] at found
  cases atSingle : Search.position (Search.among
      (fun single => graph.alphabet.compare key single.key) state.singles) state.singles.size with
  | some index =>
      rcases (Search.between_eq_some atSingle) with ⟨_, inside, _⟩
      have single := Array.getElem?_eq_getElem inside
      refine ⟨index, rfl, ?_⟩
      rw [getElem?_row_single single]
      simpa [atSingle, single] using found
  | none =>
      simp only [atSingle, Option.bind_none, Option.none_or] at found
      rw [sorted.bisect_ranges declared key]
      cases atRange : Search.position (Search.among
          (fun range => State.rangeSide graph.alphabet key range.low range.high) state.ranges)
            state.ranges.size with
      | some index =>
          rcases (Search.between_eq_some atRange) with ⟨_, inside, _⟩
          have range := Array.getElem?_eq_getElem inside
          refine ⟨state.singles.size + index, rfl, ?_⟩
          rw [getElem?_row_range range]
          simpa [atRange, range] using found
      | none =>
          simp only [atRange, Option.bind_none, Option.none_or] at found
          exact ⟨state.singles.size + state.ranges.size, rfl, getElem?_row_fallback found⟩

theorem Sorted.locate (sorted : Sorted graph direct (graph.keySlots direct) keys)
    (declared : graph.states[id]? = some state) {key : Key} {transition : Nat}
    (found : state.locate graph.alphabet key = some transition) :
    ∃ slot, keys.locate graph.alphabet id key = .ok slot ∧
      (graph.keySlots direct)[slot]? = some transition := by
  rcases sorted.position declared found with ⟨position, positionFound, inRow⟩
  have part : (graph.states.toList.map row)[id]? = some (row state) := by
    simp [declared]
  have start := sorted.indexOffsets.readIndex (getElem?_offsets 0 part)
  have entry := getElem?_flatten_of_getElem? part inRow
  rw [Nat.zero_add] at start
  unfold BinaryKeys.locate
  rw [positionFound, start]
  cases direct with
  | true =>
      rw [sorted.unindexed rfl]
      refine ⟨_, rfl, ?_⟩
      rw [keySlots, if_pos rfl, List.flatMap_def]
      exact entry
  | false =>
      rcases sorted.indices rfl with ⟨column, entries, isColumn, steps, counts⟩
      rcases (mapM_eq_ok.mp steps).2 _ _ entry with ⟨slot, stored, isSlot⟩
      rw [isColumn]
      exact ⟨slot, counts.readIndex stored, getElem?_of_slotOf isSlot⟩

end Bisection

end Graph

end StateTables
