import StateTables.Proofs.Slots

/-! # Columns beside the transitions

The table of actions has every action list at its place. The columns with an entry
for each state hold the places of its actions, what it does at the end of input, and
where its alternates stand.
-/

namespace StateTables

namespace Graph

/-! ## The table of actions -/

def listCells (list : ActionList) : List Nat :=
  list.actions.length :: list.actions

/-- A place in the table of actions that stands for a list, or for no actions. -/
def IsPlace (graph : Graph) (location : Nat) : Prop :=
  location = 0 ∨ ∃ list ∈ graph.lists, list.location.toNat = location

theorem isPlace_location (graph : Graph) (list : Option Nat) :
    graph.IsPlace (graph.location list) := by
  cases list with
  | none => exact .inl rfl
  | some number =>
      cases found : graph.lists[number]? with
      | none => exact .inl (by simp [location, found])
      | some list =>
          exact .inr ⟨list, Array.mem_of_getElem? found, by simp [location, found]⟩

theorem location_of_misplaced {id expected : Nat} {lists : List ActionList}
    (placed : misplaced id expected lists = none) {index : Nat} {list : ActionList}
    (found : lists[index]? = some list) :
    list.location.toNat = expected + ((lists.map listCells).take index).flatten.length := by
  induction lists generalizing id expected index with
  | nil => simp at found
  | cons head tail induction =>
      unfold misplaced at placed
      split at placed
      next here =>
        cases index with
        | zero =>
            have same : head = list := by simpa using found
            simpa [← same] using here
        | succ index =>
            rw [induction placed (by simpa using found)]
            simp [listCells]
            omega
      next => cases placed

section Actions

variable {graph : Graph} {options : EncodingOptions} {encoding : Encoding}

theorem Laid.actionTable_counts (laid : graph.Laid options encoding) :
    misplaced 0 1 graph.lists.toList = none ∧
      encoding.actionTable.Counts (([0] :: graph.lists.toList.map listCells).flatten) := by
  have made := laid.actionTable
  unfold actionColumn at made
  split at made
  next => cases made
  next placed =>
    refine ⟨placed, ?_⟩
    rw [List.flatten_cons, ← List.flatMap_def]
    exact (counts_of_counts made).1

theorem Laid.actionsAt_list (laid : graph.Laid options encoding) {list : ActionList}
    (member : list ∈ graph.lists) : encoding.actionsAt list.location.toNat = .ok list.actions := by
  rcases laid.actionTable_counts with ⟨placed, counts⟩
  rcases Array.mem_iff_getElem?.mp member with ⟨index, found⟩
  have inList : graph.lists.toList[index]? = some list := by simpa using found
  have part : ([0] :: graph.lists.toList.map listCells)[index + 1]? = some (listCells list) := by
    simp [found]
  have place : list.location.toNat =
      (([0] :: graph.lists.toList.map listCells).take (index + 1)).flatten.length := by
    rw [location_of_misplaced placed inList]
    simp
    omega
  unfold Encoding.actionsAt
  have length : encoding.actionTable.readIndex list.location.toNat = .ok list.actions.length := by
    have first : (listCells list)[0]? = some list.actions.length := rfl
    rw [place]
    exact counts.readIndex (getElem?_flatten_of_getElem? part first)
  rw [length]
  apply counts.readIndices
  intro offset action here
  rw [place, Nat.add_assoc, Nat.add_comm 1]
  exact getElem?_flatten_of_getElem? part here

theorem Laid.actionsAt_place (laid : graph.Laid options encoding) (linked : graph.Linked)
    {location : Nat} (place : graph.IsPlace location) (used : location ≠ 0) :
    ∃ actions, encoding.actionsAt location = .ok actions ∧ graph.actionsAt location = .ok actions ∧
      ∀ action ∈ actions, action < graph.actions.size := by
  rcases place with unplaced | ⟨list, member, rfl⟩
  · exact absurd unplaced used
  refine ⟨list.actions, laid.actionsAt_list member, ?_, linked.listActions list member⟩
  unfold actionsAt
  cases found : graph.lists.find? fun other => other.location.toNat = list.location.toNat with
  | none =>
      have missing := Array.find?_eq_none.mp found list member
      simp at missing
  | some other =>
      -- Lists at one place are read from the same cells.
      have same : other.location.toNat = list.location.toNat := by simpa using Array.find?_some found
      have first := laid.actionsAt_list (Array.mem_of_find?_eq_some found)
      rw [same, laid.actionsAt_list member] at first
      exact first.symm

end Actions

/-! ## Actions of states -/

section States

variable {graph : Graph} {options : EncodingOptions} {encoding : Encoding}
  {id : Nat} {state : State}

theorem stateActions_eq_ok {name : String} {list : State → Option Nat} {column : Option Column}
    (made : graph.stateActions name list = .ok column) (declared : graph.states[id]? = some state) :
    Encoding.stateActions column id = .ok (graph.location (list state)) := by
  unfold stateActions at made
  split at made
  next =>
    rcases map_eq_ok.mp made with ⟨column, built, rfl⟩
    exact (counts_of_counts built).1.readIndex (by simp [declared])
  next nowhere =>
    cases made
    have missing : list state = none := by
      cases here : list state with
      | none => rfl
      | some number =>
          exact absurd (Array.any_eq_true'.mpr
            ⟨state, Array.mem_of_getElem? declared, by simp [here]⟩) nowhere
    rw [missing]
    rfl

/-! ## End of input -/

theorem hasEof_of_not_hasEof (nowhere : ¬graph.hasEof = true)
    (declared : graph.states[id]? = some state) :
    state.eofActions = none ∧ state.eofTransition = none ∧ state.eofGuard = none := by
  have here : ¬state.hasEof = true := fun has =>
    nowhere (Array.any_eq_true'.mpr ⟨state, Array.mem_of_getElem? declared, has⟩)
  simp only [State.hasEof, Bool.or_eq_true, not_or] at here
  simpa [and_assoc] using here

theorem Laid.eof_cases (laid : graph.Laid options encoding) :
    (¬graph.hasEof = true ∧ encoding.eof = none) ∨
    ∃ columns, encoding.eof = some columns ∧
      columns.actions.Counts
        (graph.states.toList.map fun state => graph.location state.eofActions) ∧
      columns.transitions.Counts ((graph.slots (graph.isDirect options)).eof.map fun slot =>
        (slot.map (· + 1)).getD 0) ∧
      graph.eofGuards = .ok columns.guards := by
  have made := laid.eof
  unfold eofColumns at made
  split at made
  next =>
    simp only [bind_eq_ok, pure_eq_ok] at made
    rcases made with ⟨_, actionsBuilt, _, transitionsBuilt, _, guardsMade, same⟩
    exact .inr ⟨_, same.symm, (counts_of_counts actionsBuilt).1,
      (counts_of_counts transitionsBuilt).1, guardsMade⟩
  next nowhere =>
    exact .inl ⟨nowhere, (pure_eq_ok.mp made).symm⟩

theorem Laid.eofActions (laid : graph.Laid options encoding)
    (declared : graph.states[id]? = some state) :
    Encoding.stateActions (encoding.eof.map EofColumns.actions) id =
      .ok (graph.location state.eofActions) := by
  rcases laid.eof_cases with ⟨nowhere, missing⟩ | ⟨columns, present, actions, _, _⟩
  · rw [missing, (hasEof_of_not_hasEof nowhere declared).1]
    rfl
  · rw [present]
    exact actions.readIndex (by simp [declared])

theorem Laid.eofTransition (laid : graph.Laid options encoding)
    (declared : graph.states[id]? = some state) :
    match state.eofTransition with
    | none => encoding.eofTransition id = .ok none
    | some transition => ∃ slot, encoding.eofTransition id = .ok (some slot) ∧
        (graph.slots (graph.isDirect options)).transitions[slot]? = some transition := by
  unfold Encoding.eofTransition
  rcases laid.eof_cases with ⟨nowhere, missing⟩ | ⟨columns, present, _, transitions, _⟩
  · rw [missing, (hasEof_of_not_hasEof nowhere declared).2.1]
  · rw [present]
    rcases (graph.eofSlots_slots (graph.isDirect options)).1.slot id state
      (by simpa using declared) with ⟨slot?, stored, own⟩
    have read := transitions.readIndex (by rw [List.getElem?_map, stored]; rfl)
    cases transition : state.eofTransition with
    | none =>
        simp only [transition] at own
        subst own
        simp only [read, bind, Except.bind]
        rfl
    | some number =>
        simp only [transition] at own
        rcases own with ⟨slot, rfl, position⟩
        refine ⟨slot, ?_, position⟩
        simp only [read, bind, Except.bind]
        rfl

/-! ### Guards -/

structure GuardsLaid (graph : Graph) (columns : EofGuardColumns) : Prop where
  spaces : columns.spaces.Spaces (graph.states.toList.map State.eofGuard)
  offsets : columns.offsets.Counts
    (offsets 0 ((graph.states.toList.map fun state => state.eofValues.map UInt64.toInt64).map
      List.length))
  lengths : columns.lengths.Counts (graph.states.toList.map fun state => state.eofValues.length)
  keys : columns.keys.Holds
    (graph.states.toList.map fun state => state.eofValues.map UInt64.toInt64).flatten

theorem guardsLaid_of_made {columns : EofGuardColumns}
    (made : graph.eofGuardColumns = .ok columns) : GuardsLaid graph columns := by
  unfold eofGuardColumns at made
  simp only [bind_eq_ok, pure_eq_ok] at made
  rcases made with ⟨_, spaces, _, starts, _, lengths, _, keys, rfl⟩
  exact {
    spaces := spaces_of_spaceColumn spaces
    offsets := by simpa [Function.comp_def] using (counts_of_counts starts).1
    lengths := (counts_of_counts lengths).1
    keys := by
      have holds := (holds_of_column keys).1
      rwa [List.flatMap_def, List.map_flatten, List.map_map] at holds }

theorem GuardsLaid.space {columns : EofGuardColumns} (laid : GuardsLaid graph columns)
    (declared : graph.states[id]? = some state) :
    columns.spaces.read id = .ok (spaceNumber state.eofGuard) ∧
      ∀ space, state.eofGuard = some space → space < cellBound := by
  have here : (graph.states.toList.map State.eofGuard)[id]? = some state.eofGuard := by
    simp [declared]
  refine ⟨laid.spaces.1.read (by rw [List.getElem?_map, here]; rfl), fun space guard => ?_⟩
  exact laid.spaces.2 space (guard ▸ List.mem_of_getElem? here)

theorem GuardsLaid.values {columns : EofGuardColumns} (laid : GuardsLaid graph columns)
    (declared : graph.states[id]? = some state) :
    (do columns.keys.readRow (← columns.offsets.readIndex id) (← columns.lengths.readIndex id)) =
      .ok (state.eofValues.map UInt64.toInt64) := by
  have part : (graph.states.toList.map fun state => state.eofValues.map UInt64.toInt64)[id]? =
      some (state.eofValues.map UInt64.toInt64) := by
    simp [declared]
  have start := laid.offsets.readIndex (getElem?_offsets 0 part)
  have length : columns.lengths.readIndex id =
      .ok (state.eofValues.map UInt64.toInt64).length := by
    rw [List.length_map]
    exact laid.lengths.readIndex (by simp [declared])
  rw [start, length, Nat.zero_add]
  exact laid.keys.readRow fun index value found => getElem?_flatten_of_getElem? part found

theorem Laid.eofGuard (laid : graph.Laid options encoding)
    (declared : graph.states[id]? = some state) :
    encoding.eofGuard id =
      .ok (state.eofGuard.map fun space => (space, state.eofValues)) := by
  unfold Encoding.eofGuard
  rcases laid.eof_cases with ⟨nowhere, missing⟩ | ⟨columns, present, _, _, guards⟩
  · rw [missing, (hasEof_of_not_hasEof nowhere declared).2.2]
    rfl
  · rw [present, Option.bind_some]
    unfold eofGuards at guards
    split at guards
    next =>
      rcases map_eq_ok.mp guards with ⟨guardColumns, made, same⟩
      have guardsLaid := guardsLaid_of_made made
      rcases guardsLaid.space declared with ⟨space, fits⟩
      have values := guardsLaid.values declared
      rw [← same]
      simp only [space, bind, Except.bind]
      cases guard : state.eofGuard with
      | none => rfl
      | some number =>
          rw [toInt_spaceNumber (fits number guard)]
          rcases bind_eq_ok.mp values with ⟨start, startRead, rest⟩
          rcases bind_eq_ok.mp rest with ⟨count, countRead, row⟩
          change (guardColumns.offsets.readIndex id >>= fun start =>
            guardColumns.lengths.readIndex id >>= fun count =>
              guardColumns.keys.readRow start count >>= fun values =>
                pure (some (number, values.map Int64.toUInt64))) = _
          rw [startRead]
          change (guardColumns.lengths.readIndex id >>= _) = _
          rw [countRead]
          change (guardColumns.keys.readRow start count >>= _) = _
          rw [row]
          change Except.ok (some (number, _)) = _
          simp [Function.comp_def]
    next nowhere =>
      have unguarded : state.eofGuard = none := by
        cases guard : state.eofGuard with
        | none => rfl
        | some number =>
            exact absurd (Array.any_eq_true'.mpr
              ⟨state, Array.mem_of_getElem? declared, by simp [guard]⟩) nowhere
      rw [← pure_eq_ok.mp guards, unguarded]
      rfl

/-! ## Alternates -/

/-- The cells that stand for the alternates of a state. -/
def alternatePart (front : State → Nat) (cell : Alternate → Nat) (state : State) : List Nat :=
  if state.alternates.isEmpty then [] else front state :: state.alternates.map cell

theorem length_alternatePart (front : State → Nat) (cell : Alternate → Nat) (state : State) :
    (alternatePart front cell state).length =
      if state.alternates.isEmpty then 0 else state.alternates.length + 1 := by
  unfold alternatePart
  split <;> simp

theorem getElem?_alternateOffsets (front : State → Nat) (cell : Alternate → Nat) (start : Nat)
    {states : List State} (found : states[id]? = some state) :
    (alternateOffsets start states)[id]? = some (if state.alternates.isEmpty then 0
      else start + ((states.map (alternatePart front cell)).take id).flatten.length) := by
  induction states generalizing start id with
  | nil => simp at found
  | cons head tail induction =>
      cases id with
      | zero =>
          cases (by simpa using found : head = state)
          unfold alternateOffsets
          split <;> simp
      | succ id =>
          have later := fun start => induction start (by simpa using found)
          have length := length_alternatePart front cell head
          unfold alternateOffsets
          split
          next none =>
            rw [if_pos none] at length
            simp only [List.getElem?_cons_succ, later, List.map_cons, List.take_succ_cons,
              List.flatten_cons, List.length_append, length, Nat.zero_add]
          next some =>
            rw [if_neg some] at length
            simp only [List.getElem?_cons_succ, later, List.map_cons, List.take_succ_cons,
              List.flatten_cons, List.length_append, length]
            congr 2
            omega

/-- At the offset of a state with alternates stands a cell of its own, and behind it a cell
for each alternate. -/
theorem getElem?_alternateCells (front : State → Nat) (cell : Alternate → Nat)
    (declared : graph.states[id]? = some state) (present : ¬state.alternates.isEmpty = true)
    {offset : Nat} (starts : (alternateOffsets 1 graph.states.toList)[id]? = some offset) :
    (graph.alternateCells front cell)[offset]? = some (front state) ∧
      ∀ (index : Nat) (alternate : Alternate), state.alternates[index]? = some alternate →
        (graph.alternateCells front cell)[offset + 1 + index]? = some (cell alternate) := by
  have inList : graph.states.toList[id]? = some state := by simpa using declared
  rw [getElem?_alternateOffsets front cell 1 inList, if_neg present, Option.some_inj] at starts
  let parts := [0] :: graph.states.toList.map (alternatePart front cell)
  have cells : graph.alternateCells front cell = parts.flatten := by
    rw [alternateCells, List.flatMap_def]
    rfl
  have part : parts[id + 1]? = some (front state :: state.alternates.map cell) := by
    simp [parts, declared, alternatePart, present]
  have start : offset = (parts.take (id + 1)).flatten.length := by
    simp only [parts, List.take_succ_cons, List.flatten_cons, List.length_append,
      List.length_singleton]
    exact starts.symm
  rw [cells, start]
  constructor
  · have first : (front state :: state.alternates.map cell)[0]? = some (front state) := rfl
    exact getElem?_flatten_of_getElem? part first
  · intro index alternate found
    rw [Nat.add_assoc, Nat.add_comm 1]
    exact getElem?_flatten_of_getElem? part (by simp [found])

structure AlternatesLaid (graph : Graph) (columns : AlternateColumns) : Prop where
  offsets : columns.offsets.Counts (alternateOffsets 1 graph.states.toList)
  targets : columns.targets.Counts
    (graph.alternateCells (fun state => state.alternates.length) Alternate.target)
  pushes : columns.pushActions.Counts
    (graph.alternateCells (fun _ => 0) fun alternate => graph.location alternate.push)
  popTests : columns.popTests.Counts
    (graph.alternateCells (fun _ => 0) fun alternate => graph.location alternate.popTest)

def pendingOf (graph : Graph) (alternate : Alternate) : PendingMove :=
  ⟨alternate.target, graph.location alternate.push, graph.location alternate.popTest⟩

theorem AlternatesLaid.alternatesOf {columns : AlternateColumns}
    (laid : AlternatesLaid graph columns) (declared : graph.states[id]? = some state) :
    Encoding.alternatesOf columns id = .ok (state.alternates.map graph.pendingOf) := by
  have stored := getElem?_alternateOffsets (fun _ => 0) (fun _ => 0) 1
    (by simpa using declared : graph.states.toList[id]? = some state)
  have starts := laid.offsets.readIndex stored
  unfold Encoding.alternatesOf
  by_cases none : state.alternates.isEmpty = true
  · rw [if_pos none] at starts
    rw [starts, List.isEmpty_iff.mp none]
    rfl
  · rw [if_neg none, Nat.add_comm] at starts stored
    rw [starts]
    generalize (((graph.states.toList.map (alternatePart (fun _ => 0) fun _ => 0)).take
      id).flatten.length) = before at stored
    rcases getElem?_alternateCells (fun state => state.alternates.length) Alternate.target
      declared none stored with ⟨count, target⟩
    have push := (getElem?_alternateCells (fun _ => 0)
      (fun alternate => graph.location alternate.push) declared none stored).2
    have popTest := (getElem?_alternateCells (fun _ => 0)
      (fun alternate => graph.location alternate.popTest) declared none stored).2
    change (columns.targets.readIndex (before + 1) >>= _) = _
    rw [laid.targets.readIndex count]
    have length : state.alternates.length = (state.alternates.map graph.pendingOf).length := by
      simp
    rw [length]
    apply Column.mapM_range_eq_ok
    intro index pending found
    rw [List.getElem?_map, Option.map_eq_some_iff] at found
    rcases found with ⟨alternate, here, rfl⟩
    rw [laid.targets.readIndex (target index alternate here),
      laid.pushes.readIndex (push index alternate here),
      laid.popTests.readIndex (popTest index alternate here)]
    rfl

theorem Laid.alternatesOf (laid : graph.Laid options encoding)
    (declared : graph.states[id]? = some state) :
    encoding.program.alternates id = .ok (state.alternates.map graph.pendingOf) := by
  have made := laid.alternates
  unfold alternateColumns at made
  unfold Encoding.program
  split at made
  next =>
    simp only [bind_eq_ok, pure_eq_ok] at made
    rcases made with ⟨offsets, offsetsMade, targets, targetsMade, pushes, pushesMade,
      popTests, popTestsMade, same⟩
    have columns : AlternatesLaid graph ⟨offsets, targets, pushes, popTests⟩ := {
      offsets := (counts_of_counts offsetsMade).1
      targets := (counts_of_counts targetsMade).1
      pushes := (counts_of_counts pushesMade).1
      popTests := (counts_of_counts popTestsMade).1 }
    rw [← same]
    exact columns.alternatesOf declared
  next nowhere =>
    have alone : state.alternates = [] := by
      cases alternates : state.alternates with
      | nil => rfl
      | cons first rest =>
          exact absurd (Array.any_eq_true'.mpr
            ⟨state, Array.mem_of_getElem? declared, by simp [alternates]⟩) nowhere
    rw [← pure_eq_ok.mp made, alone]
    rfl

end States

end Graph

end StateTables
