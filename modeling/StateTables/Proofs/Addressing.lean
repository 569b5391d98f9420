import StateTables.Proofs.CanonicalForm
import StateTables.Proofs.Confinement
import StateTables.Proofs.Dispatch

/-! # Layouts that cannot fail

Laying out a graph that was built asks only for slots and classes that are there and finds every
action list where it is expected. What remains is the size of the tables: positions and numbers
have to fit into cells of 64 bits. The size of a graph bounds all of them.
-/

namespace StateTables

/-! ## Computations that fail for lack of room only -/

/-- A problem with the size of a graph: a column cannot be addressed, so its parts do not fit, or
an action list lies behind all locations, so its lists are not placed. -/
inductive Excess (fits placed : Prop) : EncodingError → Prop
  | oversized {column : String} : ¬fits → Excess fits placed (.oversized column)
  | misplaced {list : Nat} {location : UInt32} {expected : Nat} : ¬placed →
      Excess fits placed (.misplacedList list location expected)

def Completes {α : Type} (fits placed : Prop) (step : Except EncodingError α) : Prop :=
  ∀ problem, step = .error problem → Excess fits placed problem

namespace Completes

variable {α β : Type} {fits placed : Prop} {step : Except EncodingError α}

theorem pure (value : α) : Completes fits placed (.ok value) :=
  fun _ failed => by cases failed

theorem map (first : Completes fits placed step) (change : α → β) :
    Completes fits placed (change <$> step) := by
  intro problem failed
  cases step with
  | ok value => cases failed
  | error other =>
      cases failed
      exact first _ rfl

theorem bind {next : α → Except EncodingError β} (first : Completes fits placed step)
    (rest : ∀ value, step = .ok value → Completes fits placed (next value)) :
    Completes fits placed (step >>= next) := by
  intro problem failed
  rcases bind_eq_error.mp failed with failed | ⟨value, made, failed⟩
  · exact first problem failed
  · exact rest value made problem failed

theorem mapM {values : List α} {next : α → Except EncodingError β}
    (each : ∀ value ∈ values, Completes fits placed (next value)) :
    Completes fits placed (values.mapM next) := by
  induction values with
  | nil => exact pure []
  | cons value rest induction =>
      rw [List.mapM_cons]
      refine (each value (by simp)).bind fun first _ => ?_
      refine (induction fun other member => each other (by simp [member])).bind fun others _ => ?_
      exact pure (first :: others)

theorem weaken {more : Prop} (completes : Completes fits placed step) (enough : more → fits) :
    Completes more placed step := by
  intro problem failed
  cases completes problem failed with
  | oversized lacks => exact .oversized fun holds => lacks (enough holds)
  | misplaced lacks => exact .misplaced lacks

end Completes

theorem exists_of_mapM_error {ε α β : Type} {step : α → Except ε β} {values : List α}
    {problem : ε} (failed : values.mapM step = .error problem) :
    ∃ value ∈ values, step value = .error problem := by
  induction values with
  | nil => cases failed
  | cons value rest induction =>
      rw [List.mapM_cons] at failed
      rcases bind_eq_error.mp failed with here | ⟨first, _, failed⟩
      · exact ⟨value, by simp, here⟩
      · rcases bind_eq_error.mp failed with later | ⟨_, _, failed⟩
        · rcases induction later with ⟨other, member, found⟩
          exact ⟨other, by simp [member], found⟩
        · cases failed

/-- Parts made one by one are together no longer than their bounds say. -/
theorem length_flatten_of_mapM {ε α β γ : Type} {step : α → Except ε β} {values : List α}
    {results : List β} (part : β → List γ) (bound : α → Nat)
    (mapped : values.mapM step = .ok results)
    (each : ∀ value ∈ values, ∀ result, step value = .ok result →
      (part result).length ≤ bound value) :
    (results.map part).flatten.length ≤ (values.map bound).sum := by
  induction values generalizing results with
  | nil =>
      cases mapped
      simp
  | cons value rest induction =>
      simp only [List.mapM_cons, bind_eq_ok, pure_eq_ok] at mapped
      rcases mapped with ⟨first, firstMade, others, othersMade, rfl⟩
      have head := each value (by simp) first firstMade
      have tail := induction othersMade fun other member => each other (by simp [member])
      simp only [List.map_cons, List.flatten_cons, List.length_append, List.sum_cons]
      omega

theorem length_le_length_flatMap {α β : Type} {parts : List α} {part : α} (cells : α → List β)
    (member : part ∈ parts) : (cells part).length ≤ (parts.flatMap cells).length := by
  rw [List.flatMap_def]
  exact (List.sublist_flatten_of_mem (List.mem_map_of_mem member)).length_le

namespace Graph

variable {graph : Graph} {options : EncodingOptions} {fits placed : Prop} {name : String}

/-! ## Columns -/

theorem cellBound_pos : 0 < cellBound :=
  Nat.two_pow_pos 63

theorem completes_column {values : List Int64} {storage : Column.Storage}
    (room : fits → values.length < cellBound) :
    Completes fits placed (column name values storage) := by
  intro problem failed
  unfold column at failed
  split at failed
  next tooLong =>
    cases failed
    exact .oversized fun holds => Nat.not_lt.mpr tooLong (room holds)
  next =>
    rw [Column.build_eq_ok] at failed
    cases failed

theorem completes_counts {numbers : List Nat} (room : fits → numbers.length < cellBound)
    (small : fits → ∀ number ∈ numbers, number < cellBound) :
    Completes fits placed (counts name numbers) := by
  unfold counts
  split
  next => exact completes_column fun holds => by simpa using room holds
  next tooLarge =>
    intro problem failed
    cases failed
    exact .oversized fun holds => tooLarge (by simpa using small holds)

theorem completes_spaceColumn {spaces : List (Option Nat)}
    (room : fits → spaces.length < cellBound)
    (small : fits → ∀ space, some space ∈ spaces → space < cellBound) :
    Completes fits placed (spaceColumn name spaces) := by
  unfold spaceColumn
  split
  next => exact completes_column fun holds => by simpa using room holds
  next tooLarge =>
    intro problem failed
    cases failed
    refine .oversized fun holds => tooLarge (List.all_eq_true.mpr fun space member => ?_)
    cases space with
    | none => rfl
    | some space => simpa using small holds space member

theorem length_offsets (start : Nat) (lengths : List Nat) :
    (offsets start lengths).length = lengths.length := by
  induction lengths generalizing start with
  | nil => rfl
  | cons length rest induction => simp [offsets, induction]

theorem le_of_mem_offsets {start offset : Nat} {lengths : List Nat}
    (member : offset ∈ offsets start lengths) : offset ≤ start + lengths.sum := by
  induction lengths generalizing start with
  | nil => cases member
  | cons length rest induction =>
      rcases List.mem_cons.mp member with rfl | later
      · omega
      · have behind := induction later
        rw [List.sum_cons]
        omega

theorem completes_offsets {lengths : List Nat} (room : fits → lengths.length < cellBound)
    (small : fits → lengths.sum < cellBound) :
    Completes fits placed (counts name (offsets 0 lengths)) := by
  refine completes_counts (fun holds => ?_) fun holds offset member => ?_
  · rw [length_offsets]
    exact room holds
  · have before := le_of_mem_offsets member
    have total := small holds
    omega

/-! ## The size of the tables -/

def width (graph : Graph) (envelope : Option KeyInterval) : Nat :=
  (envelope.map fun interval => (graph.alphabet.span interval.low interval.high).toNat).getD 0

def denseCells (graph : Graph) (options : EncodingOptions) : Nat :=
  if options.classMap then (graph.states.size + 1) * graph.width graph.envelope
  else (graph.states.toList.map fun state => graph.width (state.envelope graph.alphabet)).sum

def keyCells (graph : Graph) (options : EncodingOptions) : Nat :=
  match options.kind with
  | .flat => graph.denseCells options
  | .binary => (graph.states.toList.flatMap sortedKeys).length +
      (graph.states.toList.flatMap row).length
  | .switch => 0

/-- A bound of the lengths of all columns and of the numbers that stand in them. -/
def cells (graph : Graph) (options : EncodingOptions) : Nat :=
  let slots := (graph.slots (graph.isDirect options)).transitions.toList
  graph.keyCells options + slots.length + (graph.entries slots).length +
    2 * graph.states.size + graph.spaces.size + graph.actions.size +
    (graph.lists.toList.flatMap listCells).length +
    (graph.states.toList.flatMap State.eofValues).length +
    (graph.states.toList.flatMap State.alternates).length + 2

/-- There is room for all parts of the tables. -/
structure Roomy (graph : Graph) (options : EncodingOptions) : Prop where
  keys : graph.keyCells options < cellBound
  slots : (graph.slots (graph.isDirect options)).transitions.size < cellBound
  entries : (graph.entries (graph.slots (graph.isDirect options)).transitions.toList).length + 1 <
    cellBound
  states : 2 * graph.states.size < cellBound
  spaces : graph.spaces.size < cellBound
  actions : graph.actions.size < cellBound
  lists : (graph.lists.toList.flatMap listCells).length + 1 < cellBound
  values : (graph.states.toList.flatMap State.eofValues).length < cellBound
  alternates : graph.states.size + (graph.states.toList.flatMap State.alternates).length + 1 <
    cellBound

theorem roomy_of_cells (fit : graph.cells options < cellBound) : graph.Roomy options := by
  unfold cells at fit
  dsimp only at fit
  rw [Array.length_toList] at fit
  constructor <;> omega

theorem Roomy.state (roomy : graph.Roomy options) : graph.states.size < cellBound := by
  have pairs := roomy.states
  omega

/-! ## Columns that all layouts share -/

theorem misplaced_eq_none_iff {id place : Nat} {lists : List ActionList} :
    misplaced id place lists = none ↔ Contiguous place lists := by
  induction lists generalizing id place with
  | nil => exact iff_of_true rfl ⟨by simp, by simp⟩
  | cons list rest induction =>
      unfold misplaced
      split
      next here =>
        rw [induction]
        refine ⟨fun contiguous => ?_, Contiguous.tail⟩
        refine ⟨fun first found => ?_, fun index before behind found next => ?_⟩
        · cases found
          exact here
        · cases index with
          | zero =>
              cases found
              rw [contiguous.first behind next, here]
          | succ index => exact contiguous.next index before behind found next
      next elsewhere =>
        exact iff_of_false (by simp) fun contiguous => elsewhere (contiguous.first list rfl)

theorem exists_of_misplaced {id place : Nat} {lists : List ActionList} {problem : EncodingError}
    (found : misplaced id place lists = some problem) :
    ∃ list location expected, problem = .misplacedList list location expected := by
  induction lists generalizing id place with
  | nil => cases found
  | cons list rest induction =>
      unfold misplaced at found
      split at found
      next => exact induction found
      next =>
        cases found
        exact ⟨_, _, _, rfl⟩

theorem Built.canonical (built : graph.Built) : graph.Canonical := by
  rcases built with ⟨draft, after, _, result⟩
  rcases Draft.build_eq_ok result with ⟨_, _, _, rfl, _⟩
  exact canonical_mergeDuplicates _

theorem Linked.transitionAt_mem (linked : graph.Linked) {direct : Bool} {number : Nat}
    (isSlot : number ∈ (graph.slots direct).transitions.toList) :
    graph.transitionAt number ∈ graph.transitions := by
  have inside := linked.lt_of_mem_slots (by simpa using isSlot)
  have found := Array.getElem?_eq_getElem inside
  rw [transitionAt, found, Option.getD_some]
  exact Array.mem_of_getElem? found

theorem Linked.target_lt (linked : graph.Linked) {direct : Bool} {outcome : Outcome}
    (member : outcome ∈ graph.entries (graph.slots direct).transitions.toList) :
    (graph.conditionAt outcome.condition).target < graph.states.size := by
  rcases List.mem_flatMap.mp member with ⟨number, isSlot, listed⟩
  have inside := linked.outcomes _ (linked.transitionAt_mem isSlot) outcome (by simpa using listed)
  have found := Array.getElem?_eq_getElem inside
  rw [conditionAt, found, Option.getD_some]
  exact linked.targets _ (Array.mem_of_getElem? found)

theorem completes_eofGuards (furnished : graph.Furnished) :
    Completes (graph.Roomy options) placed graph.eofGuards := by
  unfold eofGuards
  split
  next =>
    refine Completes.map ?_ _
    unfold eofGuardColumns
    refine (completes_spaceColumn (fun roomy => ?_) fun roomy space member => ?_).bind
      fun spaces _ => ?_
    · simpa using roomy.state
    · rcases List.mem_map.mp member with ⟨state, declared, guard⟩
      exact Nat.lt_trans (furnished.guards state (by simpa using declared) space guard) roomy.spaces
    refine (completes_offsets (fun roomy => ?_) fun roomy => ?_).bind fun offsets _ => ?_
    · simpa using roomy.state
    · simpa [List.length_flatMap] using roomy.values
    refine (completes_counts (fun roomy => ?_) fun roomy length member => ?_).bind
      fun lengths _ => ?_
    · simpa using roomy.state
    · rcases List.mem_map.mp member with ⟨state, declared, rfl⟩
      exact Nat.lt_of_le_of_lt (length_le_length_flatMap State.eofValues declared) roomy.values
    refine (completes_column fun roomy => ?_).bind fun keys _ => .pure _
    simpa using roomy.values
  next => exact .pure none

theorem EofSlots.lt_of_mem {states : List State} {slots : Slots} (slotted : EofSlots states slots)
    {slot : Nat} (member : some slot ∈ slots.eof) : slot < slots.transitions.size := by
  rcases List.mem_iff_getElem?.mp member with ⟨index, found⟩
  rcases List.getElem?_eq_some_iff.mp found with ⟨inside, _⟩
  rw [slotted.length] at inside
  rcases slotted.slot index _ (List.getElem?_eq_getElem inside) with ⟨own, stored, refers⟩
  cases found.symm.trans stored
  split at refers
  next => cases refers
  next =>
    rcases refers with ⟨_, same, position⟩
    cases same
    exact (Array.getElem?_eq_some_iff.mp position).1

/-- Locations have half as many bits as cells. -/
theorem location_lt (list : Option Nat) : graph.location list < cellBound := by
  have bound : ∀ location : UInt32, location.toNat < cellBound := fun location =>
    Nat.lt_trans location.toNat_lt (Nat.pow_lt_pow_right (by decide) (by decide))
  cases list with
  | none => exact cellBound_pos
  | some number => exact bound _

theorem completes_places (list : State → Option Nat) : Completes (graph.Roomy options) placed
    (counts name (graph.states.toList.map fun state => graph.location (list state))) := by
  refine completes_counts (fun roomy => ?_) fun roomy place member => ?_
  · simpa using roomy.state
  · rcases List.mem_map.mp member with ⟨state, _, rfl⟩
    exact location_lt _

theorem completes_stateActions (list : State → Option Nat) :
    Completes (graph.Roomy options) placed (graph.stateActions name list) := by
  unfold stateActions
  split
  next => exact (completes_places list).map _
  next => exact .pure none

/-- The table of actions has room, and its lists are in place, if every list has a location. -/
theorem completes_actionColumn (canonical : graph.Canonical) (linked : graph.Linked) :
    Completes (graph.Roomy options) graph.Locatable graph.actionColumn := by
  unfold actionColumn
  split
  next problem found =>
    intro failed isFailed
    cases isFailed
    rcases exists_of_misplaced found with ⟨_, _, _, rfl⟩
    refine .misplaced fun locatable => ?_
    have placed : misplaced 0 1 graph.lists.toList = none :=
      misplaced_eq_none_iff.mpr (canonical.contiguous_iff.mpr locatable)
    cases placed.symm.trans found
  next =>
    refine completes_counts (fun roomy => ?_) fun roomy number member => ?_
    · exact roomy.lists
    · have room := roomy.lists
      rcases List.mem_cons.mp member with rfl | inList
      · exact cellBound_pos
      · rcases List.mem_flatMap.mp inList with ⟨list, isList, inCells⟩
        have listed : list ∈ graph.lists := by simpa using isList
        rcases List.mem_cons.mp inCells with rfl | isAction
        · have part := length_le_length_flatMap listCells isList
          have length : (listCells list).length = list.actions.length + 1 := rfl
          omega
        · exact Nat.lt_trans (linked.listActions list listed number isAction) roomy.actions

theorem completes_conditionColumns (wired : graph.Wired) :
    Completes (graph.Roomy options) placed (graph.conditionColumns
      (graph.entries (graph.slots (graph.isDirect options)).transitions.toList)) := by
  unfold conditionColumns
  refine (completes_column fun roomy => ?_).bind fun keys _ => ?_
  · simpa using roomy.entries
  refine (completes_counts (fun roomy => ?_) fun roomy target member => ?_).bind fun targets _ => ?_
  · simpa using roomy.entries
  · refine Nat.lt_trans ?_ roomy.state
    rcases List.mem_append.mp member with isTarget | isError
    · rcases List.mem_map.mp isTarget with ⟨condition, isCondition, rfl⟩
      rcases List.mem_map.mp isCondition with ⟨outcome, isOutcome, rfl⟩
      exact wired.linked.target_lt isOutcome
    · rw [List.mem_singleton.mp isError]
      exact wired.getD_error_lt
  refine (completes_counts (fun roomy => ?_) fun roomy place member => ?_).bind fun actions _ => ?_
  · simpa using roomy.entries
  · rcases List.mem_append.mp member with isPlace | isZero
    · rcases List.mem_map.mp isPlace with ⟨condition, _, rfl⟩
      exact location_lt _
    · rw [List.mem_singleton.mp isZero]
      exact cellBound_pos
  exact .pure _

theorem completes_eofColumns (furnished : graph.Furnished) :
    Completes (graph.Roomy options) placed
      (graph.eofColumns (graph.slots (graph.isDirect options)).eof) := by
  have slotted := (graph.eofSlots_slots (graph.isDirect options)).1
  unfold eofColumns
  split
  next =>
    refine (completes_places State.eofActions).bind fun actions _ => ?_
    refine (completes_counts (fun roomy => ?_) fun roomy number member => ?_).bind
      fun transitions _ => ?_
    · simpa [slotted.length] using roomy.state
    · rcases List.mem_map.mp member with ⟨slot?, isSlot, rfl⟩
      cases slot? with
      | none => exact cellBound_pos
      | some slot => exact Nat.lt_of_le_of_lt (slotted.lt_of_mem isSlot) roomy.slots
    exact (completes_eofGuards furnished).bind fun guards _ => .pure _
  next => exact .pure none

theorem completes_transitionColumns (linked : graph.Linked) (direct : Bool) :
    Completes (graph.Roomy options) placed (graph.transitionColumns direct
      (graph.slots (graph.isDirect options)).transitions.toList) := by
  unfold transitionColumns
  refine (completes_spaceColumn (fun roomy => ?_) fun roomy space member => ?_).bind
    fun spaces _ => ?_
  · simpa using roomy.slots
  · rcases List.mem_map.mp member with ⟨transition, laidOut, guard⟩
    rcases List.mem_map.mp laidOut with ⟨number, isSlot, rfl⟩
    exact Nat.lt_trans (linked.spaces _ (linked.transitionAt_mem isSlot) space guard) roomy.spaces
  have total : ((((graph.slots (graph.isDirect options)).transitions.toList.map
      graph.transitionAt).map fun transition => transition.outcomes.size).sum) =
        (graph.entries (graph.slots (graph.isDirect options)).transitions.toList).length := by
    simp [entries, List.length_flatMap, Function.comp_def]
  refine (completes_offsets (fun roomy => ?_) fun roomy => ?_).bind fun offsets _ => ?_
  · simpa using roomy.slots
  · have room := roomy.entries
    omega
  refine (completes_counts (fun roomy => ?_) fun roomy length member => ?_).bind fun lengths _ => ?_
  · simpa using roomy.slots
  · rcases List.mem_map.mp member with ⟨transition, laidOut, rfl⟩
    rcases List.mem_map.mp laidOut with ⟨number, isSlot, rfl⟩
    have part := length_le_length_flatMap
      (fun transition => (graph.transitionAt transition).outcomes.toList) isSlot
    have room := roomy.entries
    rw [Array.length_toList] at part
    exact Nat.lt_of_le_of_lt part (Nat.lt_of_succ_lt room)
  exact .pure _

/-! ### Alternates -/

theorem length_alternateParts_le (front : State → Nat) (cell : Alternate → Nat)
    (states : List State) : (states.flatMap (alternatePart front cell)).length ≤
      states.length + (states.flatMap State.alternates).length := by
  induction states with
  | nil => exact Nat.le_refl 0
  | cons state rest induction =>
      have part := length_alternatePart front cell state
      simp only [List.flatMap_cons, List.length_append, List.length_cons]
      split at part <;> omega

theorem length_alternateOffsets (start : Nat) (states : List State) :
    (alternateOffsets start states).length = states.length := by
  induction states generalizing start with
  | nil => rfl
  | cons state rest induction =>
      unfold alternateOffsets
      split <;> simp [induction]

theorem le_of_mem_alternateOffsets {start offset : Nat} {states : List State}
    (member : offset ∈ alternateOffsets start states) :
    offset ≤ start + states.length + (states.flatMap State.alternates).length := by
  induction states generalizing start with
  | nil => cases member
  | cons state rest induction =>
      simp only [List.flatMap_cons, List.length_append, List.length_cons]
      unfold alternateOffsets at member
      split at member
      all_goals
        rcases List.mem_cons.mp member with rfl | later
        · omega
        · have behind := induction later
          omega

theorem completes_alternateCells (front : State → Nat) (cell : Alternate → Nat)
    (small : graph.Roomy options → ∀ state ∈ graph.states,
      front state < cellBound ∧ ∀ alternate ∈ state.alternates, cell alternate < cellBound) :
    Completes (graph.Roomy options) placed (counts name (graph.alternateCells front cell)) := by
  refine completes_counts (fun roomy => ?_) fun roomy number member => ?_
  · have parts := length_alternateParts_le front cell graph.states.toList
    have size : graph.states.toList.length = graph.states.size := Array.length_toList
    have room := roomy.alternates
    change (graph.states.toList.flatMap (alternatePart front cell)).length + 1 < cellBound
    omega
  · rcases List.mem_cons.mp member with rfl | inPart
    · exact cellBound_pos
    · rcases List.mem_flatMap.mp inPart with ⟨state, declared, inside⟩
      split at inside
      next => cases inside
      next =>
        rcases small roomy state (by simpa using declared) with ⟨first, others⟩
        rcases List.mem_cons.mp inside with rfl | isCell
        · exact first
        · rcases List.mem_map.mp isCell with ⟨alternate, isAlternate, rfl⟩
          exact others alternate isAlternate

theorem completes_alternateColumns (linked : graph.Linked) :
    Completes (graph.Roomy options) placed graph.alternateColumns := by
  unfold alternateColumns
  split
  next =>
    refine (completes_counts (fun roomy => ?_) fun roomy offset member => ?_).bind
      fun offsets _ => ?_
    · rw [length_alternateOffsets]
      simpa using roomy.state
    · have bound := le_of_mem_alternateOffsets member
      have room := roomy.alternates
      rw [Array.length_toList] at bound
      omega
    refine (completes_alternateCells _ _ fun roomy state declared =>
      ⟨?_, fun alternate isAlternate => ?_⟩).bind fun targets _ => ?_
    · have part := length_le_length_flatMap State.alternates (Array.mem_toList_iff.mpr declared)
      have room := roomy.alternates
      omega
    · exact Nat.lt_trans ((linked.states state declared).targets alternate isAlternate) roomy.state
    refine (completes_alternateCells _ _ fun roomy state _ => ⟨cellBound_pos, fun alternate _ =>
      location_lt _⟩).bind fun pushActions _ => ?_
    refine (completes_alternateCells _ _ fun roomy state _ => ⟨cellBound_pos, fun alternate _ =>
      location_lt _⟩).bind fun popTests _ => ?_
    exact .pure _
  next => exact .pure none

end Graph

end StateTables
