import StateTables.Proofs.KeyOrder
import StateTables.Proofs.Sharing

/-! # Graphs whose references lead somewhere

A graph that was built from a draft refers only to parts it has. All keys of the
alphabet have a transition in every state. The error state leads only back to
itself, and without an error state guarded transitions list all condition values.
Assembling makes such graphs, and merging duplicates keeps them.
-/

namespace StateTables

namespace Graph

structure Linked (graph : Graph) : Prop where
  start : graph.start < graph.states.size
  states : ∀ state ∈ graph.states,
    state.Linked graph.transitions.size graph.lists.size graph.states.size
  outcomes : ∀ transition ∈ graph.transitions, ∀ outcome ∈ transition.outcomes,
    outcome.condition < graph.conditions.size
  spaces : ∀ transition ∈ graph.transitions, ∀ space, transition.space = some space →
    space < graph.spaces.size
  targets : ∀ condition ∈ graph.conditions, condition.target < graph.states.size
  conditionLists : ∀ condition ∈ graph.conditions, ∀ list, condition.actions = some list →
    list < graph.lists.size
  listActions : ∀ list ∈ graph.lists, ∀ action ∈ list.actions, action < graph.actions.size
  actionTargets : ∀ action ∈ graph.actions, ∀ target, action.target = some target →
    target < graph.states.size

/-- Without a fallback, the singles and ranges of a state contain all keys. -/
def Covers (alphabet : Alphabet) (state : State) : Prop :=
  state.fallback = none → ∀ key, alphabet.contains key = true →
    (∃ single ∈ state.singles, single.key = key) ∨
      ∃ range ∈ state.ranges, alphabet.value range.low ≤ alphabet.value key ∧
        alphabet.value key ≤ alphabet.value range.high

/-- The error state does nothing but lead back to itself. -/
def Trapped (graph : Graph) : Prop :=
  ∀ error, graph.error = some error → ∃ way,
    graph.states[error]? = some (Draft.errorState way.2) ∧
      Draft.ErrorWay graph.conditions graph.transitions error way

/-- Condition spaces are small, and transitions list all their values if there is no
error state to take the others. -/
structure Exhaustive (graph : Graph) : Prop where
  small : ∀ space ∈ graph.spaces, 0 < space.size ∧ space.size ≤ 32
  complete : graph.error = none → ∀ transition ∈ graph.transitions, ∀ (number : Nat)
    (space : ConditionSpace), transition.space = some number →
      graph.spaces[number]? = some space → 2 ^ space.size ≤ transition.outcomes.size

/-- What a graph is that was built from a draft. -/
structure Wired (graph : Graph) : Prop where
  linked : graph.Linked
  covers : ∀ state ∈ graph.states, Covers graph.alphabet state
  trapped : graph.Trapped
  exhaustive : graph.Exhaustive

theorem Wired.error_lt {graph : Graph} (wired : graph.Wired) {state : Nat}
    (isError : graph.error = some state) : state < graph.states.size := by
  rcases wired.trapped state isError with ⟨_, declared, _⟩
  exact (Array.getElem?_eq_some_iff.mp declared).1

theorem Wired.getD_error_lt {graph : Graph} (wired : graph.Wired) :
    graph.error.getD 0 < graph.states.size := by
  cases error : graph.error with
  | none => exact Nat.lt_of_le_of_lt (Nat.zero_le _) wired.linked.start
  | some state => exact wired.error_lt error

end Graph

theorem ConditionValue.toNat_bit {index : Nat} (small : index < 64) :
    (bit index).toNat = 2 ^ index := by
  have power : 2 ^ index < 2 ^ 64 := Nat.pow_lt_pow_right (by omega) small
  simp only [bit, if_pos small, Nat.pow_eq]
  rw [UInt64.toNat_ofNat', Nat.mod_eq_of_lt power]

theorem ConditionSpace.toNat_combinations {space : ConditionSpace} (small : space.size ≤ 32) :
    space.combinations.toNat = 2 ^ space.size :=
  ConditionValue.toNat_bit (Nat.lt_of_le_of_lt small (by decide))

theorem ConditionSpace.toNat_lt {space : ConditionSpace} (small : space.size ≤ 32)
    {value : ConditionValue} (inside : value < space.combinations) :
    value.toNat < 2 ^ space.size := by
  rw [← toNat_combinations small]
  exact UInt64.lt_iff_toNat_lt.mp inside

/-! ## Assembling -/

namespace Draft

theorem exists_of_not_hasGap {alphabet : Alphabet} {expected key : Key} {claims : List Claim}
    (gapless : hasGap alphabet expected claims = false)
    (above : alphabet.value expected ≤ alphabet.value key)
    (below : alphabet.value key ≤ alphabet.value alphabet.high) :
    ∃ claim ∈ claims, alphabet.value claim.low ≤ alphabet.value key ∧
      alphabet.value key ≤ alphabet.value claim.high := by
  induction claims generalizing expected with
  | nil => simp [hasGap] at gapless
  | cons claim rest induction =>
      unfold hasGap at gapless
      split at gapless
      next => cases gapless
      next starts =>
        have starts : claim.low = expected := by simpa using starts
        by_cases inside : alphabet.value key ≤ alphabet.value claim.high
        · exact ⟨claim, by simp, by rw [starts]; exact above, inside⟩
        · split at gapless
          next last => exact absurd (last ▸ below) inside
          next =>
            have behind : alphabet.value claim.high < alphabet.value key := by omega
            have next := alphabet.value_successor behind
            rcases induction gapless (by omega) with ⟨other, member, contains⟩
            exact ⟨other, by simp [member], contains⟩

section Assembling

variable {draft : Draft}

theorem needsError_of_leavesGap {state : StateDraft} (declared : state ∈ draft.states)
    (gap : draft.leavesGap state = true) : draft.needsError = true := by
  unfold needsError
  rw [Bool.or_eq_true]
  refine .inr (Array.any_eq_true'.mpr ⟨state, declared, ?_⟩)
  rw [gap, Bool.true_or]

theorem reachesError_of_not_needsError (unneeded : draft.needsError = false)
    {state : StateDraft} (declared : state ∈ draft.states) {branch : Branch}
    (inside : branch ∈ branches state) : reachesError branch = false := by
  cases reaches : reachesError branch with
  | false => rfl
  | true =>
      have needed : draft.needsError = true := by
        unfold needsError
        rw [Bool.or_eq_true]
        refine .inr (Array.any_eq_true'.mpr ⟨state, declared, ?_⟩)
        rw [Bool.or_eq_true]
        exact .inr (List.any_eq_true.mpr ⟨branch, inside, reaches⟩)
      rw [unneeded] at needed
      cases needed

theorem needsError_of_target {state : StateDraft} (declared : state ∈ draft.states)
    {branch : Branch} (inside : branch ∈ branches state) {outcome : OutcomeDraft}
    (member : outcome ∈ branch.outcomes) (empty : outcome.target.state.isEmpty = true) :
    draft.needsError = true := by
  cases needed : draft.needsError with
  | true => rfl
  | false =>
      have unreached := reachesError_of_not_needsError needed declared inside
      have reaches : reachesError branch = true := by
        unfold reachesError
        rw [Bool.or_eq_true]
        exact .inr (List.any_eq_true.mpr ⟨outcome, member, empty⟩)
      cases unreached.symm.trans reaches

/-- A guarded branch that does not reach the error state lists all values. -/
theorem combinations_le_of_not_reachesError {branch : Branch} {space : ConditionSpace}
    (guard : branch.space = some space) (small : space.size ≤ 32)
    (reaches : reachesError branch = false) : 2 ^ space.size ≤ branch.outcomes.length := by
  have enough : ¬UInt64.ofNat branch.outcomes.length < space.combinations := by
    intro few
    have reaching : reachesError branch = true := by
      simp [reachesError, guard, few]
    rw [reaches] at reaching
    cases reaching
  rw [UInt64.lt_iff_toNat_lt, ConditionSpace.toNat_combinations small,
    UInt64.toNat_ofNat'] at enough
  have cut := Nat.mod_le branch.outcomes.length (2 ^ 64)
  omega

/-- What sharing all states leaves behind. -/
structure Assembly (draft : Draft) (pool : Pool) (error : Option (Nat × Nat))
    (states : List State) : Prop where
  unneeded : draft.errorNumber? = none → error = none
  way : ∀ number, draft.errorNumber? = some number →
    ∃ way, error = some way ∧ ErrorWay pool.conditions pool.transitions number way
  length : states.length = draft.states.size
  each : ∀ (index : Nat) (source : StateDraft), draft.states.toList[index]? = some source →
    ∃ state, states[index]? = some state ∧ Finished draft (error.map Prod.snd) pool source state

theorem Assembly.finished {pool : Pool} {error : Option (Nat × Nat)} {states : List State}
    (assembly : Assembly draft pool error states) {state : State} (member : state ∈ states) :
    ∃ source ∈ draft.states, Finished draft (error.map Prod.snd) pool source state := by
  rcases Shares.of_mem (by simpa using assembly.length) assembly.each member with
    ⟨source, declared, property⟩
  exact ⟨source, by simpa using declared, property⟩

theorem shares_shareAll (inhabited : 0 < draft.states.size) :
    Shares draft .empty draft.shareAll fun pool result =>
      Assembly draft pool result.1 result.2 := by
  unfold shareAll
  refine .bind (shares_shareError (Pool.closed_empty draft)) ?_
  intro error first firstClosed _ shared
  rcases shared with ⟨unneeded, way⟩
  have errorInside : ∀ number, error.map Prod.snd = some number →
      number < first.transitions.size := by
    intro number found
    rcases Option.map_eq_some_iff.mp found with ⟨pair, rfl, rfl⟩
    cases needed : draft.errorNumber? with
    | none => cases unneeded needed
    | some state =>
        rcases way state needed with ⟨other, same, found⟩
        cases same
        exact (Array.getElem?_eq_some_iff.mp found.2).1
  refine .bind (Shares.mapM (fun source pool state =>
      Finished draft (error.map Prod.snd) pool source state)
    (fun _ _ _ _ grows finished => finished.grow grows)
    (fun source declared later closed grows =>
      shares_shareState inhabited closed (by simpa using declared) fun number found =>
        Nat.lt_of_lt_of_le (errorInside number found) grows.transitions.size_le) firstClosed) ?_
  intro states pool closed grows finished
  rcases finished with ⟨length, finished⟩
  refine .pure closed ⟨unneeded, ?_, by simpa using length, finished⟩
  intro number needed
  rcases way number needed with ⟨pair, same, condition, transition⟩
  exact ⟨pair, same, grows.conditions _ _ condition, grows.transitions _ _ transition⟩

/-- The states of the graph: the error state, the states that are not final, the
final states. -/
def statesOf (error : Option (Nat × Nat)) (states : List State) : List State :=
  (error.map fun way => errorState way.2).toList ++ states.filter (fun state => !state.final) ++
    states.filter fun state => state.final

theorem Assembly.length_errorStates {pool : Pool} {error : Option (Nat × Nat)}
    {states : List State} (assembly : Assembly draft pool error states) :
    (error.map fun way => errorState way.2).toList.length = draft.firstNumber := by
  cases needed : draft.needsError with
  | false =>
      have unneeded := assembly.unneeded (by simp [errorNumber?, needed])
      simp [unneeded, firstNumber, needed]
  | true =>
      rcases assembly.way 0 (by simp [errorNumber?, needed]) with ⟨way, same, _⟩
      simp [same, firstNumber, needed]

theorem length_statesOf {pool : Pool} {error : Option (Nat × Nat)} {states : List State}
    (assembly : Assembly draft pool error states) :
    (statesOf error states).length = draft.stateCount := by
  have errors := assembly.length_errorStates
  have parts := (List.filter_append_perm (fun state => state.final) states).length_eq
  simp only [List.length_append] at parts
  simp only [statesOf, List.length_append, errors, stateCount, ← assembly.length]
  omega

theorem mem_statesOf {error : Option (Nat × Nat)} {states : List State} {state : State}
    (member : state ∈ statesOf error states) :
    (∃ way, error = some way ∧ state = errorState way.2) ∨ state ∈ states := by
  simp only [statesOf, List.mem_append, List.mem_filter, Option.mem_toList,
    Option.map_eq_some_iff] at member
  rcases member with (⟨way, same, state⟩ | declared) | declared
  · exact .inl ⟨way, same, state.symm⟩
  · exact .inr declared.1
  · exact .inr declared.1

theorem linked_errorState {transitions lists states number : Nat}
    (inside : number < transitions) : (errorState number).Linked transitions lists states where
  singles single member := by simp [errorState, State.bare] at member
  ranges range member := by simp [errorState, State.bare] at member
  fallback transition found := by
    cases (by simpa [errorState, State.bare] using found : number = transition)
    exact inside
  eofTransition transition found := by simp [errorState, State.bare] at found
  toState list found := by simp [errorState, State.bare] at found
  fromState list found := by simp [errorState, State.bare] at found
  eofActions list found := by simp [errorState, State.bare] at found
  targets alternate member := by simp [errorState, State.bare] at member
  pushes alternate member := by simp [errorState, State.bare] at member
  popTests alternate member := by simp [errorState, State.bare] at member

/-- The intervals of a declared state without a fallback leave no gap. -/
theorem Finished.gapless {pool : Pool} {error : Option (Nat × Nat)} {states : List State}
    (assembly : Assembly draft pool error states) {source : StateDraft}
    (declared : source ∈ draft.states) {state : State}
    (finished : Finished draft (error.map Prod.snd) pool source state)
    (missing : state.fallback = none) : source.fallback = none ∧
      hasGap draft.alphabet draft.alphabet.low source.claims = false := by
  rcases finished.fallback missing with ⟨sourceMissing, gapless⟩
  refine ⟨sourceMissing, ?_⟩
  cases gap : hasGap draft.alphabet draft.alphabet.low source.claims with
  | false => rfl
  | true =>
      have leaves : draft.leavesGap source = true := by simp [leavesGap, sourceMissing, gap]
      have needed := needsError_of_leavesGap declared leaves
      rcases assembly.way 0 (by simp [errorNumber?, needed]) with ⟨way, same, _⟩
      cases same ▸ gapless leaves

theorem Finished.covers {pool : Pool} {error : Option (Nat × Nat)} {states : List State}
    (assembly : Assembly draft pool error states) {source : StateDraft}
    (declared : source ∈ draft.states) {state : State}
    (finished : Finished draft (error.map Prod.snd) pool source state) :
    Graph.Covers draft.alphabet state := by
  intro missing key contained
  rcases (draft.alphabet.contains_iff key).mp contained with ⟨above, below⟩
  have gapless := (finished.gapless assembly declared missing).2
  rcases exists_of_not_hasGap gapless above below with ⟨claim, member, lower, upper⟩
  by_cases single : claim.low = claim.high
  · rcases finished.singles claim member single with ⟨single, inside, same, _⟩
    refine .inl ⟨single, inside, same.trans (draft.alphabet.value_injective ?_)⟩
    have bounds := congrArg draft.alphabet.value ‹claim.low = claim.high›
    omega
  · rcases finished.ranges claim member single with ⟨range, inside, low, high, _⟩
    exact .inr ⟨range, inside, by rwa [low], by rwa [high]⟩

section Parts

variable (draft)

theorem assemble_states : draft.assemble.states =
    (statesOf (draft.shareAll .empty).1.1 (draft.shareAll .empty).1.2).toArray :=
  rfl

theorem assemble_lists : draft.assemble.lists =
    (draft.shareAll .empty).2.lists.map fun actions => ⟨actions, 0⟩ :=
  rfl

end Parts

variable (inhabited : 0 < draft.states.size)
include inhabited

theorem size_assemble_states : draft.assemble.states.size = draft.stateCount := by
  rw [assemble_states, List.size_toArray, length_statesOf (shares_shareAll inhabited).2.2]

theorem mem_assemble_states {state : State} (member : state ∈ draft.assemble.states) :
    (∃ number way, draft.errorNumber? = some number ∧ state = errorState way.2 ∧
      ErrorWay draft.assemble.conditions draft.assemble.transitions number way) ∨
    ∃ source ∈ draft.states, Finished draft ((draft.shareAll .empty).1.1.map Prod.snd)
      (draft.shareAll .empty).2 source state := by
  have assembly := (shares_shareAll inhabited).2.2
  rw [assemble_states] at member
  rcases mem_statesOf (List.mem_toArray.mp member) with ⟨way, same, isError⟩ | declared
  · cases needed : draft.errorNumber? with
    | none =>
        have missing := assembly.unneeded needed
        cases same.symm.trans missing
    | some number =>
        rcases assembly.way number needed with ⟨other, otherSame, leads⟩
        cases same.symm.trans otherSame
        exact .inl ⟨number, way, rfl, isError, leads⟩
  · exact .inr (assembly.finished declared)

theorem linked_assemble (consistent : draft.Consistent) : draft.assemble.Linked := by
  have closed := (shares_shareAll inhabited).1
  have size := size_assemble_states inhabited
  exact {
    start := by
      rw [size]
      exact getD_lt_stateCount inhabited fun _ found => stateNumber?_lt found
    states := by
      intro state member
      rw [size, assemble_lists, Array.size_map]
      rcases mem_assemble_states inhabited member with
        ⟨_, way, _, rfl, leads⟩ | ⟨source, _, finished⟩
      · exact linked_errorState (Array.getElem?_eq_some_iff.mp leads.2).1
      · exact finished.linked
    outcomes := closed.outcomes
    spaces := by
      intro transition member number found
      rcases closed.guarded transition member number found with
        ⟨state, declared, branch, inside, space, guard, same, _⟩
      have position := consistent.getElem?_space declared inside guard
      exact same ▸ (Array.getElem?_eq_some_iff.mp position).1
    targets := by
      rw [size]
      exact closed.targets
    conditionLists := by
      rw [assemble_lists, Array.size_map]
      exact closed.conditionLists
    listActions := by
      intro list member action inside
      rw [assemble_lists] at member
      rcases Array.mem_map.mp member with ⟨actions, shared, rfl⟩
      have inRange := closed.lists actions shared action inside
      exact Nat.lt_of_lt_of_eq inRange Array.size_map.symm
    actionTargets := by
      intro action member target found
      rcases Array.mem_map.mp member with ⟨source, _, rfl⟩
      rw [size]
      unfold actionOf at found
      split at found
      next => cases found
      next => exact stateNumber?_lt found }

theorem trapped_assemble : draft.assemble.Trapped := by
  intro error needed
  rcases (shares_shareAll inhabited).2.2.way error needed with ⟨way, same, leads⟩
  refine ⟨way, ?_, leads⟩
  have first : error = 0 := by
    change draft.errorNumber? = some error at needed
    unfold errorNumber? at needed
    split at needed
    next => exact (Option.some.inj needed).symm
    next => cases needed
  rw [assemble_states, same, first]
  rfl

theorem covers_assemble {state : State} (member : state ∈ draft.assemble.states) :
    Graph.Covers draft.alphabet state := by
  rcases mem_assemble_states inhabited member with
    ⟨_, way, _, rfl, _⟩ | ⟨source, declared, finished⟩
  · intro missing
    simp [errorState] at missing
  · exact finished.covers (shares_shareAll inhabited).2.2 declared

theorem exhaustive_assemble (consistent : draft.Consistent) (noProblem : draft.errors = []) :
    draft.assemble.Exhaustive where
  small := consistent.sized noProblem
  complete := by
    intro noError transition member number space found position
    rcases (shares_shareAll inhabited).1.guarded transition member number found with
      ⟨state, declared, branch, inside, guard, guarded, same, count⟩
    have owned := consistent.guarded state declared branch inside guard guarded
    have position : draft.spaces[number]? = some space := position
    rw [← same, consistent.getElem?_space declared inside guarded] at position
    cases position
    have unneeded : draft.needsError = false := by
      change draft.errorNumber? = none at noError
      unfold errorNumber? at noError
      split at noError
      next => cases noError
      next unneeded => simpa using unneeded
    rw [count]
    exact combinations_le_of_not_reachesError guarded
      (consistent.sized noProblem space owned).2
      (reachesError_of_not_needsError unneeded declared inside)

theorem wired_assemble (consistent : draft.Consistent) (noProblem : draft.errors = []) :
    draft.assemble.Wired where
  linked := linked_assemble inhabited consistent
  covers _ member := covers_assemble inhabited member
  trapped := trapped_assemble inhabited
  exhaustive := exhaustive_assemble inhabited consistent noProblem

end Assembling

end Draft

end StateTables
