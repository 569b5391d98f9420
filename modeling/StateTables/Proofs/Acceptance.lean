import Mathlib.Data.List.Pairwise
import StateTables.Proofs.Coverage
import StateTables.Proofs.EofOrder
import StateTables.Proofs.MergedMeaning

/-! # Drafts that can be built

Validation finds nothing wrong with the graph of a well-formed draft, as long as the keys of its
states can be counted. Sharing and merging keep the order of intervals and outcomes, and an action
that stands for another one holds back keys only if that one does, and jumps to the same state. So a
cycle of end-of-input transitions in the graph is one in the draft.
-/

namespace StateTables

namespace Graph

/-! ## Checks that pass -/

section Checks

variable {alphabet : Alphabet}

theorem firstDisorder_eq_none {α : Type} {ordered : α → α → Bool} {index : Nat} {row : List α}
    (ascending : row.Pairwise fun first second => ordered first second = true) :
    firstDisorder ordered index row = none := by
  induction row generalizing index with
  | nil => rfl
  | cons first rest induction =>
      cases rest with
      | nil => rfl
      | cons second rest =>
          rcases List.pairwise_cons.mp ascending with ⟨before, later⟩
          rw [firstDisorder, if_pos (before second (by simp))]
          exact induction later

theorem checkRanges_eq_ok {state : String} {index : Nat} {previous : Option Range}
    {ranges : List Range}
    (upright : ∀ range ∈ ranges, alphabet.value range.low ≤ alphabet.value range.high)
    (behind : ∀ before, previous = some before → ∀ range ∈ ranges,
      alphabet.value before.high < alphabet.value range.low)
    (ascending : ranges.Pairwise fun first second =>
      alphabet.value first.high < alphabet.value second.low) :
    checkRanges alphabet state index previous ranges = .ok () := by
  induction ranges generalizing index previous with
  | nil => rfl
  | cons range rest induction =>
      rcases List.pairwise_cons.mp ascending with ⟨before, later⟩
      have continued : checkRanges alphabet state (index + 1) (some range) rest = .ok () := by
        apply induction (fun other member => upright other (by simp [member])) _ later
        rintro _ ⟨⟩
        exact before
      have isUpright : ¬alphabet.above range.low range.high = true := by
        simpa using upright range (by simp)
      cases previous with
      | none =>
          rw [checkRanges, if_neg isUpright]
          exact continued
      | some last =>
          rw [checkRanges, if_neg isUpright, if_pos (by simpa using behind last rfl range (by simp))]
          exact continued

theorem checkOutcomes_eq_ok {id : Nat} {space : ConditionSpace} {previous : Option ConditionValue}
    {outcomes : List Outcome} (within : ∀ outcome ∈ outcomes, outcome.value < space.combinations)
    (behind : ∀ value, previous = some value → ∀ outcome ∈ outcomes, value < outcome.value)
    (ascending : outcomes.Pairwise fun first second => first.value < second.value) :
    checkOutcomes id space previous outcomes = .ok () := by
  induction outcomes generalizing previous with
  | nil => rfl
  | cons outcome rest induction =>
      rcases List.pairwise_cons.mp ascending with ⟨before, later⟩
      have continued : checkOutcomes id space (some outcome.value) rest = .ok () := by
        apply induction (fun other member => within other (by simp [member])) _ later
        rintro _ ⟨⟩
        exact before
      have isWithin := UInt64.not_le.mpr (within outcome (by simp))
      cases previous with
      | none =>
          rw [checkOutcomes, if_neg isWithin]
          exact continued
      | some value =>
          have isBehind := UInt64.not_le.mpr (behind value rfl outcome (by simp))
          rw [checkOutcomes, if_neg isWithin, if_neg isBehind]
          exact continued

theorem checkEach_eq_ok {α : Type} {check : Nat → α → Except GraphError Unit} {start : Nat}
    {parts : List α}
    (each : ∀ (index : Nat) (part : α), parts[index]? = some part →
      check (start + index) part = .ok ()) : checkEach check start parts = .ok () := by
  induction parts generalizing start with
  | nil => rfl
  | cons first rest induction =>
      have passed : check start first = .ok () := each 0 first rfl
      rw [checkEach, passed]
      refine induction fun index part found => ?_
      rw [Nat.add_assoc, Nat.add_comm 1]
      exact each (index + 1) part found

end Checks

variable {graph : Graph}

/-- The keys of a state without a fallback are as many as those of the alphabet. -/
def Counts (alphabet : Alphabet) (state : State) : Prop :=
  state.fallback = none → coveredKeys alphabet state = alphabet.span alphabet.low alphabet.high

/-! Singles and ranges that are in order pass the checks of a state. -/

theorem firstDisorder_singles {state : State} (ordered : state.Ordered graph.alphabet) :
    firstDisorder (fun first second => graph.alphabet.below first.key second.key) 1
      state.singles.toList = none :=
  firstDisorder_eq_none (ordered.singles.imp (by simp))

theorem checkRanges_ranges {text : String} {state : State}
    (ordered : state.Ordered graph.alphabet) :
    checkRanges graph.alphabet text 0 none state.ranges.toList = .ok () :=
  checkRanges_eq_ok (fun range member => ordered.upright range (by simpa using member))
    (by rintro _ ⟨⟩) ordered.ranges

theorem find?_singles_eq_none {state : State} (ordered : state.Ordered graph.alphabet) :
    (state.singles.find? fun single => state.ranges.any fun range =>
      inRange graph.alphabet range single.key) = none := by
  refine Array.find?_eq_none.mpr fun single member within => ?_
  rcases Array.any_eq_true'.mp within with ⟨range, rangeMember, contains⟩
  exact ordered.apart single member range rangeMember (by simpa [inRange] using contains)

theorem checkState_eq_ok {id : Nat} {state : State}
    (final : state.final = decide (graph.firstFinal ≤ id)) (ordered : state.Ordered graph.alphabet)
    (counts : Counts graph.alphabet state) (unheld : graph.findKind .hold state.fromState = none) :
    graph.checkState id state = .ok () := by
  have covered : ¬(state.fallback.isNone && coveredKeys graph.alphabet state !=
      graph.alphabet.span graph.alphabet.low graph.alphabet.high) = true := by
    simpa [Counts] using counts
  unfold checkState
  dsimp only
  rw [if_neg (by simpa using final), firstDisorder_singles ordered, checkRanges_ranges ordered,
    find?_singles_eq_none ordered, if_neg covered, unheld]
  rfl

theorem counts_of_checkState {id : Nat} {state : State}
    (fine : graph.checkState id state = .ok ()) : Counts graph.alphabet state := by
  unfold checkState at fine
  dsimp only at fine
  split at fine
  next => cases fine
  split at fine
  next => cases fine
  rcases bind_eq_ok.mp fine with ⟨_, _, fine⟩
  split at fine
  next => cases fine
  split at fine
  next => cases fine
  next covered => simpa [Counts] using covered

theorem counts_of_validate (fine : graph.validate = .ok ()) {state : State}
    (member : state ∈ graph.states) : Counts graph.alphabet state := by
  rcases bind_eq_ok.mp fine with ⟨_, states, _⟩
  rcases Array.mem_iff_getElem?.mp member with ⟨id, found⟩
  exact counts_of_checkState (checked_of_checkEach states (by simpa using found))

theorem checkTransition_eq_ok {id : Nat} {transition : Transition}
    (ordered : transition.Ordered graph.spaces) : graph.checkTransition id transition = .ok () := by
  cases ordered with
  | plain condition unguarded outcomes =>
      rw [checkTransition, unguarded, outcomes]
      rfl
  | guarded number space numbered found ascending within =>
      rw [checkTransition, numbered, Option.bind_some, found]
      exact checkOutcomes_eq_ok (fun outcome member => within outcome (by simpa using member))
        (by rintro _ ⟨⟩) ascending

/-- Everything but the number of keys is right about the graph. -/
structure Regular (graph : Graph) : Prop extends graph.Valid where
  unheld : ∀ state ∈ graph.states, graph.findKind .hold state.fromState = none
  acyclic : graph.eofCycle = none

/-- Then validation comes down to counting. -/
theorem Regular.validate_eq_ok_iff (regular : graph.Regular) :
    graph.validate = .ok () ↔ ∀ state ∈ graph.states, Counts graph.alphabet state := by
  constructor
  · intro fine state member
    exact counts_of_validate fine member
  · intro counts
    have states : checkEach graph.checkState 0 graph.states.toList = .ok () := by
      refine checkEach_eq_ok fun id state found => ?_
      have found : graph.states[id]? = some state := by simpa using found
      have member := Array.mem_of_getElem? found
      rw [Nat.zero_add]
      exact checkState_eq_ok (regular.final id state found) (regular.states state member)
        (counts state member) (regular.unheld state member)
    have transitions : checkEach graph.checkTransition 0 graph.transitions.toList = .ok () := by
      refine checkEach_eq_ok fun id transition found => checkTransition_eq_ok ?_
      have found : graph.transitions[id]? = some transition := by simpa using found
      exact regular.transitions transition (Array.mem_of_getElem? found)
    rw [validate, states, regular.acyclic, transitions]
    rfl

end Graph

/-! ## Intervals and outcomes in order -/

theorem Claim.Apart.disjoint {alphabet : Alphabet} {claims : List Claim}
    (apart : Claim.Apart alphabet claims) {first second : Claim} (member : first ∈ claims)
    (other : second ∈ claims) (differ : first ≠ second) :
    alphabet.value first.high < alphabet.value second.low ∨
      alphabet.value second.high < alphabet.value first.low := by
  have symmetric : Std.Symm fun first second : Claim =>
      alphabet.value first.high < alphabet.value second.low ∨
        alphabet.value second.high < alphabet.value first.low := ⟨fun _ _ => Or.symm⟩
  have either : claims.Pairwise fun first second =>
      alphabet.value first.high < alphabet.value second.low ∨
        alphabet.value second.high < alphabet.value first.low := apart.ascending.imp Or.inl
  exact either.forall member other differ

namespace State.Splits

variable {alphabet : Alphabet} {claims : List Claim} {state : State}

theorem exists_of_single (splits : state.Splits claims) {single : Single}
    (member : single ∈ state.singles) :
    ∃ claim ∈ claims, claim.low = single.key ∧ claim.high = single.key := by
  have inside : single.key ∈ state.singles.toList.map Single.key :=
    List.mem_map.mpr ⟨single, by simpa using member, rfl⟩
  rw [splits.singles] at inside
  rcases List.mem_map.mp inside with ⟨claim, filtered, same⟩
  rcases List.mem_filter.mp filtered with ⟨claimed, isSingle⟩
  exact ⟨claim, claimed, same, (of_decide_eq_true isSingle) ▸ same⟩

theorem exists_of_range (splits : state.Splits claims) {range : Range}
    (member : range ∈ state.ranges) :
    ∃ claim ∈ claims, claim.low = range.low ∧ claim.high = range.high ∧ claim.low ≠ claim.high := by
  have inside : (range.low, range.high) ∈
      state.ranges.toList.map fun range => (range.low, range.high) :=
    List.mem_map.mpr ⟨range, by simpa using member, rfl⟩
  rw [splits.ranges] at inside
  rcases List.mem_map.mp inside with ⟨claim, filtered, same⟩
  rcases List.mem_filter.mp filtered with ⟨claimed, isRange⟩
  rcases Prod.mk.inj same with ⟨low, high⟩
  exact ⟨claim, claimed, low, high, of_decide_eq_true isRange⟩

theorem ordered (splits : state.Splits claims) (apart : Claim.Apart alphabet claims) :
    state.Ordered alphabet where
  singles := by
    have ascending : ((claims.filter fun claim => claim.low = claim.high).map Claim.low).Pairwise
        fun first second => alphabet.value first < alphabet.value second := by
      refine List.pairwise_map.mpr ((apart.ascending.filter _).imp_of_mem ?_)
      intro first second member _ before
      rwa [of_decide_eq_true (List.mem_filter.mp member).2]
    rw [← splits.singles, List.pairwise_map] at ascending
    exact ascending
  ranges := by
    have ascending : ((claims.filter fun claim => claim.low ≠ claim.high).map fun claim =>
        (claim.low, claim.high)).Pairwise fun first second =>
          alphabet.value first.2 < alphabet.value second.1 :=
      List.pairwise_map.mpr (apart.ascending.filter _)
    rw [← splits.ranges, List.pairwise_map] at ascending
    exact ascending
  upright range member := by
    rcases splits.exists_of_range member with ⟨claim, claimed, low, high, _⟩
    rw [← low, ← high]
    exact apart.upright claim claimed
  apart single member range rangeMember contains := by
    rcases splits.exists_of_single member with ⟨first, claimed, low, high⟩
    rcases splits.exists_of_range rangeMember with
      ⟨second, alsoClaimed, rangeLow, rangeHigh, isRange⟩
    have differ : first ≠ second := by
      rintro rfl
      exact isRange (low.trans high.symm)
    have disjoint := apart.disjoint claimed alsoClaimed differ
    rw [low, high, rangeLow, rangeHigh] at disjoint
    omega

theorem mergeState (splits : state.Splits claims) (lists transitions : Array Nat) :
    (Graph.mergeState lists transitions state).Splits claims := by
  refine ⟨?_, ?_⟩
  · simpa [Graph.mergeState, Function.comp_def] using splits.singles
  · simpa [Graph.mergeState, Function.comp_def] using splits.ranges

end State.Splits

def Graph.nameAt (graph : Graph) (id : Nat) : String :=
  (graph.states[id]?.map State.name).getD ""

namespace Draft

variable {draft : Draft}

theorem Finished.splits {errorTransition : Option Nat} {pool : Pool} {source : StateDraft}
    {state : State} (finished : Finished draft errorTransition pool source state) :
    state.Splits source.claims :=
  ⟨finished.singleKeys, finished.rangeKeys⟩

theorem ascending_insertOutcome {outcome : Outcome} {sorted : List Outcome}
    (ascending : sorted.Pairwise fun first second => first.value < second.value)
    (fresh : ∀ other ∈ sorted, other.value ≠ outcome.value) :
    (insertOutcome outcome sorted).Pairwise fun first second => first.value < second.value := by
  induction sorted with
  | nil => exact .cons (by simp) .nil
  | cons other rest induction =>
      rcases List.pairwise_cons.mp ascending with ⟨behind, later⟩
      rw [insertOutcome]
      split
      next before =>
        refine .cons ?_ ascending
        intro next member
        rcases List.mem_cons.mp member with rfl | inside
        · exact before
        · exact UInt64.lt_trans before (behind next inside)
      next notBefore =>
        refine .cons ?_ (induction later fun next member => fresh next (by simp [member]))
        intro next member
        have member := (perm_insertOutcome outcome rest).mem_iff.mp member
        rcases List.mem_cons.mp member with rfl | inside
        · exact UInt64.lt_of_le_of_ne (UInt64.not_lt.mp notBefore) (fresh other (by simp))
        · exact behind next inside

theorem ascending_foldl_insertOutcome {outcomes sorted : List Outcome}
    (ascending : sorted.Pairwise fun first second => first.value < second.value)
    (nodup : ((outcomes ++ sorted).map Outcome.value).Nodup) :
    (outcomes.foldl (fun sorted outcome => insertOutcome outcome sorted) sorted).Pairwise
      fun first second => first.value < second.value := by
  induction outcomes generalizing sorted with
  | nil => exact ascending
  | cons outcome rest induction =>
      rw [List.cons_append, List.map_cons, List.nodup_cons] at nodup
      rcases nodup with ⟨fresh, nodup⟩
      apply induction
      · apply ascending_insertOutcome ascending
        intro other member same
        exact fresh (List.mem_map.mpr ⟨other, List.mem_append_right _ member, same⟩)
      · have moved : (rest ++ insertOutcome outcome sorted).Perm (outcome :: (rest ++ sorted)) :=
          ((perm_insertOutcome outcome sorted).append_left rest).trans List.perm_middle
        rw [(moved.map Outcome.value).nodup_iff, List.map_cons, List.nodup_cons]
        exact ⟨fresh, nodup⟩

/-! ## Well-formed drafts -/

/-- The states a branch may lead to by name: its targets, and those its actions jump to or call. -/
def successors (draft : Draft) (branch : Branch) : List String :=
  branch.outcomes.flatMap fun outcome => outcome.target.state ::
    outcome.target.actions.filterMap fun name => (draft.findAction name).map ActionDraft.target

/-- At the end of input the first state may lead to the second one. -/
def EofReaches (draft : Draft) (state next : String) : Prop :=
  next ≠ "" ∧ ∃ source ∈ draft.states, source.name = state ∧
    ∃ branch, source.eofBranch = some branch ∧ next ∈ draft.successors branch

/-- Nothing is wrong with the draft. -/
structure WellFormed (draft : Draft) : Prop where
  drafted : draft.Drafted
  noErrors : draft.errors = []
  started : draft.start ≠ ""
  known : ∀ action ∈ draft.actions, action.target ≠ "" →
    ∃ state ∈ draft.states, state.name = action.target
  unheld : ∀ state ∈ draft.states, ∀ action ∈ draft.actions,
    action.name ∈ state.fromState → action.kind ≠ .hold
  acyclic : ∀ name, ¬Relation.TransGen draft.EofReaches name name

/-- The intervals of a state without a fallback do not split all 2^64 keys into several. -/
def Countable (draft : Draft) (state : StateDraft) : Prop :=
  state.fallback = none → hasGap draft.alphabet draft.alphabet.low state.claims = false →
    draft.alphabet.keyCount < 2 ^ 64 ∨ state.claims.length ≤ 1

theorem ordered_of_map {spaces : Array ConditionSpace} {transition changed : Transition}
    {change : Nat → Nat} (ordered : transition.Ordered spaces)
    (space : changed.space = transition.space)
    (outcomes : changed.outcomes = transition.outcomes.map fun outcome =>
      { outcome with condition := change outcome.condition }) : changed.Ordered spaces := by
  cases ordered with
  | plain condition unguarded only =>
      exact .plain (change condition) (by rwa [space]) (by simp [outcomes, only])
  | guarded number guard numbered found ascending within =>
      refine .guarded number guard (by rwa [space]) found ?_ ?_
      · rw [outcomes, Array.toList_map, List.pairwise_map]
        exact ascending
      · intro outcome member
        rw [outcomes] at member
        rcases Array.mem_map.mp member with ⟨old, inside, rfl⟩
        exact within old inside

theorem ordered_merged (inhabited : 0 < draft.states.size)
    (apart : ∀ source ∈ draft.states, Claim.Apart draft.alphabet source.claims) {state : State}
    (member : state ∈ draft.assemble.mergeDuplicates.states) : state.Ordered draft.alphabet := by
  rcases Graph.mem_mergeDuplicates_states member with ⟨old, inside, rfl⟩
  rcases mem_assemble_states inhabited inside with
    ⟨_, way, _, rfl, _⟩ | ⟨source, declared, finished⟩
  · constructor <;> simp [Graph.mergeState, errorState, State.bare]
  · exact (finished.splits.mergeState _ _).ordered (apart source declared)

namespace WellFormed

variable (wellFormed : draft.WellFormed)
include wellFormed

theorem inhabited : 0 < draft.states.size :=
  wellFormed.drafted.consistent.inhabited wellFormed.started

theorem distinct : draft.Distinct := by
  rcases wellFormed.drafted.reflects with ⟨_, reflects⟩
  exact reflects.distinct

theorem unknownTargets_eq_nil : draft.unknownTargets = [] := by
  refine List.filterMap_eq_nil_iff.mpr fun action member => ?_
  by_cases empty : action.target = ""
  · simp [empty]
  · rcases wellFormed.known action (by simpa using member) empty with ⟨state, declared, isNamed⟩
    rcases exists_numbered declared with ⟨index, found⟩
    have number := stateNumber?_of_numbered wellFormed.distinct found
    rw [isNamed] at number
    simp [number]

/-! ### Orders -/

theorem ordered_transition {transition : Transition}
    (sourced : Pool.Sourced draft transition) : transition.Ordered draft.spaces := by
  rcases sourced with ⟨condition, rfl⟩ | ⟨state, declared, branch, inside, outcomes, values, rfl⟩
  · exact .plain condition rfl rfl
  have consistent := wellFormed.drafted.consistent
  cases (wellFormed.drafted.proper state declared).fine inside with
  | plain target =>
      match outcomes, values with
      | [⟨value, condition⟩], values =>
          cases (List.cons.inj values).1
          exact .plain condition rfl rfl
  | @guarded space sources within nodup =>
      have sorted := perm_foldl_insertOutcome outcomes []
      rw [List.append_nil] at sorted
      refine .guarded space.id space rfl (consistent.getElem?_space declared inside rfl) ?_ ?_
      · rw [← values] at nodup
        exact ascending_foldl_insertOutcome .nil (by rwa [List.append_nil])
      · intro outcome member
        have member : outcome ∈ outcomes := sorted.mem_iff.mp (List.mem_toArray.mp member)
        have listed : outcome.value ∈ outcomes.map Outcome.value := List.mem_map_of_mem member
        rw [values] at listed
        rcases List.mem_map.mp listed with ⟨source, isSource, same⟩
        exact same ▸ within source isSource

omit wellFormed in
theorem final_assemble {id : Nat} {state : State}
    (found : draft.assemble.states[id]? = some state) :
    state.final = decide (draft.assemble.firstFinal ≤ id) := by
  let ahead := ((draft.shareAll .empty).1.1.map fun way => errorState way.2).toList ++
    (draft.shareAll .empty).1.2.filter fun state => !state.final
  have firstFinal : draft.assemble.firstFinal = ahead.length := rfl
  rw [assemble_states, List.getElem?_toArray, statesOf] at found
  simp only [firstFinal, Int.ofNat_le]
  by_cases early : id < ahead.length
  · rw [List.getElem?_append_left early] at found
    rw [decide_eq_false (Nat.not_le.mpr early)]
    rcases List.mem_append.mp (List.mem_of_getElem? found) with isError | plain
    · rcases Option.map_eq_some_iff.mp (Option.mem_toList.mp isError) with ⟨way, _, rfl⟩
      rfl
    · simpa using (List.mem_filter.mp plain).2
  · rw [List.getElem?_append_right (Nat.not_lt.mp early)] at found
    rw [decide_eq_true (Nat.not_lt.mp early)]
    exact (List.mem_filter.mp (List.mem_of_getElem? found)).2

theorem valid_merged : draft.assemble.mergeDuplicates.Valid where
  final id state found := by
    rw [Graph.mergeDuplicates_eq, Array.getElem?_map] at found
    rcases Option.map_eq_some_iff.mp found with ⟨old, stored, rfl⟩
    exact (final_assemble stored : old.final = _)
  states _ := ordered_merged wellFormed.inhabited fun source declared =>
    (wellFormed.drafted.proper source declared).claims
  transitions transition member := by
    rcases Graph.mem_mergeDuplicates_transitions member with ⟨old, inside, space, outcomes⟩
    have sourced := (shares_shareAll wellFormed.inhabited).1.sourced old inside
    exact ordered_of_map (wellFormed.ordered_transition sourced) space outcomes

/-! ### Actions -/

omit wellFormed in
theorem findAction_assemble (name : String) :
    draft.assemble.findAction name = (draft.findAction name).map draft.actionOf := by
  change (draft.actions.map draft.actionOf).find? _ = _
  rw [Array.find?_map]
  rfl

variable (apart : draft.assemble.TellsApart)
include apart

omit wellFormed in
theorem exists_same_of_listed {names : List String} {list : Option Nat}
    (lists : (draft.shareAll .empty).2.Lists (names.filterMap draft.actionNumber?) list)
    {number : Nat} (listed : number ∈ draft.assemble.mergeDuplicates.actionsOf
      (list.map (Graph.renumber draft.assemble.listNumbers))) {action : Action}
    (found : draft.assemble.mergeDuplicates.actions[number]? = some action) :
    ∃ name ∈ names, ∃ source, draft.findAction name = some source ∧
      action.Same (draft.actionOf source) := by
  rcases lists with ⟨_, rfl⟩ | ⟨_, old, rfl, stored⟩
  · cases listed
  have oldStored : draft.assemble.lists[old]? =
      some ⟨names.filterMap draft.actionNumber?, 0⟩ := by
    rw [assemble_lists, Array.getElem?_map, stored, Option.map_some]
  rcases Graph.exists_merged_list oldStored with ⟨merged, position, same⟩
  simp only [Option.map_some, Graph.actionsOf, position, Option.getD_some, same] at listed
  rcases List.mem_map.mp listed with ⟨first, isFirst, rfl⟩
  rcases List.mem_filterMap.mp isFirst with ⟨name, isNamed, numbered⟩
  rw [← findIdx?_assemble_actions] at numbered
  rcases Graph.standsIn_canonicalAction apart numbered with
    ⟨named, other, isFound, isOther, alike, _⟩
  rw [findAction_assemble] at isFound
  rcases Option.map_eq_some_iff.mp isFound with ⟨source, isSource, rfl⟩
  cases isOther.symm.trans found
  exact ⟨name, isNamed, source, isSource, alike⟩

theorem unheld_merged {state : State} (member : state ∈ draft.assemble.mergeDuplicates.states) :
    draft.assemble.mergeDuplicates.findKind .hold state.fromState = none := by
  rcases Graph.mem_mergeDuplicates_states member with ⟨old, inside, rfl⟩
  rcases mem_assemble_states wellFormed.inhabited inside with
    ⟨_, way, _, rfl, _⟩ | ⟨source, declared, finished⟩
  · rfl
  refine List.find?_eq_none.mpr fun action acts isHold => ?_
  rcases List.mem_filterMap.mp acts with ⟨number, listed, found⟩
  rcases exists_same_of_listed apart finished.fromState listed found with
    ⟨name, isNamed, other, isFound, kind, _⟩
  have same : other.name = name := by simpa using Array.find?_some isFound
  exact wellFormed.unheld source declared other (Array.mem_of_find?_eq_some isFound)
    (same ▸ isNamed) (kind.symm.trans (by simpa using isHold))

/-! ### The end of input -/

omit wellFormed in
theorem exists_target_of_jump {names : List String} {list : Option Nat}
    (lists : (draft.shareAll .empty).2.Lists (names.filterMap draft.actionNumber?) list)
    {next : Nat} (jumps : next ∈ draft.assemble.mergeDuplicates.jumps
      (draft.assemble.mergeDuplicates.actionsOf
        (list.map (Graph.renumber draft.assemble.listNumbers)))) :
    ∃ name ∈ names, ∃ source, draft.findAction name = some source ∧
      source.target.isEmpty = false ∧ draft.stateNumber? source.target = some next := by
  rcases List.mem_filterMap.mp jumps with ⟨number, listed, aimed⟩
  rcases Option.bind_eq_some_iff.mp aimed with ⟨action, found, target⟩
  rcases exists_same_of_listed apart lists listed found with
    ⟨name, isNamed, source, isSource, _, same, _⟩
  refine ⟨name, isNamed, source, isSource, ?_⟩
  have target : (draft.actionOf source).target = some next := same.symm.trans target
  simp only [actionOf] at target
  split at target
  next => cases target
  next named => exact ⟨by simpa using named, target⟩

theorem exists_successor_of_eofLeads {id next : Nat}
    (leads : draft.assemble.mergeDuplicates.EofLeads id next) :
    ∃ state, draft.assemble.mergeDuplicates.states[id]? = some state ∧ state.isError = false ∧
      ∃ source ∈ draft.states, source.name = state.name ∧
        ∃ branch, source.eofBranch = some branch ∧ ∃ name ∈ draft.successors branch,
          draft.assemble.mergeDuplicates.AimsAt name next := by
  rcases Graph.eofLeads_iff.mp leads with
    ⟨state, number, transition, stored, own, found, outcome, member, aims⟩
  refine ⟨state, stored, ?_⟩
  rw [Graph.mergeDuplicates_eq, Array.getElem?_map] at stored
  rcases Option.map_eq_some_iff.mp stored with ⟨old, oldStored, rfl⟩
  rcases mem_assemble_states wellFormed.inhabited (Array.mem_of_getElem? oldStored) with
    ⟨_, way, _, rfl, _⟩ | ⟨source, declared, finished⟩
  · cases own
  rcases Option.map_eq_some_iff.mp own with ⟨oldNumber, isOwn, rfl⟩
  rcases finished.eofTransition oldNumber isOwn with ⟨branch, atEof, oldTransition, has⟩
  refine ⟨finished.declared, source, declared, finished.name.symm, branch, atEof, ?_⟩
  have oldFound : draft.assemble.transitions[oldNumber]? = some oldTransition := has.found
  cases found.symm.trans (Graph.getElem?_merged_transition oldFound)
  rcases Array.mem_map.mp member with ⟨oldOutcome, oldMember, rfl⟩
  rcases has.only oldOutcome oldMember with ⟨drafted, isDrafted, _, list, lists, condition⟩
  have condition : draft.assemble.conditions[oldOutcome.condition]? = some _ := condition
  rw [Graph.targetsOf_eq (Graph.getElem?_merged_condition condition)] at aims
  rcases List.mem_cons.mp aims with rfl | jumps
  · have inside := mem_branches.mpr (.inr (.inl atEof))
    have mentions := ((wellFormed.drafted.proper source declared).eofBranch branch atEof).2
    refine ⟨drafted.target.state, List.mem_flatMap.mpr ⟨drafted, isDrafted, by simp⟩, ?_⟩
    exact aimsAt_targetNumber? wellFormed.distinct wellFormed.inhabited
      (mentions drafted isDrafted).1 (needsError_of_target declared inside isDrafted)
  · rcases exists_target_of_jump apart lists jumps with
      ⟨name, isNamed, action, isFound, aimed, number⟩
    refine ⟨action.target, List.mem_flatMap.mpr ⟨drafted, isDrafted, ?_⟩, ?_⟩
    · exact List.mem_cons_of_mem _ (List.mem_filterMap.mpr ⟨name, isNamed, by rw [isFound]; rfl⟩)
    · rw [Graph.AimsAt, if_neg (by simpa using aimed)]
      exact (declaredAt_of_stateNumber? wellFormed.distinct wellFormed.inhabited
        number).mergeDuplicates

/-- The error state leads nowhere at the end of input, so that all states on the way have names. -/
theorem eofReaches_of_eofLeads {id next after : Nat}
    (leads : draft.assemble.mergeDuplicates.EofLeads id next)
    (leaves : draft.assemble.mergeDuplicates.EofLeads next after) :
    draft.EofReaches (draft.assemble.mergeDuplicates.nameAt id)
      (draft.assemble.mergeDuplicates.nameAt next) := by
  rcases wellFormed.exists_successor_of_eofLeads apart leads with
    ⟨state, stored, _, source, declared, isNamed, branch, atEof, name, successor, aims⟩
  rcases wellFormed.exists_successor_of_eofLeads apart leaves with ⟨other, otherStored, regular, _⟩
  rw [Graph.AimsAt] at aims
  split at aims
  next =>
    have trapped := (trapped_assemble wellFormed.inhabited).mergeDuplicates
    rcases trapped next aims with ⟨way, isError, _⟩
    cases otherStored.symm.trans isError
    cases regular
  next named =>
    rcases (aims next).mp rfl with ⟨same, sameStored, _, rfl⟩
    cases otherStored.symm.trans sameStored
    simp only [Graph.nameAt, stored, otherStored, Option.map_some, Option.getD_some]
    exact ⟨by simpa using named, source, declared, isNamed, branch, atEof, successor⟩

theorem transGen_eofReaches {id next : Nat}
    (path : Relation.TransGen draft.assemble.mergeDuplicates.EofLeads id next)
    (leaves : ∃ after, draft.assemble.mergeDuplicates.EofLeads next after) :
    Relation.TransGen draft.EofReaches (draft.assemble.mergeDuplicates.nameAt id)
      (draft.assemble.mergeDuplicates.nameAt next) := by
  induction path with
  | single leads =>
      rcases leaves with ⟨after, leaves⟩
      exact .single (wellFormed.eofReaches_of_eofLeads apart leads leaves)
  | tail _ leads induction =>
      rcases leaves with ⟨after, leaves⟩
      exact (induction ⟨_, leads⟩).tail (wellFormed.eofReaches_of_eofLeads apart leads leaves)

theorem regular_merged : draft.assemble.mergeDuplicates.Regular where
  toValid := wellFormed.valid_merged
  unheld _ member := wellFormed.unheld_merged apart member
  acyclic := by
    refine Graph.eofCycle_eq_none fun id cycle => ?_
    rcases Relation.TransGen.head'_iff.mp cycle with ⟨next, leads, _⟩
    exact wellFormed.acyclic _ (wellFormed.transGen_eofReaches apart cycle ⟨next, leads⟩)

/-! ### Counting -/

omit apart

theorem exists_finished {source : StateDraft} (declared : source ∈ draft.states) :
    ∃ state ∈ draft.assemble.states, Finished draft ((draft.shareAll .empty).1.1.map Prod.snd)
      (draft.shareAll .empty).2 source state := by
  rcases exists_numbered declared with ⟨index, found⟩
  rcases (shares_shareAll wellFormed.inhabited).2.2.state_of_source found with
    ⟨state, stored, finished⟩
  refine ⟨state, ?_, finished⟩
  rw [assemble_states]
  exact List.mem_toArray.mpr (List.mem_of_getElem? stored)

/-- The keys of the graph add up if and only if those of the draft can be counted. -/
theorem counts_iff_countable :
    (∀ state ∈ draft.assemble.mergeDuplicates.states, Graph.Counts draft.alphabet state) ↔
      ∀ source ∈ draft.states, draft.Countable source := by
  have proper := wellFormed.drafted.proper
  constructor
  · intro counts source declared missing gapless
    rcases wellFormed.exists_finished declared with ⟨state, member, finished⟩
    have splits := finished.splits.mergeState draft.assemble.listNumbers
      draft.assemble.transitionNumbers
    refine (Graph.coveredKeys_eq_span_iff_of_gapless splits (proper source declared).claims
      gapless).mp (counts _ (Array.mem_map_of_mem member) ?_)
    have noFallback : state.fallback = none := by
      rw [finished.gap missing]
      simp [leavesGap, gapless]
    simp [Graph.mergeState, noFallback]
  · intro countable state member missing
    rcases Graph.mem_mergeDuplicates_states member with ⟨old, inside, rfl⟩
    rcases mem_assemble_states wellFormed.inhabited inside with
      ⟨_, way, _, rfl, _⟩ | ⟨source, declared, finished⟩
    · cases missing
    · have assembly := (shares_shareAll wellFormed.inhabited).2.2
      rcases finished.gapless assembly declared (Option.map_eq_none_iff.mp missing) with
        ⟨sourceMissing, gapless⟩
      exact (Graph.coveredKeys_eq_span_iff_of_gapless (finished.splits.mergeState _ _)
        (proper source declared).claims gapless).mpr
          (countable source declared sourceMissing gapless)

/-- A well-formed draft can be built if and only if no state without a fallback splits all 2^64 keys
into several intervals. With fewer keys, counting the keys of a state and looking for a gap between
its intervals come to the same. The draft names only condition spaces of its own. -/
theorem builds_iff_countable (apart : draft.assemble.TellsApart) :
    ((∃ graph, draft.build = (draft, .ok graph)) ↔
      ∀ source ∈ draft.states, draft.Countable source) ∧
    (0 < draft.alphabet.keyCount → draft.alphabet.keyCount < 2 ^ 64 → ∀ source ∈ draft.states,
      ∃ state ∈ draft.assemble.mergeDuplicates.states, state.name = source.name ∧
        state.isError = false ∧
        (Graph.coveredKeys draft.alphabet state =
            draft.alphabet.span draft.alphabet.low draft.alphabet.high ↔
          hasGap draft.alphabet draft.alphabet.low source.claims = false)) := by
  have validated := (wellFormed.regular_merged apart).validate_eq_ok_iff
  constructor
  · rw [← wellFormed.counts_iff_countable]
    constructor
    · rintro ⟨graph, built⟩
      rcases build_eq_ok built with ⟨_, _, _, rfl, valid⟩
      exact validated.mp valid
    · intro counts
      exact ⟨_, build_of_validate wellFormed.noErrors (by simpa using wellFormed.started)
        wellFormed.unknownTargets_eq_nil (validated.mpr counts)⟩
  · intro positive few source declared
    rcases wellFormed.exists_finished declared with ⟨state, member, finished⟩
    refine ⟨_, Array.mem_map_of_mem member, finished.name, finished.declared, ?_⟩
    exact Graph.coveredKeys_eq_span_iff (finished.splits.mergeState _ _)
      (wellFormed.drafted.proper source declared).claims positive few

end WellFormed

theorem acyclic_of_rank {rank : String → Nat}
    (falls : ∀ source ∈ draft.states, ∀ branch ∈ source.eofBranch,
      ∀ next ∈ draft.successors branch, next ≠ "" → rank next < rank source.name) (name : String) :
    ¬Relation.TransGen draft.EofReaches name name := by
  have lower : ∀ {first second}, draft.EofReaches first second → rank second < rank first := by
    rintro first second ⟨named, source, declared, rfl, branch, atEof, successor⟩
    exact falls source declared branch atEof second successor named
  have falling : ∀ {first second}, Relation.TransGen draft.EofReaches first second →
      rank second < rank first := by
    intro first second path
    induction path with
    | single reaches => exact lower reaches
    | tail _ reaches induction => exact Nat.lt_trans (lower reaches) induction
  exact fun cycle => Nat.lt_irrefl _ (falling cycle)

theorem wellFormed_of_rank (drafted : draft.Drafted) (rank : String → Nat)
    (checked : draft.errors = [] ∧ draft.start ≠ "" ∧
      (∀ action ∈ draft.actions, action.target ≠ "" →
        ∃ state ∈ draft.states, state.name = action.target) ∧
      (∀ state ∈ draft.states, ∀ action ∈ draft.actions,
        action.name ∈ state.fromState → action.kind ≠ .hold) ∧
      ∀ source ∈ draft.states, ∀ branch ∈ source.eofBranch,
        ∀ next ∈ draft.successors branch, next ≠ "" → rank next < rank source.name) :
    draft.WellFormed := by
  rcases checked with ⟨noErrors, started, known, unheld, falls⟩
  exact ⟨drafted, noErrors, started, known, unheld, acyclic_of_rank falls⟩

end Draft

namespace Sample

/-- The intervals of the first state leave no gap. At the end of input it leads to the others. -/
def complete : Draft :=
  let operations : List DraftStep := [
    .setStart "idle",
    .markFinal ["done"],
    .defineAction ⟨"leave", .goto, "", "done"⟩,
    .defineAction ⟨"again", .hold, "", ""⟩,
    .addClaim "idle" ⟨.ofInt (-128), .ofInt (-1), .plain ⟨"busy", ["again"]⟩⟩,
    .addClaim "idle" ⟨.ofInt 0, .ofInt 127, .plain ⟨"", []⟩⟩,
    .setFromState "busy" ["note"],
    .setEofTransition "idle" ⟨"busy", ["leave"]⟩]
  operations.foldl Draft.perform (.empty "complete" (.full ⟨true, .one⟩))

def halves : Draft :=
  let operations : List DraftStep := [
    .setStart "idle",
    .addClaim "idle" ⟨.ofInt 0, .ofInt (2 ^ 63 - 1), .plain ⟨"idle", []⟩⟩,
    .addClaim "idle" ⟨.ofInt (-2 ^ 63), .ofInt (-1), .plain ⟨"idle", []⟩⟩]
  operations.foldl Draft.perform (.empty "halves" (.full ⟨false, .eight⟩))

end Sample

/-- The intervals of the first state are counted as all 256 keys. -/
theorem builds_iff_countable_sample :
    (∃ graph, Sample.complete.build = (Sample.complete, .ok graph)) ∧
      ∃ source ∈ Sample.complete.states,
        ∃ state ∈ Sample.complete.assemble.mergeDuplicates.states, state.name = source.name ∧
          Graph.coveredKeys Sample.complete.alphabet state = 256 := by
  have drafted : Sample.complete.Drafted := (Draft.Drafted.empty _ _).foldl (by decide)
  have wellFormed := Draft.wellFormed_of_rank drafted (["done", "busy", "idle"].idxOf ·)
    (by decide +kernel)
  have apart : Sample.complete.assemble.TellsApart := by
    unfold Graph.TellsApart
    decide +kernel
  have counts : (∀ source ∈ Sample.complete.states, Sample.complete.Countable source) ∧
      (0 < Sample.complete.alphabet.keyCount ∧ Sample.complete.alphabet.keyCount < 2 ^ 64) ∧
      Sample.complete.alphabet.span Sample.complete.alphabet.low Sample.complete.alphabet.high =
        256 ∧
      ∃ source ∈ Sample.complete.states, Draft.hasGap Sample.complete.alphabet
        Sample.complete.alphabet.low source.claims = false := by
    unfold Draft.Countable
    decide +kernel
  rcases counts with ⟨countable, ⟨positive, few⟩, all, source, declared, gapless⟩
  rcases wellFormed.builds_iff_countable apart with ⟨builds, agree⟩
  rcases agree positive few source declared with ⟨state, member, isNamed, _, counted⟩
  exact ⟨builds.mpr countable, source, declared, state, member, isNamed,
    (counted.mpr gapless).trans all⟩

/-- Two halves leave no gap, but are not found to be all keys. -/
theorem halves_not_built_sample : Sample.halves.WellFormed ∧ Sample.halves.actions = #[] ∧
    (∀ source ∈ Sample.halves.states, Draft.hasGap Sample.halves.alphabet
      Sample.halves.alphabet.low source.claims = false) ∧
    Sample.halves.build = (Sample.halves, .error [.uncovered "(state 0 'idle')"]) := by
  have drafted : Sample.halves.Drafted := (Draft.Drafted.empty _ _).foldl (by decide)
  have wellFormed := Draft.wellFormed_of_rank drafted (fun _ => 0) (by decide +kernel)
  exact ⟨wellFormed, by decide +kernel⟩

end StateTables
