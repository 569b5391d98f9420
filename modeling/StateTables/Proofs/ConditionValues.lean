import StateTables.Proofs.Realization
import StateTables.Proofs.Records

/-! # Condition values

The outcomes of a guarded transition ascend by their values, and all of these are values of its
condition space. The values that guard the end of input in a state ascend as well. They are those
given by all calls, while the space is that of the last call; so they are values of the space, if
it is the only one values were given for.
-/

namespace StateTables

namespace Draft

/-! ## Ascending values -/

section Values

variable {value other : ConditionValue} {values stored : List ConditionValue}

theorem mem_insertValue : other ∈ insertValue value values ↔ other = value ∨ other ∈ values := by
  induction values with
  | nil => simp [insertValue]
  | cons first rest induction =>
      unfold insertValue
      split
      next => simp
      next =>
        split
        next same => simp [same]
        next => simp [induction, or_left_comm]

theorem ascending_insertValue (ascending : values.Pairwise (· < ·)) :
    (insertValue value values).Pairwise (· < ·) := by
  induction values with
  | nil => simp [insertValue]
  | cons first rest induction =>
      rcases List.pairwise_cons.mp ascending with ⟨behind, later⟩
      unfold insertValue
      split
      next before =>
        refine List.pairwise_cons.mpr ⟨?_, ascending⟩
        intro member inside
        rcases List.mem_cons.mp inside with rfl | isLater
        · exact before
        · exact UInt64.lt_trans before (behind member isLater)
      next notBefore =>
        split
        next => exact ascending
        next differs =>
          refine List.pairwise_cons.mpr ⟨?_, induction later⟩
          intro member inside
          rcases mem_insertValue.mp inside with rfl | isLater
          · exact UInt64.lt_of_le_of_ne (UInt64.not_lt.mp notBefore) (Ne.symm differs)
          · exact behind member isLater

theorem mem_foldl_insertValue :
    other ∈ values.foldl (fun stored value => insertValue value stored) stored ↔
      other ∈ stored ∨ other ∈ values := by
  induction values generalizing stored with
  | nil => simp
  | cons value rest induction => simp [induction, mem_insertValue, or_assoc, or_left_comm]

theorem ascending_foldl_insertValue (ascending : stored.Pairwise (· < ·)) :
    (values.foldl (fun stored value => insertValue value stored) stored).Pairwise (· < ·) := by
  induction values generalizing stored with
  | nil => exact ascending
  | cons value rest induction => exact induction (ascending_insertValue ascending)

end Values

/-! ## What operations ask for -/

/-- The guard an operation sets for the end of input in a state, if any. -/
def guardBy (state : String) : DraftStep → Option (Option ConditionSpace)
  | .guardEof other space _ => if state = other then some (some space) else none
  | .unguardEof other => if state = other then some none else none
  | _ => none

def valuesBy (state : String) : DraftStep → List ConditionValue
  | .guardEof other space values =>
    if state = other then values.filter fun value => value < space.combinations else []
  | _ => []

/-- The value was given as one of a space, to guard the end of input in a state. -/
def Given (operations : List DraftStep) (state : String) (space : ConditionSpace)
    (value : ConditionValue) : Prop :=
  ∃ values, .guardEof state space values ∈ operations ∧ value ∈ values ∧ value < space.combinations

theorem exists_valuesBy_iff {operations : List DraftStep} {state : String}
    {value : ConditionValue} : (∃ operation ∈ operations, value ∈ valuesBy state operation) ↔
      ∃ space, Given operations state space value := by
  constructor
  · rintro ⟨operation, asked, given⟩
    cases operation with
    | guardEof other space values =>
        simp only [valuesBy] at given
        split at given
        next isNamed =>
          rcases List.mem_filter.mp given with ⟨inside, fits⟩
          exact ⟨space, values, isNamed ▸ asked, inside, by simpa using fits⟩
        next => cases given
    | _ => cases given
  · rintro ⟨space, values, asked, inside, fits⟩
    exact ⟨_, asked, by simp [valuesBy, inside, fits]⟩

theorem eofGuard_revise (alphabet : Alphabet) (state : StateDraft) (operation : DraftStep) :
    (state.revise alphabet operation).eofGuard =
      (guardBy state.name operation).getD state.eofGuard := by
  cases operation with
  | guardEof other | unguardEof other =>
      by_cases isNamed : state.name = other <;> simp [StateDraft.revise, guardBy, isNamed]
  | declareState | setStart | requireError | defineAction | internSpace | build => rfl
  | _ =>
      simp only [StateDraft.revise]
      split <;> rfl

theorem eofValues_revise (alphabet : Alphabet) (state : StateDraft) (operation : DraftStep) :
    (state.revise alphabet operation).eofValues = (valuesBy state.name operation).foldl
      (fun stored value => insertValue value stored) state.eofValues := by
  cases operation with
  | guardEof other space values =>
      by_cases isNamed : state.name = other <;> simp [StateDraft.revise, valuesBy, isNamed]
  | declareState | setStart | requireError | defineAction | internSpace | build => rfl
  | _ =>
      simp only [StateDraft.revise]
      split <;> rfl

section Made

variable (name : String) (alphabet : Alphabet) (operations : List DraftStep) (state : String)

theorem eofGuard_ofSteps : ((ofSteps name alphabet operations).record state).eofGuard =
    (lastAsked (guardBy state) operations).getD none := by
  induction operations using List.reverseRecOn with
  | nil => rfl
  | append_singleton operations operation induction =>
      rw [record_ofSteps_concat, lastAsked_concat, eofGuard_revise, name_record, induction]
      cases guardBy state operation <;> rfl

theorem ascending_eofValues :
    ((ofSteps name alphabet operations).record state).eofValues.Pairwise (· < ·) := by
  induction operations using List.reverseRecOn with
  | nil => exact .nil
  | append_singleton operations operation induction =>
      rw [record_ofSteps_concat, eofValues_revise]
      exact ascending_foldl_insertValue induction

/-- Values that were given are never forgotten. -/
theorem mem_eofValues_iff (value : ConditionValue) :
    value ∈ ((ofSteps name alphabet operations).record state).eofValues ↔
      ∃ space, Given operations state space value := by
  rw [← exists_valuesBy_iff]
  induction operations using List.reverseRecOn with
  | nil => simp [ofSteps, empty, record, findState, StateDraft.bare]
  | append_singleton operations operation induction =>
      rw [record_ofSteps_concat, eofValues_revise, mem_foldl_insertValue, induction, name_record]
      simp [or_and_right, exists_or]

end Made

/-- A state with a guard at the end of input is declared, and has the guard and the values of its
record. -/
theorem exists_record_of_guard {draft : Draft} (distinct : draft.Distinct)
    (inhabited : 0 < draft.states.size) {state : State}
    (member : state ∈ draft.assemble.mergeDuplicates.states) {number : Nat}
    (guarded : state.eofGuard = some number) :
    draft.record state.name ∈ draft.states ∧
      (∃ space, (draft.record state.name).eofGuard = some space ∧ space.id = number) ∧
      state.eofValues = (draft.record state.name).eofValues := by
  rcases Graph.mem_mergeDuplicates_states member with ⟨old, inside, rfl⟩
  rcases mem_assemble_states inhabited inside with
    ⟨_, way, _, rfl, _⟩ | ⟨source, declared, finished⟩
  · cases guarded
  · change old.eofGuard = some number at guarded
    rw [finished.eofGuard] at guarded
    rcases Option.map_eq_some_iff.mp guarded with ⟨space, isGuard, isNumber⟩
    have values : old.eofValues = source.eofValues := by simp [finished.eofValues, isGuard]
    have isNamed : (Graph.mergeState draft.assemble.listNumbers draft.assemble.transitionNumbers
        old).name = source.name := finished.name
    rw [isNamed, record_of_mem distinct declared]
    exact ⟨declared, ⟨space, isGuard, isNumber⟩, values⟩

theorem exists_space_of_transition {draft : Draft} (consistent : draft.Consistent)
    (noErrors : draft.errors = []) (inhabited : 0 < draft.states.size)
    (valid : draft.assemble.mergeDuplicates.Valid) {transition : Transition}
    (member : transition ∈ draft.assemble.mergeDuplicates.transitions) {number : Nat}
    (guarded : transition.space = some number) :
    ∃ space, draft.spaces[number]? = some space ∧
      (transition.outcomes.toList.map Outcome.value).Pairwise (· < ·) ∧
      ∀ outcome ∈ transition.outcomes, outcome.value.toNat < 2 ^ space.size := by
  cases valid.transitions transition member with
  | plain condition unguarded =>
      have linked := (linked_assemble inhabited consistent).mergeDuplicates
      have inside := linked.spaces transition member number guarded
      rw [guarded, Option.bind_some, Array.getElem?_eq_getElem inside] at unguarded
      cases unguarded
  | guarded other space numbered found inOrder within =>
      cases numbered.symm.trans guarded
      have small := (consistent.sized noErrors space (Array.mem_of_getElem? found)).2
      exact ⟨space, found, List.pairwise_map.mpr inOrder, fun outcome listed =>
        ConditionSpace.toNat_lt small (within outcome listed)⟩

/-- The values of guarded transitions ascend and are values of their condition space. If the end of
input is guarded in a state, then by the space asked for last and by all values that were ever given
for the state, in ascending order; where all of them were given for that space, they are values of
it. The operations name only condition spaces of their own draft. -/
theorem condition_values_within_space {name : String} {alphabet : Alphabet}
    {operations : List DraftStep} (admitted : (empty name alphabet).AdmitsAll operations = true)
    {after : Draft} {graph : Graph}
    (built : (ofSteps name alphabet operations).build = (after, .ok graph)) :
    (∀ transition ∈ graph.transitions, ∀ number, transition.space = some number →
      ∃ space, graph.spaces[number]? = some space ∧
        (transition.outcomes.toList.map Outcome.value).Pairwise (· < ·) ∧
        ∀ outcome ∈ transition.outcomes, outcome.value.toNat < 2 ^ space.size) ∧
    ∀ state ∈ graph.states, ∀ number, state.eofGuard = some number →
      ∃ space, graph.spaces[number]? = some space ∧
        lastAsked (guardBy state.name) operations = some (some space) ∧
        state.eofValues.Pairwise (· < ·) ∧
        (∀ value, value ∈ state.eofValues ↔
          ∃ other, Given operations state.name other value) ∧
        ((∀ other value, Given operations state.name other value → other = space) →
          ∀ value ∈ state.eofValues, value.toNat < 2 ^ space.size ∧
            Given operations state.name space value) := by
  have reflects := reflects_ofSteps name alphabet admitted
  have consistent := (drafted_ofSteps name alphabet admitted).consistent
  rcases build_eq_ok built with ⟨noErrors, started, _, rfl, validated⟩
  have inhabited := consistent.inhabited started
  constructor
  · intro transition member number guarded
    exact exists_space_of_transition consistent noErrors inhabited
      (Graph.valid_of_validate validated) member guarded
  · intro state member number guarded
    rcases exists_record_of_guard reflects.distinct inhabited member guarded with
      ⟨declared, ⟨space, isGuard, rfl⟩, values⟩
    have owned := reflects.guards _ declared space isGuard
    have given := fun value => mem_eofValues_iff name alphabet operations state.name value
    rw [eofGuard_ofSteps, Option.getD_eq_iff] at isGuard
    rw [values]
    refine ⟨space, getElem?_id consistent.numbered owned, by simpa using isGuard,
      ascending_eofValues name alphabet operations state.name, given, ?_⟩
    intro only value stored
    rcases (given value).mp stored with ⟨other, isGiven⟩
    cases only other value isGiven
    rcases isGiven with ⟨others, asked, inside, fits⟩
    have small := (consistent.sized noErrors space owned).2
    exact ⟨ConditionSpace.toNat_lt small fits, others, asked, inside, fits⟩

end Draft

namespace Sample

def guardedOnce : List DraftStep := [
  .internSpace ["a", "b"],
  .internSpace ["c"],
  .setStart "s",
  .setFallback "s" (.plain ⟨"s", []⟩),
  .setEofActions "s" ["note"],
  .guardEof "s" ⟨0, ["a", "b"]⟩ [3]]

def guarded (further : DraftStep) : Draft :=
  .ofSteps "guard" (.full ⟨true, .one⟩) (guardedOnce ++ [further])

def guardAgain : DraftStep :=
  .guardEof "s" ⟨0, ["a", "b"]⟩ [1, 0]

def guardAnew : DraftStep :=
  .guardEof "s" ⟨1, ["c"]⟩ [0]

end Sample

/-- All values were given for one space, by two calls and not in order. -/
theorem condition_values_within_space_sample : ∃ graph state,
    (Sample.guarded Sample.guardAgain).build = (Sample.guarded Sample.guardAgain, .ok graph) ∧
    state ∈ graph.states ∧ state.eofGuard = some 0 ∧ state.eofValues = [0, 1, 3] ∧
    ∃ space, graph.spaces[0]? = some space ∧ ∀ value ∈ state.eofValues,
      value.toNat < 2 ^ space.size ∧
        Draft.Given (Sample.guardedOnce ++ [Sample.guardAgain]) state.name space value := by
  have built : (Sample.guarded Sample.guardAgain).build = _ :=
    Draft.build_of_checks (by decide +kernel)
  have admitted : (Draft.empty "guard" (.full ⟨true, .one⟩)).AdmitsAll
      (Sample.guardedOnce ++ [Sample.guardAgain]) = true := by decide +kernel
  have found : ∃ state ∈ (Sample.guarded Sample.guardAgain).assemble.mergeDuplicates.states,
      state.name = "s" ∧ state.eofGuard = some 0 ∧ state.eofValues = [0, 1, 3] := by
    decide +kernel
  rcases found with ⟨state, member, isNamed, guard, values⟩
  rcases (Draft.condition_values_within_space admitted built).2 state member 0 guard with
    ⟨space, position, last, _, _, within⟩
  have isSpace : space = ⟨0, ["a", "b"]⟩ := by
    have first : (Sample.guarded Sample.guardAgain).assemble.mergeDuplicates.spaces[0]? =
        some ⟨0, ["a", "b"]⟩ := by decide +kernel
    exact Option.some.inj (position.symm.trans first)
  refine ⟨_, state, built, member, guard, values, space, position, within ?_⟩
  rintro other value ⟨given, asked, _⟩
  simp only [Sample.guardedOnce, Sample.guardAgain, isNamed, List.mem_append, List.mem_cons,
    reduceCtorEq, DraftStep.guardEof.injEq, false_or, or_false, List.not_mem_nil] at asked
  rcases asked with ⟨_, same, _⟩ | ⟨_, same, _⟩ <;> rw [same, isSpace]

/-- The guard of a state is replaced by that of a smaller space, while the value of the space before
stays. -/
theorem eof_value_outside_space_sample : ∃ graph state space,
    (Sample.guarded Sample.guardAnew).build = (Sample.guarded Sample.guardAnew, .ok graph) ∧
    state ∈ graph.states ∧ state.eofGuard = some 1 ∧ graph.spaces[1]? = some space ∧
    (3 : ConditionValue) ∈ state.eofValues ∧ ¬(3 : ConditionValue).toNat < 2 ^ space.size ∧
    ¬Draft.Given (Sample.guardedOnce ++ [Sample.guardAnew]) state.name space 3 := by
  have built : (Sample.guarded Sample.guardAnew).build = _ :=
    Draft.build_of_checks (by decide +kernel)
  have found : ∃ state ∈ (Sample.guarded Sample.guardAnew).assemble.mergeDuplicates.states,
      state.eofGuard = some 1 ∧ (3 : ConditionValue) ∈ state.eofValues := by
    decide +kernel
  rcases found with ⟨state, member, guard, stays⟩
  refine ⟨_, state, ⟨1, ["c"]⟩, built, member, guard, by decide +kernel, stays, by decide, ?_⟩
  rintro ⟨values, asked, inside, fits⟩
  exact absurd fits (by decide +kernel)

end StateTables
