import Mathlib.Data.Finset.Card
import StateTables.Proofs.RangeClauses
import StateTables.Proofs.Realization
import StateTables.Proofs.Records

/-! # The error state

Whether a graph has an error state is decided before it has any states, by a look at the draft. The
decision is right: there is an error state exactly if it was asked for, a declared state leaves a
key without a transition, or a declared branch leads into it, be it by an outcome without a target
or by a condition value without an outcome. Nothing that is built later leads to an error state that
is not there.
-/

namespace StateTables

/-! ## Branches -/

/-- The branch is guarded, and it has no outcome for some value of its space. -/
def Branch.LeavesOut (branch : Branch) : Prop :=
  ∃ space, branch.space = some space ∧ ∃ value < 2 ^ space.size,
    ∀ outcome ∈ branch.outcomes, outcome.value.toNat ≠ value

section Values

variable {values : List Nat} {bound : Nat} (nodup : values.Nodup)
  (below : ∀ value ∈ values, value < bound)
include nodup below

theorem length_le_of_below : values.length ≤ bound := by
  rw [← List.toFinset_card_of_nodup nodup, ← Finset.card_range bound]
  apply Finset.card_le_card
  intro value member
  simpa using below value (by simpa using member)

/-- Numbers below a bound leave one out exactly if they are fewer. -/
theorem exists_not_mem_iff : (∃ value < bound, value ∉ values) ↔ values.length < bound := by
  constructor
  · rintro ⟨value, isBelow, missing⟩
    exact length_le_of_below (nodup.cons missing) (by simpa using ⟨isBelow, below⟩)
  · intro fewer
    rw [← List.toFinset_card_of_nodup nodup, ← Finset.card_range bound] at fewer
    rcases Finset.exists_mem_notMem_of_card_lt_card fewer with ⟨value, isBelow, missing⟩
    exact ⟨value, by simpa using isBelow, by simpa using missing⟩

end Values

theorem Branch.Fine.numbers {branch : Branch} (fine : branch.Fine) {space : ConditionSpace}
    (guard : branch.space = some space) (small : space.size ≤ 32) :
    (branch.outcomes.map fun outcome => outcome.value.toNat).Nodup ∧
      ∀ value ∈ branch.outcomes.map (fun outcome => outcome.value.toNat),
        value < 2 ^ space.size := by
  cases fine with
  | plain target => cases guard
  | guarded within nodup =>
      cases guard
      constructor
      · have mapped := nodup.map fun _ _ => UInt64.toNat_inj.mp
        rwa [List.map_map] at mapped
      · intro value member
        rcases List.mem_map.mp member with ⟨outcome, inside, rfl⟩
        exact ConditionSpace.toNat_lt small (within outcome inside)

namespace Draft

/-- Counting the outcomes of a branch tells whether it leads into the error state. -/
theorem reachesError_iff {branch : Branch} (fine : branch.Fine)
    (small : ∀ space, branch.space = some space → space.size ≤ 32) :
    reachesError branch = true ↔
      (∃ outcome ∈ branch.outcomes, outcome.target.state = "") ∨ branch.LeavesOut := by
  have counted : (branch.space.any fun space =>
      decide (UInt64.ofNat branch.outcomes.length < space.combinations)) = true ↔
        branch.LeavesOut := by
    cases guard : branch.space with
    | none => simp [Branch.LeavesOut, guard]
    | some space =>
        have isSmall := small space guard
        rcases fine.numbers guard isSmall with ⟨nodup, below⟩
        have fits := length_le_of_below nodup below
        have power : 2 ^ space.size < 2 ^ 64 := Nat.pow_lt_pow_right (by omega) (by omega)
        have exact := exists_not_mem_iff nodup below
        rw [List.length_map] at fits exact
        simp only [Option.any_some, decide_eq_true_eq]
        rw [UInt64.lt_iff_toNat_lt, ConditionSpace.toNat_combinations isSmall, UInt64.toNat_ofNat',
          Nat.mod_eq_of_lt (by omega), ← exact]
        simp [Branch.LeavesOut, guard]
  simp only [reachesError, Bool.or_eq_true, counted]
  rw [or_comm]
  simp

/-! ## Gaps -/

theorem exists_of_hasGap {alphabet : Alphabet} {claims : List Claim}
    (apart : Claim.Apart alphabet claims) {expected : Key}
    (above : ∀ claim ∈ claims, alphabet.value expected ≤ alphabet.value claim.low)
    (within : alphabet.value expected ≤ alphabet.value alphabet.high)
    (gap : hasGap alphabet expected claims = true) :
    ∃ key, alphabet.value expected ≤ alphabet.value key ∧
      alphabet.value key ≤ alphabet.value alphabet.high ∧
        ∀ claim ∈ claims, ¬claim.Holds alphabet key := by
  simp only [Claim.holds_iff]
  induction claims generalizing expected with
  | nil => exact ⟨expected, Int.le_refl _, within, by simp⟩
  | cons claim rest induction =>
      have starts := above claim (by simp)
      have upright := apart.upright claim (by simp)
      have inside := apart.inside claim (by simp)
      have behind := (List.pairwise_cons.mp apart.ascending).1
      unfold hasGap at gap
      split at gap
      next late =>
        -- The first interval starts too late, and the others start behind it.
        have late : alphabet.value claim.low ≠ alphabet.value expected :=
          fun same => late (alphabet.value_injective same)
        refine ⟨expected, Int.le_refl _, within, ?_⟩
        intro other member
        rcases List.mem_cons.mp member with rfl | later
        · omega
        · have next := behind other later
          omega
      next early =>
        split at gap
        next => cases gap
        next notLast =>
          have notLast : alphabet.value claim.high ≠ alphabet.value alphabet.high :=
            fun same => notLast (alphabet.value_injective same)
          have next := alphabet.value_successor
            (by omega : alphabet.value claim.high < alphabet.value alphabet.high)
          have aboveRest : ∀ other ∈ rest,
              alphabet.value claim.high.successor ≤ alphabet.value other.low := by
            intro other later
            have isBehind := behind other later
            omega
          rcases induction apart.tail aboveRest (by omega) gap with ⟨key, after, before, free⟩
          refine ⟨key, by omega, before, ?_⟩
          intro other member
          rcases List.mem_cons.mp member with rfl | later
          · omega
          · exact free other later

/-- Some key of the alphabet is not claimed for the state. -/
def Uncovered (alphabet : Alphabet) (operations : List DraftStep) (state : String) : Prop :=
  ∃ key, alphabet.contains key = true ∧
    ∀ claim, .addClaim state claim ∈ operations → ¬claim.Holds alphabet key

/-! ## What operations declare -/

/-- The target an operation sets for the end of input in a state. -/
def eofTargetBy (state : String) : DraftStep → Option Target
  | .setEofTransition other target => if state = other then some target else none
  | _ => none

/-- A branch for an interval, a fallback, or the branch that was set last for the end of input. -/
inductive DeclaredBranch (operations : List DraftStep) : Branch → Prop
  | claim {state : String} {claim : Claim} : .addClaim state claim ∈ operations →
      DeclaredBranch operations claim.branch
  | fallback {state : String} {branch : Branch} : .setFallback state branch ∈ operations →
      DeclaredBranch operations branch
  | eof {state : String} {target : Target} :
      lastAsked (eofTargetBy state) operations = some target →
        DeclaredBranch operations (.plain target)

/-- The reasons for an error state. -/
inductive NeedsError (alphabet : Alphabet) (operations : List DraftStep) : Prop
  | required : .requireError ∈ operations → NeedsError alphabet operations
  | uncovered {operation : DraftStep} {state : String} : operation ∈ operations →
      state ∈ declaredBy operation → (∀ branch, .setFallback state branch ∉ operations) →
        Uncovered alphabet operations state → NeedsError alphabet operations
  | emptyTarget {branch : Branch} {outcome : OutcomeDraft} : DeclaredBranch operations branch →
      outcome ∈ branch.outcomes → outcome.target.state = "" → NeedsError alphabet operations
  | leftOut {branch : Branch} : DeclaredBranch operations branch → branch.LeavesOut →
      NeedsError alphabet operations

section Made

theorem eofBranch_revise (alphabet : Alphabet) (state : StateDraft) (operation : DraftStep) :
    (state.revise alphabet operation).eofBranch =
      ((eofTargetBy state.name operation).map .plain).or state.eofBranch := by
  cases operation with
  | setEofTransition other target =>
      by_cases isNamed : state.name = other <;> simp [StateDraft.revise, eofTargetBy, isNamed]
  | declareState | setStart | requireError | defineAction | internSpace | build => rfl
  | _ =>
      simp only [StateDraft.revise]
      split <;> rfl

theorem eofBranch_ofSteps (name : String) (alphabet : Alphabet) (operations : List DraftStep)
    (state : String) : ((ofSteps name alphabet operations).record state).eofBranch =
      (lastAsked (eofTargetBy state) operations).map .plain := by
  induction operations using List.reverseRecOn with
  | nil => rfl
  | append_singleton operations operation induction =>
      rw [record_ofSteps_concat, lastAsked_concat, eofBranch_revise, name_record, induction]
      cases eofTargetBy state operation <;> rfl

variable {name : String} {alphabet : Alphabet} {operations : List DraftStep}
  (admitted : (empty name alphabet).AdmitsAll operations = true)
  (noErrors : (ofSteps name alphabet operations).errors = [])
include admitted noErrors

theorem declaredBranch_iff {branch : Branch} : DeclaredBranch operations branch ↔
    ∃ state ∈ (ofSteps name alphabet operations).states, branch ∈ branches state := by
  have reflects := reflects_ofSteps name alphabet admitted
  have eofBranch := eofBranch_ofSteps name alphabet operations
  generalize ofSteps name alphabet operations = draft at *
  simp only [mem_branches]
  constructor
  · intro declared
    cases declared with
    | @claim state claim asked =>
        rcases reflects.claimed noErrors state claim asked with ⟨found, member, _, inside⟩
        exact ⟨found, member, .inr (.inr ⟨claim, inside, rfl⟩)⟩
    | @fallback state branch asked =>
        rcases reflects.set noErrors state branch asked with ⟨found, member, _, set⟩
        exact ⟨found, member, .inl set⟩
    | @eof state target asked =>
        have own := eofBranch state
        rw [asked, Option.map_some] at own
        rcases record_mem draft state with member | bare
        · exact ⟨_, member, .inr (.inl own)⟩
        · rw [bare] at own
          cases own
  · rintro ⟨state, member, isFallback | atEof | ⟨claim, inside, rfl⟩⟩
    · exact .fallback (reflects.fallbacks state member branch isFallback)
    · have own := eofBranch state.name
      rw [record_of_mem reflects.distinct member, atEof] at own
      rcases Option.map_eq_some_iff.mp own.symm with ⟨target, asked, rfl⟩
      exact .eof asked
    · exact .claim (reflects.claims state member claim inside)

theorem leavesGap_iff (made : alphabet.Declared) (state : StateDraft)
    (member : state ∈ (ofSteps name alphabet operations).states) :
    (ofSteps name alphabet operations).leavesGap state = true ↔
      (∀ branch, .setFallback state.name branch ∉ operations) ∧
        Uncovered alphabet operations state.name := by
  have reflects := reflects_ofSteps name alphabet admitted
  have apart := ((drafted_ofSteps name alphabet admitted).proper state member).claims
  have sameAlphabet := alphabet_ofSteps name alphabet operations
  generalize ofSteps name alphabet operations = draft at *
  subst sameAlphabet
  constructor
  · intro leaves
    simp only [leavesGap, Bool.and_eq_true, Option.isNone_iff_eq_none] at leaves
    constructor
    · intro branch asked
      cases leaves.1.symm.trans (reflects.fallback_eq_some member noErrors asked)
    · rcases exists_of_hasGap apart (fun claim inside => (apart.inside claim inside).1)
        made.upright leaves.2 with ⟨key, above, below, free⟩
      refine ⟨key, (draft.alphabet.contains_iff key).mpr ⟨above, below⟩, ?_⟩
      exact fun claim asked => free claim (reflects.claim_mem member noErrors asked)
  · rintro ⟨unset, key, contained, free⟩
    apply leavesGap_of_unclaimed contained
    · exact fun claim stored => free claim (reflects.claims state member claim stored)
    · exact reflects.fallback_eq_none member unset

/-- The decision about the error state is right. -/
theorem needsError_iff (made : alphabet.Declared) :
    (ofSteps name alphabet operations).needsError = true ↔ NeedsError alphabet operations := by
  have drafted := drafted_ofSteps name alphabet admitted
  have reflects := reflects_ofSteps name alphabet admitted
  have reaches : ∀ state ∈ (ofSteps name alphabet operations).states, ∀ branch ∈ branches state,
      (reachesError branch = true ↔
        (∃ outcome ∈ branch.outcomes, outcome.target.state = "") ∨ branch.LeavesOut) := by
    intro state member branch inside
    apply reachesError_iff ((drafted.proper state member).fine inside)
    intro space guard
    exact (drafted.consistent.sized noErrors space
      (drafted.consistent.guarded state member branch inside space guard)).2
  have gaps := leavesGap_iff admitted noErrors made
  simp only [needsError, Bool.or_eq_true, errorRequired_ofSteps, Array.any_eq_true',
    List.any_eq_true]
  constructor
  · rintro (asked | ⟨state, member, gap | ⟨branch, inside, reached⟩⟩)
    · exact .required asked
    · rcases (gaps state member).mp gap with ⟨unset, uncovered⟩
      rcases declaredBy_of_ofSteps name alphabet operations member with ⟨operation, asked, named⟩
      exact .uncovered asked named unset uncovered
    · have declared := (declaredBranch_iff admitted noErrors).mpr ⟨state, member, inside⟩
      rcases (reaches state member branch inside).mp reached with ⟨outcome, listed, empty⟩ | leaves
      · exact .emptyTarget declared listed empty
      · exact .leftOut declared leaves
  · intro needed
    cases needed with
    | required asked => exact .inl asked
    | @uncovered operation state asked named unset uncovered =>
        rcases reflects.declared noErrors operation asked state named with ⟨source, member, rfl⟩
        exact .inr ⟨source, member, .inl ((gaps source member).mpr ⟨unset, uncovered⟩)⟩
    | @emptyTarget branch outcome declared listed empty =>
        rcases (declaredBranch_iff admitted noErrors).mp declared with ⟨state, member, inside⟩
        exact .inr ⟨state, member, .inr ⟨branch, inside,
          (reaches state member branch inside).mpr (.inl ⟨outcome, listed, empty⟩)⟩⟩
    | @leftOut branch declared leaves =>
        rcases (declaredBranch_iff admitted noErrors).mp declared with ⟨state, member, inside⟩
        exact .inr ⟨state, member, .inr ⟨branch, inside,
          (reaches state member branch inside).mpr (.inr leaves)⟩⟩

end Made

/-! ## What is built -/

section Building

variable {draft : Draft}

theorem isSome_errorNumber? : draft.errorNumber?.isSome = draft.needsError := by
  unfold errorNumber?
  cases draft.needsError <;> rfl

theorem errorNumber?_of_needsError (needed : draft.needsError = true) :
    draft.errorNumber? = some 0 := by
  rw [errorNumber?, if_pos needed]

theorem targetNumber?_eq_zero {source : StateDraft} (declared : source ∈ draft.states)
    {branch : Branch} (inside : branch ∈ branches source) {outcome : OutcomeDraft}
    (listed : outcome ∈ branch.outcomes) (empty : outcome.target.state = "") :
    draft.targetNumber? outcome.target = some 0 := by
  have isEmpty : outcome.target.state.isEmpty = true := by simp [empty]
  rw [targetNumber?, if_pos isEmpty]
  exact errorNumber?_of_needsError (needsError_of_target declared inside listed isEmpty)

variable (inhabited : 0 < draft.states.size)
include inhabited

theorem exists_errorWay {error : Nat} (isError : draft.errorNumber? = some error) :
    error = 0 ∧ ∃ way, draft.assemble.mergeDuplicates.errorTransition = some way.2 ∧
      draft.assemble.mergeDuplicates.errorCondition = some way.1 ∧
      draft.assemble.mergeDuplicates.states[error]? = some (errorState way.2) ∧
      ErrorWay draft.assemble.mergeDuplicates.conditions
        draft.assemble.mergeDuplicates.transitions error way := by
  have needed : draft.needsError = true := by simp [← isSome_errorNumber?, isError]
  cases isError.symm.trans (errorNumber?_of_needsError needed)
  rcases (shares_shareAll inhabited).2.2.way 0 isError with ⟨way, same, condition, transition⟩
  have condition : draft.assemble.conditions[way.1]? = some ⟨0, none⟩ := condition
  have transition : draft.assemble.transitions[way.2]? = some ⟨none, #[⟨0, way.1⟩]⟩ := transition
  refine ⟨rfl, (Graph.renumber draft.assemble.conditionNumbers way.1,
    Graph.renumber draft.assemble.transitionNumbers way.2), ?_, ?_, ?_, ?_, ?_⟩
  · change ((draft.shareAll .empty).1.1.map Prod.snd).map _ = _
    rw [same]
    rfl
  · change ((draft.shareAll .empty).1.1.map Prod.fst).map _ = _
    rw [same]
    rfl
  · rw [Graph.mergeDuplicates_eq, Array.getElem?_map, assemble_states, same]
    simp [statesOf, Graph.mergeState, errorState, State.bare]
  · exact Graph.getElem?_merged_condition condition
  · simpa using Graph.getElem?_merged_transition transition

theorem exists_fallback (distinct : draft.Distinct) {source : StateDraft}
    (declared : source ∈ draft.states) (missing : source.fallback = none) :
    ∃ id state, draft.assemble.mergeDuplicates.DeclaredAt source.name id ∧
      draft.assemble.mergeDuplicates.states[id]? = some state ∧
      (draft.leavesGap source = true →
        draft.assemble.mergeDuplicates.errorTransition.isSome = true ∧
          state.fallback = draft.assemble.mergeDuplicates.errorTransition) ∧
      (draft.leavesGap source = false → state.fallback = none) := by
  rcases exists_merged_state distinct inhabited declared with
    ⟨id, state, declaredAt, found, finished⟩
  have gap := finished.gap missing
  refine ⟨id, _, declaredAt, found, fun leaves => ?_, fun gapless => ?_⟩
  · have needed := needsError_of_leavesGap declared leaves
    rcases exists_errorWay inhabited (errorNumber?_of_needsError needed) with ⟨_, way, isWay, _⟩
    refine ⟨by simp [isWay], ?_⟩
    rw [if_pos leaves] at gap
    exact congrArg (Option.map (Graph.renumber draft.assemble.transitionNumbers)) gap
  · rw [if_neg (by simp [gapless])] at gap
    exact congrArg (Option.map (Graph.renumber draft.assemble.transitionNumbers)) gap

end Building

/-- An error state is never missing where one is led to; and if a graph is built, then it has an
error state exactly if there is a reason for one, under number zero and with a transition back to
itself; a declared state without a fallback of its own falls back on the way into the error state,
if it leaves a key uncovered, and otherwise it has no fallback; and final states are those from the
first final number on. The operations name only condition spaces of their own draft. -/
theorem error_state_exactly_needed {name : String} {alphabet : Alphabet}
    (made : alphabet.Declared) {operations : List DraftStep}
    (admitted : (empty name alphabet).AdmitsAll operations = true) :
    (∀ source ∈ (ofSteps name alphabet operations).states,
      ((ofSteps name alphabet operations).leavesGap source = true →
        (ofSteps name alphabet operations).errorNumber? = some 0) ∧
      ∀ branch ∈ branches source, ∀ outcome ∈ branch.outcomes, outcome.target.state = "" →
        (ofSteps name alphabet operations).targetNumber? outcome.target = some 0) ∧
    ∀ after graph, (ofSteps name alphabet operations).build = (after, .ok graph) →
      (graph.error.isSome = true ↔ NeedsError alphabet operations) ∧
      (∀ error, graph.error = some error → error = 0 ∧ ∃ way,
        graph.errorTransition = some way.2 ∧ graph.errorCondition = some way.1 ∧
        graph.states[error]? = some (errorState way.2) ∧
        ErrorWay graph.conditions graph.transitions error way) ∧
      (∀ operation ∈ operations, ∀ state ∈ declaredBy operation,
        (∀ branch, .setFallback state branch ∉ operations) →
          ∃ id found, graph.DeclaredAt state id ∧ graph.states[id]? = some found ∧
            (Uncovered alphabet operations state →
              graph.errorTransition.isSome = true ∧ found.fallback = graph.errorTransition) ∧
            (¬Uncovered alphabet operations state → found.fallback = none)) ∧
      ∀ (id : Nat) (state : State), graph.states[id]? = some state →
        (state.final = true ↔ graph.firstFinal ≤ id) := by
  have reflects := reflects_ofSteps name alphabet admitted
  have consistent := (drafted_ofSteps name alphabet admitted).consistent
  constructor
  · intro source member
    exact ⟨fun gap => errorNumber?_of_needsError (needsError_of_leavesGap member gap),
      fun branch inside outcome => targetNumber?_eq_zero member inside⟩
  · intro after graph built
    rcases build_eq_ok built with ⟨noErrors, started, _, rfl, validated⟩
    have inhabited := consistent.inhabited started
    refine ⟨?_, fun error => exists_errorWay inhabited, ?_, ?_⟩
    · rw [← needsError_iff admitted noErrors made, ← isSome_errorNumber?]
      rfl
    · intro operation asked state named unset
      rcases reflects.declared noErrors operation asked state named with ⟨source, member, rfl⟩
      have missing := reflects.fallback_eq_none member unset
      have gap := leavesGap_iff admitted noErrors made source member
      rcases exists_fallback inhabited reflects.distinct member missing with
        ⟨id, found, declaredAt, stored, gapped, gapless⟩
      refine ⟨id, found, declaredAt, stored, fun uncovered => gapped (gap.mpr ⟨unset, uncovered⟩),
        fun covered => gapless ?_⟩
      exact Bool.eq_false_iff.mpr fun leaves => covered (gap.mp leaves).2
    · intro id state found
      rw [(Graph.valid_of_validate validated).final id state found, decide_eq_true_eq]

end Draft

/-- A state with a gap makes an error state necessary, and falls back on the way into it. -/
theorem error_state_exactly_needed_sample : ∃ graph,
    Sample.declared.build = (Sample.declared, .ok graph) ∧
    Draft.NeedsError (.full ⟨true, .one⟩) Sample.declarations ∧ graph.error = some 0 ∧
    ∃ id idle, graph.DeclaredAt "idle" id ∧ graph.states[id]? = some idle ∧
      graph.errorTransition.isSome = true ∧ idle.fallback = graph.errorTransition := by
  have admitted : (Draft.empty "declared" (.full ⟨true, .one⟩)).AdmitsAll Sample.declarations =
      true := by decide +kernel
  have uncovered : Draft.Uncovered (.full ⟨true, .one⟩) Sample.declarations "idle" := by
    refine ⟨.ofInt 5, by decide +kernel, ?_⟩
    intro claim asked
    obtain rfl : claim = ⟨.ofInt 10, .ofInt 20, Sample.checked⟩ := by
      simpa [Sample.declarations] using asked
    exact fun holds => absurd holds.1 (by decide +kernel)
  have unset : ∀ branch, .setFallback "idle" branch ∉ Sample.declarations := by
    simp [Sample.declarations]
  have started : .setStart "idle" ∈ Sample.declarations := by decide +kernel
  have named : "idle" ∈ Draft.declaredBy (.setStart "idle") := by decide +kernel
  rcases (Draft.error_state_exactly_needed (.full ⟨true, .one⟩) admitted).2 _ _
    Sample.build_declared with ⟨needed, first, fallbacks, _⟩
  have needs : Draft.NeedsError (.full ⟨true, .one⟩) Sample.declarations :=
    .uncovered started named unset uncovered
  rcases fallbacks _ started "idle" named unset with ⟨id, idle, declaredAt, stored, isWay, _⟩
  rcases Option.isSome_iff_exists.mp (needed.mpr needs) with ⟨error, isError⟩
  exact ⟨_, Sample.build_declared, needs, (first error isError).1 ▸ isError, id, idle, declaredAt,
    stored, isWay uncovered⟩

end StateTables
