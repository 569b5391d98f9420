import StateTables.Proofs.CoverageCheck
import StateTables.Proofs.Records

/-! # Overlapping claims

A claim is compared with two stored intervals only, the last one that starts at or below it and the
first one that starts at or above it, and a claim that was refused is not stored. Stored intervals
are apart, so those two decide about all of them. As long as no overlap was found, every well-formed
claim is stored. So an overlap is found exactly if two well-formed claims for a state have a key in
common, in whatever order claims are made.
-/

namespace StateTables

/-- The intervals have a key in common. -/
def Claim.Overlaps (alphabet : Alphabet) (first second : Claim) : Prop :=
  ∃ key, first.Holds alphabet key ∧ second.Holds alphabet key

/-- Both operations claim a key for the same state, and there is nothing wrong with either. -/
inductive DraftStep.Clashes (alphabet : Alphabet) : DraftStep → DraftStep → Prop
  | claims {state : String} {first second : Claim} : first.WellFormed alphabet →
      second.WellFormed alphabet → first.Overlaps alphabet second →
        Clashes alphabet (.addClaim state first) (.addClaim state second)

section Intervals

variable {alphabet : Alphabet}

theorem Claim.Overlaps.symm {first second : Claim} (overlaps : first.Overlaps alphabet second) :
    second.Overlaps alphabet first := by
  rcases overlaps with ⟨key, inFirst, inSecond⟩
  exact ⟨key, inSecond, inFirst⟩

theorem DraftStep.Clashes.symm {first second : DraftStep}
    (clashes : first.Clashes alphabet second) : second.Clashes alphabet first := by
  cases clashes with
  | claims firstFormed secondFormed overlaps =>
      exact .claims secondFormed firstFormed overlaps.symm

theorem Claim.not_overlaps_of_side {first second : Claim}
    (side : alphabet.value first.high < alphabet.value second.low ∨
      alphabet.value second.high < alphabet.value first.low) : ¬first.Overlaps alphabet second := by
  rintro ⟨key, inFirst, inSecond⟩
  rw [Claim.holds_iff] at inFirst inSecond
  omega

theorem Claim.Apart.pairwise {claims : List Claim} (apart : Claim.Apart alphabet claims) :
    claims.Pairwise fun first second => ¬first.Overlaps alphabet second :=
  apart.ascending.imp fun before => Claim.not_overlaps_of_side (.inl before)

namespace Draft

theorem overlaps_of_obstacle {claims : List Claim} {claim other : Claim}
    (upright : ∀ stored ∈ claims, alphabet.value stored.low ≤ alphabet.value stored.high)
    (isUpright : alphabet.value claim.low ≤ alphabet.value claim.high)
    (found : obstacle alphabet claims claim.low claim.high = some other) :
    other ∈ claims ∧ other.Overlaps alphabet claim := by
  rcases Option.or_eq_some_iff.mp found with floor | ⟨_, ceiling⟩
  · rcases Option.filter_eq_some_iff.mp floor with ⟨last, reaches⟩
    have member := List.mem_of_getLast? last
    have starts : alphabet.value other.low ≤ alphabet.value claim.low := by
      simpa using List.mem_takeWhile_imp member
    refine ⟨List.takeWhile_subset _ member, claim.low, ?_⟩
    simp only [Claim.holds_iff]
    exact ⟨⟨starts, by simpa using reaches⟩, Int.le_refl _, isUpright⟩
  · rcases Option.filter_eq_some_iff.mp ceiling with ⟨first, starts⟩
    have member := List.mem_of_find?_eq_some first
    have above : alphabet.value claim.low ≤ alphabet.value other.low := by
      simpa using List.find?_some first
    refine ⟨member, other.low, ?_⟩
    simp only [Claim.holds_iff]
    exact ⟨⟨Int.le_refl _, upright other member⟩, above, by simpa using starts⟩

/-- The two intervals that are looked at decide about all stored ones. -/
theorem obstacle_eq_none_iff {claims : List Claim} {claim : Claim}
    (apart : Claim.Apart alphabet claims)
    (isUpright : alphabet.value claim.low ≤ alphabet.value claim.high) :
    obstacle alphabet claims claim.low claim.high = none ↔
      ∀ other ∈ claims, ¬other.Overlaps alphabet claim := by
  constructor
  · intro free other member
    exact Claim.not_overlaps_of_side (side_of_obstacle apart free member)
  · intro noOverlap
    cases found : obstacle alphabet claims claim.low claim.high with
    | none => rfl
    | some other =>
        rcases overlaps_of_obstacle apart.upright isUpright found with ⟨member, overlaps⟩
        exact absurd overlaps (noOverlap other member)

end Draft

end Intervals

namespace Draft

/-- An overlap was found. -/
def Overlapped (draft : Draft) : Prop :=
  ∃ problem ∈ draft.errors, problem.reason = .overlap

/-! ## One operation -/

theorem Reports.overlapped_iff {before after : Draft}
    (reports : Reports (fun problem => problem.reason = .malformedGraph) before after) :
    after.Overlapped ↔ before.Overlapped := by
  rcases reports with ⟨problems, errors, kinds⟩
  unfold Overlapped
  rw [errors]
  constructor
  · rintro ⟨problem, member, isOverlap⟩
    rcases List.mem_append.mp member with old | new
    · exact ⟨problem, old, isOverlap⟩
    · cases isOverlap.symm.trans (kinds problem new)
  · rintro ⟨problem, member, isOverlap⟩
    exact ⟨problem, List.mem_append_left _ member, isOverlap⟩

theorem overlapped_addClaim (draft : Draft) (state : String) (claim : Claim) :
    (draft.addClaim state claim).Overlapped ↔ draft.Overlapped ∨
      claim.WellFormed draft.alphabet ∧
        obstacle draft.alphabet (draft.record state).claims claim.low claim.high ≠ none := by
  unfold Overlapped
  rcases addClaim_eq draft state claim with
    ⟨malformed, problem, reason, same⟩ |
      ⟨wellFormed, ⟨other, problem, found, reason, same⟩ | ⟨free, same⟩⟩
  · simp [same, reject, or_and_right, exists_or, reason, malformed]
  · simp [same, reject, or_and_right, exists_or, reason, wellFormed, found]
  · simp [same, insertInto, free]

theorem overlapped_perform {draft : Draft}
    (apart : ∀ state, Claim.Apart draft.alphabet (draft.record state).claims)
    (operation : DraftStep) :
    (draft.perform operation).Overlapped ↔ draft.Overlapped ∨
      ∃ state claim, operation = .addClaim state claim ∧ claim.WellFormed draft.alphabet ∧
        ∃ other ∈ (draft.record state).claims, other.Overlaps draft.alphabet claim := by
  by_cases claims : ∃ state claim, operation = .addClaim state claim
  · rcases claims with ⟨state, claim, rfl⟩
    rw [perform, overlapped_addClaim]
    refine or_congr Iff.rfl ?_
    constructor
    · rintro ⟨wellFormed, blocked⟩
      rw [Ne, obstacle_eq_none_iff (apart state) wellFormed.upright] at blocked
      exact ⟨state, claim, rfl, wellFormed, by simpa using blocked⟩
    · rintro ⟨_, _, same, wellFormed, overlapping⟩
      cases same
      refine ⟨wellFormed, ?_⟩
      rw [Ne, obstacle_eq_none_iff (apart state) wellFormed.upright]
      simpa using overlapping
  · rw [(reports_perform draft fun state claim same => claims ⟨state, claim, same⟩).overlapped_iff]
    refine (or_iff_left ?_).symm
    rintro ⟨state, claim, same, _⟩
    exact claims ⟨state, claim, same⟩

/-! ## Runs of operations -/

section Made

variable (name : String) (alphabet : Alphabet) (operations : List DraftStep)

theorem apart_ofSteps (state : String) :
    Claim.Apart alphabet ((ofSteps name alphabet operations).record state).claims := by
  induction operations using List.reverseRecOn with
  | nil => exact (proper_bare state : (StateDraft.bare state).Proper alphabet fun _ => True).claims
  | append_singleton operations operation induction =>
      rw [record_ofSteps_concat]
      rcases StateDraft.claims_revise alphabet ((ofSteps name alphabet operations).record state)
        operation with same | ⟨claim, _, wellFormed, free, same⟩
      · rwa [same]
      · rw [same]
        exact apart_insertClaim induction wellFormed.upright
          ⟨((alphabet.contains_iff _).mp wellFormed.low).1,
            ((alphabet.contains_iff _).mp wellFormed.high).2⟩ free

theorem asked_of_stored {state : String} {claim : Claim}
    (stored : claim ∈ ((ofSteps name alphabet operations).record state).claims) :
    .addClaim state claim ∈ operations ∧ claim.WellFormed alphabet := by
  induction operations using List.reverseRecOn with
  | nil => cases stored
  | append_singleton operations operation induction =>
      rw [record_ofSteps_concat] at stored
      rcases StateDraft.claims_revise alphabet ((ofSteps name alphabet operations).record state)
        operation with same | ⟨new, isNew, wellFormed, _, same⟩
      · rw [same] at stored
        exact ⟨by simp [(induction stored).1], (induction stored).2⟩
      · rw [same, mem_insertClaim] at stored
        rcases stored with rfl | old
        · rw [name_record] at isNew
          exact ⟨by simp [isNew], wellFormed⟩
        · exact ⟨by simp [(induction old).1], (induction old).2⟩

/-- Without an overlap every well-formed claim is stored. -/
theorem stored_of_asked (noOverlap : ¬(ofSteps name alphabet operations).Overlapped)
    {state : String} {claim : Claim} (asked : .addClaim state claim ∈ operations)
    (wellFormed : claim.WellFormed alphabet) :
    claim ∈ ((ofSteps name alphabet operations).record state).claims := by
  induction operations using List.reverseRecOn with
  | nil => cases asked
  | append_singleton operations operation induction =>
      have apart := apart_ofSteps name alphabet operations
      rw [ofSteps_concat, overlapped_perform (by simpa using apart), alphabet_ofSteps,
        not_or] at noOverlap
      rcases noOverlap with ⟨before, last⟩
      rw [record_ofSteps_concat]
      rcases List.mem_append.mp asked with earlier | isLast
      · have stored := induction before earlier
        rcases StateDraft.claims_revise alphabet ((ofSteps name alphabet operations).record state)
          operation with same | ⟨_, _, _, _, same⟩
        · rwa [same]
        · rw [same, mem_insertClaim]
          exact .inr stored
      · cases List.mem_singleton.mp isLast
        have free := (obstacle_eq_none_iff (apart state) wellFormed.upright).mpr
          fun other member overlaps => last ⟨state, claim, rfl, wellFormed, other, member, overlaps⟩
        simp [StateDraft.revise, wellFormed, free, mem_insertClaim]

theorem overlapped_ofSteps : (ofSteps name alphabet operations).Overlapped ↔
    ¬operations.Pairwise fun first second => ¬first.Clashes alphabet second := by
  induction operations using List.reverseRecOn with
  | nil => simp [Overlapped, ofSteps, empty]
  | append_singleton operations operation induction =>
      have apart := apart_ofSteps name alphabet operations
      rw [ofSteps_concat, overlapped_perform (by simpa using apart), alphabet_ofSteps,
        List.pairwise_append]
      by_cases overlapped : (ofSteps name alphabet operations).Overlapped
      · simp [overlapped, induction.mp overlapped]
      · -- All well-formed claims are stored, so one of them is met if any was asked for.
        have before := not_not.mp (mt induction.mpr overlapped)
        simp only [overlapped, before, false_or, true_and, List.pairwise_singleton,
          List.mem_singleton, forall_eq, not_forall, not_not]
        constructor
        · rintro ⟨state, claim, rfl, wellFormed, other, stored, overlaps⟩
          rcases asked_of_stored name alphabet operations stored with ⟨asked, otherFormed⟩
          exact ⟨_, asked, .claims otherFormed wellFormed overlaps⟩
        · rintro ⟨earlier, asked, clashes⟩
          cases clashes with
          | @claims state first second firstFormed secondFormed overlaps =>
              have stored := stored_of_asked name alphabet operations overlapped asked firstFormed
              exact ⟨state, second, rfl, secondFormed, first, stored, overlaps⟩

end Made

end Draft

/-! ## Validation -/

namespace Graph

variable {graph : Graph} {problem : GraphError}

theorem reason_of_checkOutcomes {id : Nat} {space : ConditionSpace}
    {previous : Option ConditionValue} {outcomes : List Outcome}
    (reported : checkOutcomes id space previous outcomes = .error problem) :
    problem.reason = .malformedGraph := by
  induction outcomes generalizing previous with
  | nil => cases reported
  | cons outcome rest induction =>
      unfold checkOutcomes at reported
      split at reported
      next => cases reported; rfl
      next =>
        split at reported
        next =>
          split at reported
          next => cases reported; rfl
          next => exact induction reported
        next => exact induction reported

theorem reason_of_checkTransition {id : Nat} {transition : Transition}
    (reported : graph.checkTransition id transition = .error problem) :
    problem.reason = .malformedGraph := by
  unfold checkTransition at reported
  split at reported
  next =>
    split at reported
    next => cases reported
    next => cases reported; rfl
  next => exact reason_of_checkOutcomes reported

theorem reason_of_checkState {id : Nat} {state : State} (ordered : state.Ordered graph.alphabet)
    (reported : graph.checkState id state = .error problem) :
    problem.reason = .malformedGraph := by
  unfold checkState at reported
  dsimp only at reported
  rw [firstDisorder_singles ordered, checkRanges_ranges ordered,
    find?_singles_eq_none ordered] at reported
  split at reported
  next => cases reported; rfl
  rcases bind_eq_error.mp reported with impossible | ⟨_, _, reported⟩
  · cases impossible
  dsimp only at reported
  split at reported
  next => cases reported; rfl
  split at reported
  next => cases reported; rfl
  next => cases reported

theorem reason_of_validate (ordered : ∀ state ∈ graph.states, state.Ordered graph.alphabet)
    (reported : graph.validate = .error problem) : problem.reason = .malformedGraph := by
  unfold validate at reported
  rcases bind_eq_error.mp reported with states | ⟨_, _, reported⟩
  · rcases exists_of_checkEach states with ⟨id, state, found, failed⟩
    exact reason_of_checkState (ordered state (by simpa using List.mem_of_getElem? found)) failed
  · dsimp only at reported
    split at reported
    next => cases reported; rfl
    next =>
      rcases exists_of_checkEach reported with ⟨id, transition, _, failed⟩
      exact reason_of_checkTransition failed

end Graph

namespace Draft

section Made

variable (name : String) (alphabet : Alphabet) (operations : List DraftStep)

theorem apart_states : ∀ state ∈ (ofSteps name alphabet operations).states,
    Claim.Apart alphabet state.claims := by
  intro state member
  rw [← record_of_mem (distinct_ofSteps name alphabet operations) member]
  exact apart_ofSteps name alphabet operations state.name

/-- A claim that leaves a problem behind is not stored. -/
theorem claims_of_refused {draft : Draft} {state : String} {claim : Claim}
    (refused : (draft.addClaim state claim).errors ≠ draft.errors) (other : String) :
    ((draft.addClaim state claim).record other).claims = (draft.record other).claims := by
  rcases addClaim_eq draft state claim with
    ⟨_, problem, _, same⟩ | ⟨_, ⟨_, problem, _, _, same⟩ | ⟨_, same⟩⟩
  · simp [same]
  · simp [same]
  · exact absurd (by simp [same, insertInto]) refused

/-- An overlap that is reported was found by the draft, not by validation. -/
theorem mem_errors_of_build_overlap {after : Draft} {problems : List GraphError}
    (built : (ofSteps name alphabet operations).build = (after, .error problems))
    {problem : GraphError} (member : problem ∈ problems) (isOverlap : problem.reason = .overlap) :
    problem ∈ (ofSteps name alphabet operations).errors := by
  have apart := apart_states name alphabet operations
  have started := started_ofSteps name alphabet operations
  have sameAlphabet := alphabet_ofSteps name alphabet operations
  generalize ofSteps name alphabet operations = draft at *
  rcases build_eq_error draft built with rfl | ⟨_, named, found, rfl, reported⟩
  · rcases reports_build draft with ⟨new, errors, kinds⟩
    rw [built] at errors
    rw [errors] at member
    rcases List.mem_append.mp member with old | added
    · exact old
    · cases isOverlap.symm.trans (kinds problem added)
  · cases List.mem_singleton.mp member
    rcases started.resolve_left named with ⟨state, declared, _⟩
    have ordered : ∀ state ∈ draft.assemble.mergeDuplicates.states,
        state.Ordered draft.alphabet := fun _ =>
      ordered_merged (Array.size_pos_of_mem declared) (sameAlphabet.symm ▸ apart)
    cases isOverlap.symm.trans (Graph.reason_of_validate ordered reported)

/-- Whatever is asked of a draft, an overlap is found exactly if two well-formed claims for a state
have a key in common, and so in whatever order operations are performed; a claim that leaves a
problem behind changes no stored interval; stored intervals have no key in common; and validation
finds no overlap. -/
theorem overlap_detection_exact :
    ((ofSteps name alphabet operations).Overlapped ↔
      ∃ (i j : Nat) (first second : DraftStep), i < j ∧ operations[i]? = some first ∧
        operations[j]? = some second ∧ first.Clashes alphabet second) ∧
    (∀ others, others.Perm operations →
      ((ofSteps name alphabet others).Overlapped ↔
        (ofSteps name alphabet operations).Overlapped)) ∧
    (∀ state claim, ((ofSteps name alphabet operations).addClaim state claim).errors ≠
        (ofSteps name alphabet operations).errors →
      ∀ other, (((ofSteps name alphabet operations).addClaim state claim).record other).claims =
        ((ofSteps name alphabet operations).record other).claims) ∧
    (∀ state ∈ (ofSteps name alphabet operations).states,
      state.claims.Pairwise fun first second => ¬first.Overlaps alphabet second) ∧
    (∀ after graph, (ofSteps name alphabet operations).build = (after, .ok graph) →
      graph.validate = .ok ()) ∧
    ∀ after problems, (ofSteps name alphabet operations).build = (after, .error problems) →
      ∀ problem ∈ problems, problem.reason = .overlap →
        problem ∈ (ofSteps name alphabet operations).errors := by
  refine ⟨?_, ?_, fun state claim => claims_of_refused, ?_, ?_, ?_⟩
  · rw [overlapped_ofSteps, List.pairwise_iff_getElem]
    simp only [not_forall, not_not]
    constructor
    · rintro ⟨i, j, insideI, insideJ, before, clashes⟩
      exact ⟨i, j, _, _, before, List.getElem?_eq_getElem insideI, List.getElem?_eq_getElem insideJ,
        clashes⟩
    · rintro ⟨i, j, first, second, before, foundFirst, foundSecond, clashes⟩
      rcases List.getElem?_eq_some_iff.mp foundFirst with ⟨insideI, rfl⟩
      rcases List.getElem?_eq_some_iff.mp foundSecond with ⟨insideJ, rfl⟩
      exact ⟨i, j, insideI, insideJ, before, clashes⟩
  · intro others perm
    rw [overlapped_ofSteps, overlapped_ofSteps]
    exact not_congr (perm.pairwise_iff fun apart clashes => apart clashes.symm)
  · exact fun state member => (apart_states name alphabet operations state member).pairwise
  · exact fun after graph built => (build_eq_ok built).2.2.2.2
  · intro after problems built problem
    exact mem_errors_of_build_overlap name alphabet operations built

end Made

end Draft

namespace Sample

def overlapping : List DraftStep := [
  .addClaim "s" ⟨.ofInt 10, .ofInt 20, .plain ⟨"s", []⟩⟩,
  .addClaim "s" ⟨.ofInt 15, .ofInt 30, .plain ⟨"s", []⟩⟩,
  .addClaim "s" ⟨.ofInt 25, .ofInt 40, .plain ⟨"s", []⟩⟩]

end Sample

/-- The overlap is found in both orders. The interval in the middle is refused, so the other two
are stored. -/
theorem overlap_detection_exact_sample :
    (Draft.ofSteps "overlap" (.full ⟨true, .one⟩) Sample.overlapping).Overlapped ∧
    (Draft.ofSteps "overlap" (.full ⟨true, .one⟩) Sample.overlapping.reverse).Overlapped ∧
    ((Draft.ofSteps "overlap" (.full ⟨true, .one⟩) Sample.overlapping).record "s").claims.map
      Claim.low = [.ofInt 10, .ofInt 25] := by
  rcases Draft.overlap_detection_exact "overlap" (.full ⟨true, .one⟩) Sample.overlapping with
    ⟨found, anyOrder, _⟩
  have clashes : DraftStep.Clashes (.full ⟨true, .one⟩)
      (.addClaim "s" ⟨.ofInt 10, .ofInt 20, .plain ⟨"s", []⟩⟩)
      (.addClaim "s" ⟨.ofInt 15, .ofInt 30, .plain ⟨"s", []⟩⟩) := by
    refine .claims (by decide +kernel) (by decide +kernel) ⟨.ofInt 18, ?_⟩
    simp only [Claim.holds_iff]
    decide +kernel
  have overlapped := found.mpr ⟨0, 1, _, _, by decide, rfl, rfl, clashes⟩
  exact ⟨overlapped, (anyOrder _ (List.reverse_perm _)).mpr overlapped, by decide +kernel⟩

end StateTables
