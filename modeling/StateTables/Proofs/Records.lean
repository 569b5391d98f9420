import Mathlib.Data.List.Induction
import StateTables.Proofs.Merging
import StateTables.Proofs.ProperDrafts

/-! # Records of states

What a draft records of a state is settled by the operations one after the other, and by nothing
else: each of them revises the record, and what other states have become does not matter. A state
that is not declared has a bare record. So whatever holds of a record after any number of operations
is proved by going through the ways a record is revised.
-/

namespace StateTables

/-- The interval is upright and within the alphabet, and nothing is wrong with its branch. -/
structure Claim.WellFormed (alphabet : Alphabet) (claim : Claim) : Prop where
  upright : alphabet.value claim.low ≤ alphabet.value claim.high
  low : alphabet.contains claim.low = true
  high : alphabet.contains claim.high = true
  branch : claim.branch.Fine

namespace Draft

/-! ## Well-formed claims -/

theorem guardedProblem_eq_none {state : String} {space : ConditionSpace}
    {seen : List ConditionValue} {outcomes : List OutcomeDraft}
    (within : ∀ outcome ∈ outcomes, outcome.value < space.combinations)
    (fresh : ∀ outcome ∈ outcomes, outcome.value ∉ seen)
    (nodup : (outcomes.map OutcomeDraft.value).Nodup) :
    guardedProblem state space seen outcomes = none := by
  induction outcomes generalizing seen with
  | nil => rfl
  | cons outcome rest induction =>
      rw [List.map_cons, List.nodup_cons] at nodup
      have inside := UInt64.not_le.mpr (within outcome (by simp))
      have isFresh : ¬seen.contains outcome.value = true := by
        simpa using fresh outcome (by simp)
      rw [guardedProblem, if_neg inside, if_neg isFresh]
      apply induction (fun other later => within other (by simp [later])) _ nodup.2
      intro other later
      rw [List.mem_cons, not_or]
      refine ⟨?_, fresh other (by simp [later])⟩
      intro same
      exact nodup.1 (same ▸ List.mem_map_of_mem later)

theorem branchProblem_eq_none_iff {state : String} {branch : Branch} :
    branchProblem state branch = none ↔ branch.Fine := by
  refine ⟨fine_of_branchProblem, ?_⟩
  intro fine
  cases fine with
  | plain target => rfl
  | guarded within nodup => exact guardedProblem_eq_none within (by simp) nodup

theorem reason_of_guardedProblem {state : String} {space : ConditionSpace}
    {seen : List ConditionValue} {outcomes : List OutcomeDraft} {problem : GraphError}
    (found : guardedProblem state space seen outcomes = some problem) :
    problem.reason = .malformedGraph := by
  induction outcomes generalizing seen with
  | nil => cases found
  | cons outcome rest induction =>
      unfold guardedProblem at found
      split at found
      next => cases found; rfl
      next =>
        split at found
        next => cases found; rfl
        next => exact induction found

theorem reason_of_branchProblem {state : String} {branch : Branch} {problem : GraphError}
    (found : branchProblem state branch = some problem) : problem.reason = .malformedGraph := by
  unfold branchProblem at found
  split at found
  next =>
    split at found
    next => cases found
    next => cases found; rfl
  next => exact reason_of_guardedProblem found

end Draft

theorem Claim.wellFormed_iff {alphabet : Alphabet} {claim : Claim} (state : String) :
    claim.WellFormed alphabet ↔
      ¬(alphabet.above claim.low claim.high || !alphabet.contains claim.low ||
        !alphabet.contains claim.high) = true ∧
      Draft.branchProblem state claim.branch = none := by
  rw [Draft.branchProblem_eq_none_iff]
  constructor
  · rintro ⟨upright, low, high, fine⟩
    refine ⟨?_, fine⟩
    rw [low, high]
    simpa using upright
  · rintro ⟨within, fine⟩
    have parts : alphabet.value claim.low ≤ alphabet.value claim.high ∧
        alphabet.contains claim.low = true ∧ alphabet.contains claim.high = true := by
      simpa [-Alphabet.contains_iff, and_assoc] using within
    exact ⟨parts.1, parts.2.1, parts.2.2, fine⟩

instance (alphabet : Alphabet) (claim : Claim) : Decidable (claim.WellFormed alphabet) :=
  decidable_of_iff _ (Claim.wellFormed_iff "").symm

/-! ## Revisions -/

/-- What an operation makes of the record of a state. -/
def StateDraft.revise (alphabet : Alphabet) (state : StateDraft) : DraftStep → StateDraft
  | .markFinal names => if state.name ∈ names then { state with final := true } else state
  | .addClaim name claim =>
    if state.name = name ∧ claim.WellFormed alphabet ∧
        Draft.obstacle alphabet state.claims claim.low claim.high = none then
      { state with claims := Draft.insertClaim alphabet state.claims claim }
    else state
  | .setFallback name branch =>
    if state.name = name ∧ state.fallback = none ∧ Draft.branchProblem name branch = none then
      { state with fallback := some branch }
    else state
  | .setToState name actions =>
    if state.name = name then { state with toState := actions } else state
  | .setFromState name actions =>
    if state.name = name then { state with fromState := actions } else state
  | .setEofActions name actions =>
    if state.name = name then { state with eofActions := actions } else state
  | .setEofTransition name target =>
    if state.name = name then { state with eofBranch := some (.plain target) } else state
  | .guardEof name space values =>
    if state.name = name then
      { state with
        eofGuard := some space
        eofValues := (values.filter fun value => value < space.combinations).foldl
          (fun stored value => Draft.insertValue value stored) state.eofValues }
    else state
  | .unguardEof name => if state.name = name then { state with eofGuard := none } else state
  | .addAlternate name alternate =>
    if state.name = name then { state with alternates := state.alternates ++ [alternate] }
    else state
  | .declareState _ | .setStart _ | .requireError | .defineAction _ | .internSpace _ | .build =>
    state

theorem StateDraft.claims_revise (alphabet : Alphabet) (state : StateDraft)
    (operation : DraftStep) :
    (state.revise alphabet operation).claims = state.claims ∨
      ∃ claim, operation = .addClaim state.name claim ∧ claim.WellFormed alphabet ∧
        Draft.obstacle alphabet state.claims claim.low claim.high = none ∧
        (state.revise alphabet operation).claims =
          Draft.insertClaim alphabet state.claims claim := by
  cases operation with
  | addClaim name claim =>
      simp only [revise]
      split
      next stored =>
        rcases stored with ⟨isNamed, wellFormed, free⟩
        exact .inr ⟨claim, by rw [isNamed], wellFormed, free, rfl⟩
      next => exact .inl rfl
  | declareState | setStart | requireError | defineAction | internSpace | build => exact .inl rfl
  | _ =>
      left
      simp only [revise]
      split <;> rfl

namespace Draft

def record (draft : Draft) (name : String) : StateDraft :=
  (draft.findState name).getD (.bare name)

variable {draft : Draft} {name : String}

@[simp] theorem name_record (draft : Draft) (name : String) : (draft.record name).name = name := by
  unfold record
  cases found : draft.findState name with
  | none => rfl
  | some state => simpa using Array.find?_some found

theorem claims_record : ((draft.findState name).map StateDraft.claims).getD [] =
    (draft.record name).claims := by
  unfold record
  cases draft.findState name <;> rfl

theorem fallback_record : (draft.findState name).bind StateDraft.fallback =
    (draft.record name).fallback := by
  unfold record
  cases draft.findState name <;> rfl

theorem record_of_mem (distinct : draft.Distinct) {state : StateDraft}
    (member : state ∈ draft.states) : draft.record state.name = state := by
  have known : (draft.findState state.name).isSome = true :=
    Array.find?_isSome.mpr ⟨state, member, by simp⟩
  rcases Option.isSome_iff_exists.mp known with ⟨hit, found⟩
  have sameName : hit.name = state.name := by simpa using Array.find?_some found
  rw [record, found, Option.getD_some]
  exact distinct.eq (Array.mem_of_find?_eq_some found) member sameName

theorem record_mem (draft : Draft) (name : String) :
    draft.record name ∈ draft.states ∨ draft.record name = .bare name := by
  unfold record
  cases found : draft.findState name with
  | none => exact .inr rfl
  | some state => exact .inl (Array.mem_of_find?_eq_some found)

/-! ## What changes of a draft do to records -/

theorem record_of_sameStates {after : Draft} (same : after.states = draft.states) :
    after.record name = draft.record name := by
  unfold record findState
  rw [same]

theorem view_foldl {α β : Type} (view : Draft → β) {change : Draft → α → Draft}
    (each : ∀ draft value, view (change draft value) = view draft) (draft : Draft)
    (values : List α) : view (values.foldl change draft) = view draft := by
  induction values generalizing draft with
  | nil => rfl
  | cons value rest induction => exact (induction (change draft value)).trans (each draft value)

@[simp] theorem record_reject (problem : GraphError) :
    (draft.reject problem).record name = draft.record name :=
  rfl

@[simp] theorem record_declareState (other : String) :
    (draft.declareState other).record name = draft.record name := by
  unfold declareState
  split
  next => rfl
  next unknown =>
    unfold record findState at *
    rw [Array.find?_push]
    by_cases isNamed : other = name
    · subst isNamed
      have missing : (draft.states.find? fun state => state.name == other) = none := by
        simpa using unknown
      simp [missing, StateDraft.bare]
    · simp [StateDraft.bare, isNamed]

@[simp] theorem record_updateState (other : String) {change : StateDraft → StateDraft}
    (sameName : ∀ state, (change state).name = state.name) :
    (draft.updateState other change).record name =
      if name = other then change (draft.record name) else draft.record name := by
  have declared : (draft.declareState other).record name = draft.record name :=
    record_declareState other
  unfold updateState record findState at *
  rw [Array.find?_map, ← declared]
  have names : ((fun state => state.name == name) ∘ fun state : StateDraft =>
      if state.name == other then change state else state) = fun state => state.name == name := by
    funext state
    simp only [Function.comp_apply]
    split <;> simp [sameName]
  rw [names]
  cases found : (draft.declareState other).states.find? fun state => state.name == name with
  | some state =>
      have isNamed : state.name = name := by simpa using Array.find?_some found
      simp [isNamed]
  | none =>
      have missing : name ≠ other := by
        rintro rfl
        rcases exists_of_declareState draft name with ⟨state, member, isNamed⟩
        have differs := Array.find?_eq_none.mp found state member
        simp [isNamed] at differs
      simp [missing]

@[simp] theorem record_mentionActions (names : List String) :
    (draft.mentionActions names).record name = draft.record name := by
  apply view_foldl fun draft => draft.record name
  intro draft other
  unfold mentionAction
  split
  next => rfl
  next => exact record_of_sameStates (states_defineAction draft _)

@[simp] theorem record_mentionBranch (branch : Branch) :
    (draft.mentionBranch branch).record name = draft.record name := by
  apply view_foldl fun draft => draft.record name
  intro draft outcome
  split <;> simp

@[simp] theorem record_markFinal (names : List String) :
    (draft.markFinal names).record name =
      if name ∈ names then { draft.record name with final := true } else draft.record name := by
  unfold markFinal
  induction names generalizing draft with
  | nil => simp
  | cons other rest induction =>
      rw [List.foldl_cons, induction, record_updateState other (by simp)]
      by_cases isNamed : name = other <;> by_cases later : name ∈ rest <;> simp [isNamed, later]

theorem record_addGuardValues (other : String) (space : ConditionSpace)
    (values : List ConditionValue) :
    (values.foldl (fun draft value => draft.addGuardValue other space value) draft).record name =
      if name = other then
        { draft.record name with
          eofValues := (values.filter fun value => value < space.combinations).foldl
            (fun stored value => insertValue value stored) (draft.record name).eofValues }
      else draft.record name := by
  induction values generalizing draft with
  | nil => split <;> rfl
  | cons value rest induction =>
      rw [List.foldl_cons, induction, addGuardValue]
      by_cases outside : space.combinations ≤ value
      · rw [if_pos outside, List.filter_cons_of_neg (by simpa using outside)]
        rfl
      · rw [if_neg outside, List.filter_cons_of_pos (by simpa using outside),
          record_updateState other (by simp)]
        by_cases isNamed : name = other <;> simp [isNamed]

theorem internSpace_eq (draft : Draft) (conditions : List String) :
    (∃ space ∈ draft.spaces, spaceKey space.conditions = spaceKey conditions ∧
      draft.internSpace conditions = (draft, space)) ∨
    (∀ space ∈ draft.spaces, spaceKey space.conditions ≠ spaceKey conditions) ∧
      draft.internSpace conditions = ({ draft with
        spaces := draft.spaces.push ⟨draft.spaces.size, conditions⟩
        errors := draft.errors ++ if conditions.length = 0 ∨ 32 < conditions.length then
          [.spaceSize conditions.length] else [] }, ⟨draft.spaces.size, conditions⟩) := by
  unfold internSpace
  split
  next space found =>
    exact .inl ⟨space, Array.mem_of_find?_eq_some found, by simpa using Array.find?_some found, rfl⟩
  next missing =>
    refine .inr ⟨by simpa using missing, ?_⟩
    simp only [Bool.or_eq_true, decide_eq_true_eq]
    split <;> simp [reject]

theorem states_internSpace (draft : Draft) (conditions : List String) :
    (draft.internSpace conditions).1.states = draft.states := by
  rcases internSpace_eq draft conditions with ⟨space, _, _, same⟩ | ⟨_, same⟩ <;> rw [same]

theorem addClaim_eq (draft : Draft) (state : String) (claim : Claim) :
    (¬claim.WellFormed draft.alphabet ∧ ∃ problem : GraphError, problem.reason = .malformedGraph ∧
      draft.addClaim state claim = (draft.declareState state).reject problem) ∨
    claim.WellFormed draft.alphabet ∧
      ((∃ other problem, obstacle draft.alphabet (draft.record state).claims claim.low claim.high =
          some other ∧ problem.reason = .overlap ∧ draft.addClaim state claim =
            ((draft.declareState state).mentionBranch claim.branch).reject problem) ∨
        obstacle draft.alphabet (draft.record state).claims claim.low claim.high = none ∧
          draft.addClaim state claim =
            ((draft.declareState state).mentionBranch claim.branch).insertInto state claim) := by
  have alphabet : (draft.declareState state).alphabet = draft.alphabet :=
    (keeps_declareState (fun _ => True) draft state).alphabet
  have mentioned : ((draft.declareState state).mentionBranch claim.branch).alphabet =
      draft.alphabet :=
    ((keeps_mentionBranch (fun _ => True) _ claim.branch).alphabet).trans alphabet
  have stored : ((((draft.declareState state).mentionBranch claim.branch).findState state).map
      StateDraft.claims).getD [] = (draft.record state).claims := by
    rw [claims_record, record_mentionBranch, record_declareState]
  unfold addClaim insertInto
  dsimp only
  rw [alphabet, mentioned, stored, Claim.wellFormed_iff state]
  split
  next outside => exact .inl ⟨fun wellFormed => wellFormed.1 outside, _, rfl, rfl⟩
  next within =>
    split
    next problem found =>
      refine .inl ⟨?_, problem, reason_of_branchProblem found, rfl⟩
      rintro ⟨_, fine⟩
      cases found.symm.trans fine
    next fine =>
      refine .inr ⟨⟨within, fine⟩, ?_⟩
      split
      next other found => exact .inl ⟨other, _, found, rfl, rfl⟩
      next free => exact .inr ⟨free, rfl⟩

theorem record_addClaim (state : String) (claim : Claim) :
    (draft.addClaim state claim).record name =
      (draft.record name).revise draft.alphabet (.addClaim state claim) := by
  simp only [StateDraft.revise, name_record]
  rcases addClaim_eq draft state claim with
    ⟨malformed, problem, _, same⟩ | ⟨wellFormed, ⟨other, problem, found, _, same⟩ | ⟨free, same⟩⟩
  · rw [same, if_neg fun parts => malformed parts.2.1]
    simp
  · rw [same, if_neg]
    · simp
    · rintro ⟨rfl, _, free⟩
      cases found.symm.trans free
  · have alphabet := (keeps_mentionBranch (fun _ => True) (draft.declareState state)
      claim.branch).alphabet.trans (keeps_declareState (fun _ => True) draft state).alphabet
    rw [same, insertInto, record_updateState state (by simp), record_mentionBranch,
      record_declareState, alphabet]
    by_cases isNamed : name = state
    · rw [if_pos isNamed, if_pos ⟨isNamed, wellFormed, isNamed ▸ free⟩, name_record]
    · rw [if_neg isNamed, if_neg fun parts => isNamed parts.1]

theorem record_setFallback (state : String) (branch : Branch) :
    (draft.setFallback state branch).record name =
      (draft.record name).revise draft.alphabet (.setFallback state branch) := by
  simp only [StateDraft.revise, name_record]
  unfold setFallback
  dsimp only
  rw [fallback_record, record_declareState]
  split
  next taken =>
    rw [if_neg]
    · simp
    · rintro ⟨rfl, free, _⟩
      simp [free] at taken
  next free =>
    split
    next problem found =>
      rw [if_neg]
      · simp
      · rintro ⟨_, _, fine⟩
        cases found.symm.trans fine
    next fine =>
      rw [record_updateState state (by simp)]
      by_cases isNamed : name = state
      · subst isNamed
        have free : (draft.record name).fallback = none := by simpa using free
        simp [free, fine]
      · simp [isNamed]

/-! ## Runs of operations -/

/-- An operation revises every record on its own. -/
theorem record_perform (draft : Draft) (operation : DraftStep) (name : String) :
    (draft.perform operation).record name =
      (draft.record name).revise draft.alphabet operation := by
  cases operation with
  | declareState other | setStart other => exact record_declareState other
  | markFinal names => simp [perform, StateDraft.revise]
  | requireError => rfl
  | defineAction action => exact record_of_sameStates (states_defineAction draft action)
  | internSpace conditions => exact record_of_sameStates (states_internSpace draft conditions)
  | addClaim state claim => exact record_addClaim state claim
  | setFallback state branch => exact record_setFallback state branch
  | setToState state actions | setFromState state actions | setEofActions state actions
  | setEofTransition state target | unguardEof state | addAlternate state alternate =>
      simp [perform, setToState, setFromState, setEofActions, setEofTransition, unguardEof,
        addAlternate, StateDraft.revise]
  | guardEof state space values =>
      simp only [perform, guardEof, StateDraft.revise, name_record]
      rw [record_addGuardValues, record_updateState state (by simp)]
      by_cases isNamed : name = state <;> simp [isNamed]
  | build => exact record_of_sameStates (states_build draft)

/-! ## Problems -/

/-- The change adds problems of a kind and forgets none. -/
def Reports (kind : GraphError → Prop) (before after : Draft) : Prop :=
  ∃ problems, after.errors = before.errors ++ problems ∧ ∀ problem ∈ problems, kind problem

namespace Reports

variable {kind : GraphError → Prop} {before middle after : Draft}

theorem of_sameErrors (same : after.errors = before.errors) : Reports kind before after :=
  ⟨[], by simp [same], by simp⟩

theorem reject {draft : Draft} {problem : GraphError} (isKind : kind problem) :
    Reports kind draft (draft.reject problem) :=
  ⟨[problem], rfl, by simpa using isKind⟩

theorem trans (first : Reports kind before middle) (second : Reports kind middle after) :
    Reports kind before after := by
  rcases first with ⟨problems, errors, kinds⟩
  rcases second with ⟨more, moreErrors, moreKinds⟩
  refine ⟨problems ++ more, by rw [moreErrors, errors, List.append_assoc], ?_⟩
  intro problem member
  rcases List.mem_append.mp member with old | new
  · exact kinds problem old
  · exact moreKinds problem new

theorem foldl {α : Type} {change : Draft → α → Draft} {values : List α}
    (each : ∀ draft, ∀ value ∈ values, Reports kind draft (change draft value)) (draft : Draft) :
    Reports kind draft (values.foldl change draft) := by
  induction values generalizing draft with
  | nil => exact of_sameErrors rfl
  | cons value rest induction =>
      apply (each draft value (by simp)).trans
      exact induction (fun draft other later => each draft other (by simp [later])) _

theorem mem (reports : Reports kind before after) {problem : GraphError}
    (found : problem ∈ before.errors) : problem ∈ after.errors := by
  rcases reports with ⟨problems, errors, _⟩
  rw [errors]
  exact List.mem_append_left _ found

end Reports

section Reporting

variable (draft : Draft)

@[simp] theorem errors_declareState (name : String) :
    (draft.declareState name).errors = draft.errors := by
  unfold declareState
  split <;> rfl

@[simp] theorem errors_updateState (name : String) (change : StateDraft → StateDraft) :
    (draft.updateState name change).errors = draft.errors :=
  errors_declareState draft name

@[simp] theorem errors_mentionActions (names : List String) :
    (draft.mentionActions names).errors = draft.errors := by
  apply view_foldl Draft.errors
  intro draft name
  unfold mentionAction
  split
  next => rfl
  next unknown =>
    unfold defineHook defineAction
    rw [if_neg unknown, if_neg (fun impossible => by cases impossible)]

@[simp] theorem errors_mentionBranch (branch : Branch) :
    (draft.mentionBranch branch).errors = draft.errors := by
  apply view_foldl Draft.errors
  intro draft outcome
  split <;> simp

theorem reports_addClaim (state : String) (claim : Claim) :
    Reports (fun _ => True) draft (draft.addClaim state claim) := by
  rcases addClaim_eq draft state claim with
    ⟨_, problem, _, same⟩ | ⟨_, ⟨other, problem, _, _, same⟩ | ⟨_, same⟩⟩
  · exact ⟨[problem], by simp [same, reject], by simp⟩
  · exact ⟨[problem], by simp [same, reject], by simp⟩
  · exact .of_sameErrors (by simp [same, insertInto])

theorem reason_of_unknownTargets {problem : GraphError} (found : problem ∈ draft.unknownTargets) :
    problem.reason = .malformedGraph := by
  rcases List.mem_filterMap.mp found with ⟨action, _, same⟩
  split at same
  next => cases same
  next => cases same; rfl

theorem reports_build :
    Reports (fun problem => problem.reason = .malformedGraph) draft draft.build.1 := by
  have started : Reports (fun problem => problem.reason = .malformedGraph) draft
      (if draft.start.isEmpty then draft.reject .noStart else draft) := by
    split
    next => exact .reject rfl
    next => exact .of_sameErrors rfl
  unfold build
  generalize (if draft.start.isEmpty then draft.reject .noStart else draft) = first at started ⊢
  have rejected := started.trans (Reports.foldl (fun draft problem found =>
    .reject (reason_of_unknownTargets first found)) first)
  dsimp only
  split
  next => exact started
  next =>
    split
    next => exact rejected
    next => split <;> exact rejected

/-- Problems of the draft are reported, or else those of the graph. -/
theorem build_eq_error {after : Draft} {problems : List GraphError}
    (built : draft.build = (after, .error problems)) :
    problems = after.errors ∨ draft.errors = [] ∧ draft.start ≠ "" ∧
      ∃ problem, problems = [problem] ∧
        draft.assemble.mergeDuplicates.validate = .error problem := by
  unfold build at built
  by_cases started : draft.start.isEmpty = true
  · simp only [if_pos started] at built
    split at built
    next => cases built; exact .inl rfl
    next noErrors => simp [reject] at noErrors
  · simp only [if_neg started] at built
    split at built
    next => cases built; exact .inl rfl
    next noErrors =>
      have noErrors : draft.errors = [] := by simpa using noErrors
      split at built
      next => cases built; exact .inl rfl
      next known =>
        have known : draft.unknownTargets = [] := by
          simpa [errors_foldl_reject, noErrors] using known
        rw [known] at built
        dsimp only [List.foldl_nil] at built
        split at built
        next problem found =>
          cases built
          exact .inr ⟨noErrors, by simpa using started, problem, rfl, found⟩
        next => cases built

theorem build_of_problem {problem : GraphError} (found : problem ∈ draft.errors) :
    ∃ after problems, draft.build = (after, .error problems) ∧ problem ∈ problems := by
  have started : problem ∈
      (if draft.start.isEmpty then draft.reject .noStart else draft).errors := by
    split
    next => exact List.mem_append_left _ found
    next => exact found
  unfold build
  generalize (if draft.start.isEmpty then draft.reject .noStart else draft) = first at started ⊢
  have rejected : (!first.errors.isEmpty) = true := by
    simpa using List.ne_nil_of_mem started
  exact ⟨first, first.errors, by rw [if_pos rejected], started⟩

/-- Nothing but a claim may lead to an overlap. -/
theorem reports_perform {operation : DraftStep}
    (other : ∀ state claim, operation ≠ .addClaim state claim) :
    Reports (fun problem => problem.reason = .malformedGraph) draft (draft.perform operation) := by
  cases operation with
  | declareState name | setStart name => exact .of_sameErrors (errors_declareState draft name)
  | markFinal names => exact .of_sameErrors (view_foldl Draft.errors (by simp) draft names)
  | requireError => exact .of_sameErrors rfl
  | defineAction action =>
      simp only [perform, defineAction]
      split
      next => exact .reject rfl
      next =>
        split
        next => exact .reject rfl
        next => exact .of_sameErrors rfl
  | internSpace conditions =>
      rcases internSpace_eq draft conditions with ⟨space, _, _, same⟩ | ⟨_, same⟩
      · exact .of_sameErrors (by rw [perform, same])
      · refine ⟨_, by rw [perform, same], ?_⟩
        split <;> simp [GraphError.reason]
  | addClaim state claim => exact absurd rfl (other state claim)
  | setFallback state branch =>
      simp only [perform, setFallback]
      split
      next => exact ⟨[_], by simp [reject]; rfl, by simp [GraphError.reason]⟩
      next =>
        split
        next problem found =>
          exact ⟨[problem], by simp [reject], by simpa using reason_of_branchProblem found⟩
        next => exact .of_sameErrors (by simp)
  | setToState state actions | setFromState state actions | setEofActions state actions =>
      exact .of_sameErrors (by simp [perform, setToState, setFromState, setEofActions])
  | setEofTransition state target => exact .of_sameErrors (by simp [perform, setEofTransition])
  | guardEof state space values =>
      apply Reports.trans (.of_sameErrors (errors_updateState draft state _))
      apply Reports.foldl
      intro draft value _
      unfold addGuardValue
      split
      next => exact .reject rfl
      next => exact .of_sameErrors (errors_updateState draft state _)
  | unguardEof state => exact .of_sameErrors (errors_updateState draft state _)
  | addAlternate state alternate => exact .of_sameErrors (by simp [perform, addAlternate])
  | build => exact reports_build draft

theorem mem_errors_perform (operation : DraftStep) {problem : GraphError}
    (found : problem ∈ draft.errors) : problem ∈ (draft.perform operation).errors := by
  by_cases claims : ∃ state claim, operation = .addClaim state claim
  · rcases claims with ⟨state, claim, rfl⟩
    exact (reports_addClaim draft state claim).mem found
  · exact (reports_perform draft fun state claim same => claims ⟨state, claim, same⟩).mem found

end Reporting

/-! ## Declarations -/

/-- The change declares no states but those named. -/
def Declares (names : List String) (before after : Draft) : Prop :=
  ∀ state ∈ after.states, (∃ old ∈ before.states, old.name = state.name) ∨ state.name ∈ names

namespace Declares

variable {names : List String} {before middle after : Draft}

theorem of_sameStates (same : after.states = before.states) : Declares names before after :=
  fun state member => .inl ⟨state, same ▸ member, rfl⟩

theorem trans (first : Declares names before middle) (second : Declares names middle after) :
    Declares names before after := by
  intro state member
  rcases second state member with ⟨old, oldMember, same⟩ | named
  · rw [← same]
    exact first old oldMember
  · exact .inr named

theorem foldl {α : Type} {change : Draft → α → Draft} {values : List α}
    (each : ∀ draft, ∀ value ∈ values, Declares names draft (change draft value)) (draft : Draft) :
    Declares names draft (values.foldl change draft) := by
  induction values generalizing draft with
  | nil => exact of_sameStates rfl
  | cons value rest induction =>
      apply (each draft value (by simp)).trans
      exact induction (fun draft other later => each draft other (by simp [later])) _

end Declares

section Declaring

variable (draft : Draft) {names : List String}

theorem declares_declareState (other : String) (named : other ∈ names) :
    Declares names draft (draft.declareState other) := by
  unfold declareState
  split
  next => exact .of_sameStates rfl
  next =>
    intro state member
    rcases Array.mem_push.mp member with old | rfl
    · exact .inl ⟨state, old, rfl⟩
    · exact .inr named

theorem declares_updateState (other : String) (named : other ∈ names)
    {change : StateDraft → StateDraft} (sameName : ∀ state, (change state).name = state.name) :
    Declares names draft (draft.updateState other change) := by
  apply (declares_declareState draft other named).trans
  intro state member
  rcases Array.mem_map.mp member with ⟨old, oldMember, rfl⟩
  refine .inl ⟨old, oldMember, ?_⟩
  split
  next => exact (sameName old).symm
  next => rfl

theorem declares_mentionActions (actions : List String) :
    Declares names draft (draft.mentionActions actions) := by
  apply Declares.of_sameStates
  apply view_foldl Draft.states
  intro draft action
  unfold mentionAction
  split
  next => rfl
  next => exact states_defineAction draft _

theorem declares_mentionBranch {branch : Branch} (named : ∀ name ∈ targets branch, name ∈ names) :
    Declares names draft (draft.mentionBranch branch) := by
  apply Declares.foldl
  intro draft outcome member
  split
  next => exact declares_mentionActions draft _
  next isNamed =>
    refine (declares_declareState draft _ (named _ ?_)).trans (declares_mentionActions _ _)
    exact List.mem_filter.mpr ⟨List.mem_map_of_mem member, by simpa using isNamed⟩

theorem declares_perform (operation : DraftStep) :
    Declares (declaredBy operation) draft (draft.perform operation) := by
  cases operation with
  | declareState name | setStart name =>
      exact declares_declareState draft name (by simp [declaredBy])
  | markFinal names =>
      apply Declares.foldl
      intro draft name member
      exact declares_updateState draft name member fun _ => rfl
  | requireError => exact .of_sameStates rfl
  | defineAction action => exact .of_sameStates (states_defineAction draft action)
  | internSpace conditions => exact .of_sameStates (states_internSpace draft conditions)
  | addClaim state claim =>
      have declared : Declares (declaredBy (.addClaim state claim)) draft
          (draft.declareState state) := declares_declareState draft state (by simp [declaredBy])
      have mentioned := declared.trans (declares_mentionBranch (draft.declareState state)
        fun name named => (List.mem_cons_of_mem state named :
          name ∈ declaredBy (.addClaim state claim)))
      simp only [perform]
      rcases addClaim_eq draft state claim with
        ⟨_, problem, _, same⟩ | ⟨_, ⟨other, problem, _, _, same⟩ | ⟨_, same⟩⟩
      · exact same ▸ declared.trans (.of_sameStates rfl)
      · exact same ▸ mentioned.trans (.of_sameStates rfl)
      · rw [same]
        exact mentioned.trans (declares_updateState _ state (by simp [declaredBy]) fun _ => rfl)
  | setFallback state branch =>
      have declared : Declares (declaredBy (.setFallback state branch)) draft
          (draft.declareState state) := declares_declareState draft state (by simp [declaredBy])
      simp only [perform, setFallback]
      split
      next => exact declared.trans (.of_sameStates rfl)
      next =>
        split
        next => exact declared.trans (.of_sameStates rfl)
        next =>
          apply (declared.trans (declares_mentionBranch _ _)).trans
          · exact declares_updateState _ state (by simp [declaredBy]) fun _ => rfl
          · exact fun name named => List.mem_cons_of_mem state named
  | setToState state actions | setFromState state actions | setEofActions state actions =>
      apply (declares_declareState draft state (by simp [declaredBy])).trans
      apply (declares_mentionActions _ actions).trans
      exact declares_updateState _ state (by simp [declaredBy]) fun _ => rfl
  | setEofTransition state target =>
      apply (declares_declareState draft state (by simp [declaredBy])).trans
      apply (declares_mentionBranch _ _).trans
      · exact declares_updateState _ state (by simp [declaredBy]) fun _ => rfl
      · exact fun name named => List.mem_cons_of_mem state named
  | guardEof state space values =>
      have guarded : Declares [state] draft (draft.updateState state fun state =>
          { state with eofGuard := some space }) :=
        declares_updateState draft state (by simp) fun _ => rfl
      apply guarded.trans
      apply Declares.foldl
      intro draft value _
      unfold addGuardValue
      split
      next => exact .of_sameStates rfl
      next => exact declares_updateState draft state (by simp) fun _ => rfl
  | unguardEof state => exact declares_updateState draft state (by simp [declaredBy]) fun _ => rfl
  | addAlternate state alternate =>
      apply (declares_declareState draft state (by simp [declaredBy])).trans
      apply (declares_declareState _ alternate.state (by simp [declaredBy])).trans
      apply (declares_mentionActions _ alternate.push).trans
      apply (declares_mentionActions _ alternate.popTest).trans
      exact declares_updateState _ state (by simp [declaredBy]) fun _ => rfl
  | build => exact .of_sameStates (states_build draft)

end Declaring

/-! ## What was asked of one state -/

namespace Reflects

variable {operations : List DraftStep} {draft : Draft} (reflects : Reflects operations draft)
  {state : StateDraft} (member : state ∈ draft.states)
include reflects member

theorem fallback_eq_none (unset : ∀ branch, .setFallback state.name branch ∉ operations) :
    state.fallback = none := by
  cases set : state.fallback with
  | none => rfl
  | some branch => exact absurd (reflects.fallbacks state member branch set) (unset branch)

variable (noErrors : draft.errors = [])
include noErrors

theorem claim_mem {claim : Claim} (asked : .addClaim state.name claim ∈ operations) :
    claim ∈ state.claims := by
  rcases reflects.claimed noErrors state.name claim asked with ⟨found, inside, sameName, stored⟩
  exact reflects.distinct.eq inside member sameName ▸ stored

theorem fallback_eq_some {branch : Branch} (asked : .setFallback state.name branch ∈ operations) :
    state.fallback = some branch := by
  rcases reflects.set noErrors state.name branch asked with ⟨found, inside, sameName, set⟩
  exact reflects.distinct.eq inside member sameName ▸ set

end Reflects

/-! ## Drafts made by operations -/

/-- What was asked for last, where an operation may ask for something. -/
def lastAsked {α : Type} (asks : DraftStep → Option α) (operations : List DraftStep) : Option α :=
  operations.reverse.findSome? asks

@[simp] theorem lastAsked_concat {α : Type} (asks : DraftStep → Option α)
    (operations : List DraftStep) (operation : DraftStep) :
    lastAsked asks (operations ++ [operation]) =
      (asks operation).or (lastAsked asks operations) := by
  simp only [lastAsked, List.reverse_append, List.reverse_singleton, List.singleton_append,
    List.findSome?_cons]
  cases asks operation <;> rfl

/-- The draft that operations make, one after the other, out of nothing. -/
def ofSteps (name : String) (alphabet : Alphabet) (operations : List DraftStep) : Draft :=
  operations.foldl perform (.empty name alphabet)

section Made

variable (name : String) (alphabet : Alphabet) (operations : List DraftStep)

@[simp] theorem ofSteps_concat (operation : DraftStep) :
    ofSteps name alphabet (operations ++ [operation]) =
      (ofSteps name alphabet operations).perform operation := by
  simp [ofSteps]

@[simp] theorem alphabet_ofSteps : (ofSteps name alphabet operations).alphabet = alphabet := by
  induction operations using List.reverseRecOn with
  | nil => rfl
  | append_singleton operations operation induction =>
      rw [ofSteps_concat, alphabet_perform, induction]

theorem distinct_ofSteps : (ofSteps name alphabet operations).Distinct := by
  induction operations using List.reverseRecOn with
  | nil => exact List.nodup_nil
  | append_singleton operations operation induction =>
      rw [ofSteps_concat]
      exact (adds_perform induction operation).distinct induction

variable {operations} in
theorem drafted_ofSteps (admitted : (empty name alphabet).AdmitsAll operations = true) :
    (ofSteps name alphabet operations).Drafted :=
  (Drafted.empty name alphabet).foldl admitted

variable {operations} in
theorem reflects_ofSteps (admitted : (empty name alphabet).AdmitsAll operations = true) :
    Reflects operations (ofSteps name alphabet operations) := by
  have reflects := (reflects_empty name alphabet).foldl admitted
  rwa [List.nil_append] at reflects

theorem record_ofSteps_concat (operation : DraftStep) (state : String) :
    (ofSteps name alphabet (operations ++ [operation])).record state =
      ((ofSteps name alphabet operations).record state).revise alphabet operation := by
  rw [ofSteps_concat, record_perform, alphabet_ofSteps]

theorem declaredBy_of_ofSteps {state : StateDraft}
    (member : state ∈ (ofSteps name alphabet operations).states) :
    ∃ operation ∈ operations, state.name ∈ declaredBy operation := by
  induction operations using List.reverseRecOn generalizing state with
  | nil => simp [ofSteps, empty] at member
  | append_singleton operations operation induction =>
      rw [ofSteps_concat] at member
      rcases declares_perform _ operation state member with ⟨old, oldMember, same⟩ | named
      · rcases induction oldMember with ⟨earlier, asked, named⟩
        exact ⟨earlier, by simp [asked], same ▸ named⟩
      · exact ⟨operation, by simp, named⟩

theorem started_ofSteps : (ofSteps name alphabet operations).start = "" ∨
    ∃ state ∈ (ofSteps name alphabet operations).states,
      state.name = (ofSteps name alphabet operations).start := by
  induction operations using List.reverseRecOn with
  | nil => exact .inl rfl
  | append_singleton operations operation induction =>
      rw [ofSteps_concat]
      generalize ofSteps name alphabet operations = draft at *
      cases plain : configures operation with
      | false =>
          have keeps := keeps_perform (fun _ => True) draft operation (by simp) plain
          rw [keeps.start]
          refine induction.imp id ?_
          rintro ⟨state, member, isStart⟩
          rcases keeps.names state member with ⟨kept, keptMember, sameName⟩
          exact ⟨kept, keptMember, sameName.trans isStart⟩
      | true =>
          cases operation with
          | setStart other => exact .inr (exists_of_declareState draft other)
          | requireError => exact induction
          | internSpace conditions =>
              rcases internSpace_eq draft conditions with ⟨space, _, _, same⟩ | ⟨_, same⟩ <;>
                simpa [perform, same] using induction
          | _ => cases plain

theorem errorRequired_ofSteps :
    (ofSteps name alphabet operations).errorRequired = true ↔ .requireError ∈ operations := by
  induction operations using List.reverseRecOn with
  | nil => simp [ofSteps, empty]
  | append_singleton operations operation induction =>
      rw [ofSteps_concat, List.mem_append, List.mem_singleton, ← induction]
      generalize ofSteps name alphabet operations = draft at *
      cases plain : configures operation with
      | false =>
          have keeps := keeps_perform (fun _ => True) draft operation (by simp) plain
          have other : DraftStep.requireError ≠ operation := by
            rintro rfl
            cases plain
          simp [keeps.required, other]
      | true =>
          cases operation with
          | setStart other =>
              simp [perform, setStart, (keeps_declareState (fun _ => True) draft other).required]
          | requireError => simp [perform, requireError]
          | internSpace conditions =>
              rcases internSpace_eq draft conditions with ⟨space, _, _, same⟩ | ⟨_, same⟩ <;>
                simp [perform, same]
          | _ => cases plain

end Made

end Draft

end StateTables
