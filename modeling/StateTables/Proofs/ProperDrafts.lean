import Mathlib.Data.List.TakeWhile
import StateTables.Proofs.Declarations
import StateTables.Proofs.KeyOrder

/-! # Proper drafts

Whatever is asked of a draft, what it records of a state is proper: the intervals claimed are
within the alphabet, ascend and do not overlap, branches list every value of their condition space
once at most, and the branch at the end of input is not guarded and mentions states and actions
that are there.
-/

namespace StateTables

/-- The branch is not guarded and has one outcome, or it lists values of its space, each once. -/
inductive Branch.Fine : Branch → Prop
  | plain (target : Target) : Fine (.plain target)
  | guarded {space : ConditionSpace} {outcomes : List OutcomeDraft} :
      (∀ outcome ∈ outcomes, outcome.value < space.combinations) →
        (outcomes.map OutcomeDraft.value).Nodup → Fine ⟨some space, outcomes⟩

/-- The intervals are within the alphabet, ascend and do not overlap. -/
structure Claim.Apart (alphabet : Alphabet) (claims : List Claim) : Prop where
  upright : ∀ claim ∈ claims, alphabet.value claim.low ≤ alphabet.value claim.high
  inside : ∀ claim ∈ claims, alphabet.value alphabet.low ≤ alphabet.value claim.low ∧
    alphabet.value claim.high ≤ alphabet.value alphabet.high
  ascending : claims.Pairwise fun first second =>
    alphabet.value first.high < alphabet.value second.low

theorem Claim.Apart.tail {alphabet : Alphabet} {claim : Claim} {claims : List Claim}
    (apart : Claim.Apart alphabet (claim :: claims)) : Claim.Apart alphabet claims where
  upright other member := apart.upright other (List.mem_cons_of_mem _ member)
  inside other member := apart.inside other (List.mem_cons_of_mem _ member)
  ascending := (List.pairwise_cons.mp apart.ascending).2

structure StateDraft.Proper (alphabet : Alphabet) (known : Branch → Prop) (state : StateDraft) :
    Prop where
  claims : Claim.Apart alphabet state.claims
  branches : ∀ claim ∈ state.claims, claim.branch.Fine
  fallback : ∀ branch, state.fallback = some branch → branch.Fine
  eofBranch : ∀ branch, state.eofBranch = some branch →
    (∃ target, branch = .plain target) ∧ known branch

namespace Draft

/-! ## Branches without problems -/

theorem fine_of_guardedProblem {state : String} {space : ConditionSpace}
    {seen : List ConditionValue} {outcomes : List OutcomeDraft}
    (fine : guardedProblem state space seen outcomes = none) :
    (∀ outcome ∈ outcomes, outcome.value < space.combinations ∧ outcome.value ∉ seen) ∧
      (outcomes.map OutcomeDraft.value).Nodup := by
  induction outcomes generalizing seen with
  | nil => simp
  | cons outcome rest induction =>
      unfold guardedProblem at fine
      split at fine
      next => cases fine
      next within =>
        split at fine
        next => cases fine
        next fresh =>
          have fresh : outcome.value ∉ seen := by simpa using fresh
          rcases induction fine with ⟨others, nodup⟩
          constructor
          · intro other member
            rcases List.mem_cons.mp member with rfl | later
            · exact ⟨UInt64.not_le.mp within, fresh⟩
            · exact ⟨(others other later).1, fun old =>
                (others other later).2 (List.mem_cons_of_mem _ old)⟩
          · rw [List.map_cons, List.nodup_cons]
            refine ⟨fun again => ?_, nodup⟩
            rcases List.mem_map.mp again with ⟨other, later, same⟩
            exact (others other later).2 (by rw [same]; exact List.mem_cons_self)

theorem fine_of_branchProblem {state : String} {branch : Branch}
    (fine : branchProblem state branch = none) : branch.Fine := by
  rcases branch with ⟨space, outcomes⟩
  cases space with
  | none =>
      unfold branchProblem at fine
      dsimp only at fine
      split at fine
      next target => exact .plain target
      next => cases fine
  | some space =>
      rcases fine_of_guardedProblem fine with ⟨within, nodup⟩
      exact .guarded (fun outcome member => (within outcome member).1) nodup

/-! ## Intervals that are free -/

section Intervals

variable {alphabet : Alphabet} {claims : List Claim} {low high : Key}

theorem mem_takeWhile_of_atMost (apart : Claim.Apart alphabet claims) {claim : Claim}
    (member : claim ∈ claims) (below : alphabet.value claim.low ≤ alphabet.value low) :
    claim ∈ claims.takeWhile fun other => alphabet.atMost other.low low := by
  induction claims with
  | nil => cases member
  | cons first rest induction =>
      have ascending := List.pairwise_cons.mp apart.ascending
      have upright := apart.upright first (by simp)
      rcases List.mem_cons.mp member with rfl | later
      · simp [below]
      · have next := ascending.1 claim later
        have starts : alphabet.value first.low ≤ alphabet.value low := by omega
        rw [List.takeWhile_cons_of_pos (by simpa using starts)]
        exact List.mem_cons_of_mem _ (induction apart.tail later)

theorem lt_of_mem_dropWhile (apart : Claim.Apart alphabet claims) {claim : Claim}
    (member : claim ∈ claims.dropWhile fun other => alphabet.atMost other.low low) :
    alphabet.value low < alphabet.value claim.low := by
  induction claims with
  | nil => cases member
  | cons first rest induction =>
      by_cases starts : alphabet.atMost first.low low = true
      · rw [List.dropWhile_cons, if_pos starts] at member
        exact induction apart.tail member
      · rw [List.dropWhile_cons, if_neg starts] at member
        have starts : alphabet.value low < alphabet.value first.low := by simpa using starts
        have upright := apart.upright first (by simp)
        rcases List.mem_cons.mp member with rfl | later
        · exact starts
        · have next := (List.pairwise_cons.mp apart.ascending).1 claim later
          omega

/-- If the last interval that starts below ends below, so do those before it. -/
theorem ends_below_of_floor (apart : Claim.Apart alphabet claims)
    (floor : ∀ other, (claims.takeWhile fun other => alphabet.atMost other.low low).getLast? =
      some other → alphabet.value other.high < alphabet.value low)
    {claim : Claim} (member : claim ∈ claims)
    (starts : alphabet.value claim.low ≤ alphabet.value low) :
    alphabet.value claim.high < alphabet.value low := by
  have before := mem_takeWhile_of_atMost apart member starts
  have ascending := apart.ascending.sublist
    (List.takeWhile_sublist fun other => alphabet.atMost other.low low)
  have uprights : ∀ other ∈ claims.takeWhile (fun other => alphabet.atMost other.low low),
      alphabet.value other.low ≤ alphabet.value other.high :=
    fun other inside => apart.upright other (List.takeWhile_subset _ inside)
  generalize claims.takeWhile (fun other => alphabet.atMost other.low low) = front at *
  cases last : front.getLast? with
  | none =>
      rw [List.getLast?_eq_none_iff.mp last] at before
      cases before
  | some floorClaim =>
      have ends := floor floorClaim last
      rcases List.getLast?_eq_some_iff.mp last with ⟨others, rfl⟩
      have upright := uprights floorClaim (by simp)
      rcases List.mem_append.mp before with earlier | own
      · have next := (List.pairwise_append.mp ascending).2.2 claim earlier floorClaim (by simp)
        omega
      · rw [List.mem_singleton.mp own]
        exact ends

/-- If the first interval that starts above starts behind, so do those after it. -/
theorem starts_behind_of_ceiling (apart : Claim.Apart alphabet claims)
    (ceiling : ∀ other, (claims.find? fun other => alphabet.atLeast other.low low) = some other →
      alphabet.value high < alphabet.value other.low)
    {claim : Claim} (member : claim ∈ claims)
    (starts : alphabet.value low < alphabet.value claim.low) :
    alphabet.value high < alphabet.value claim.low := by
  cases first : claims.find? fun other => alphabet.atLeast other.low low with
  | none =>
      have below := List.find?_eq_none.mp first claim member
      rw [alphabet.atLeast_iff] at below
      omega
  | some ceilingClaim =>
      have behind := ceiling ceilingClaim first
      rcases List.find?_eq_some_iff_append.mp first with ⟨_, before, after, rfl, unfit⟩
      have upright := apart.upright ceilingClaim (by simp)
      rcases List.mem_append.mp member with earlier | later
      · have below := unfit claim earlier
        simp only [Bool.not_eq_true', ← Bool.not_eq_true, alphabet.atLeast_iff] at below
        omega
      · rcases List.mem_cons.mp later with rfl | later
        · exact behind
        · have ascending := (List.pairwise_append.mp apart.ascending).2.1
          have next := (List.pairwise_cons.mp ascending).1 claim later
          omega

/-- Without an obstacle every interval lies on one side. -/
theorem side_of_obstacle (apart : Claim.Apart alphabet claims)
    (free : obstacle alphabet claims low high = none) {claim : Claim} (member : claim ∈ claims) :
    alphabet.value claim.high < alphabet.value low ∨
      alphabet.value high < alphabet.value claim.low := by
  unfold obstacle at free
  rcases Option.or_eq_none_iff.mp free with ⟨floor, ceiling⟩
  rw [Option.filter_eq_none_iff] at floor ceiling
  by_cases starts : alphabet.value claim.low ≤ alphabet.value low
  · exact .inl (ends_below_of_floor apart (by simpa using floor) member starts)
  · exact .inr (starts_behind_of_ceiling apart (by simpa using ceiling) member (by omega))

theorem apart_insertClaim {claim : Claim} (apart : Claim.Apart alphabet claims)
    (upright : alphabet.value claim.low ≤ alphabet.value claim.high)
    (inside : alphabet.value alphabet.low ≤ alphabet.value claim.low ∧
      alphabet.value claim.high ≤ alphabet.value alphabet.high)
    (free : obstacle alphabet claims claim.low claim.high = none) :
    Claim.Apart alphabet (insertClaim alphabet claims claim) where
  upright other member := by
    rcases mem_insertClaim.mp member with rfl | old
    · exact upright
    · exact apart.upright other old
  inside other member := by
    rcases mem_insertClaim.mp member with rfl | old
    · exact inside
    · exact apart.inside other old
  ascending := by
    have split := apart.ascending
    rw [← List.takeWhile_append_dropWhile (l := claims)
      (p := fun other => alphabet.atMost other.low claim.low)] at split
    rcases List.pairwise_append.mp split with ⟨front, back, across⟩
    have before : ∀ other ∈ claims.takeWhile (fun other => alphabet.atMost other.low claim.low),
        alphabet.value other.high < alphabet.value claim.low := by
      intro other member
      have starts : alphabet.value other.low ≤ alphabet.value claim.low := by
        simpa using List.mem_takeWhile_imp member
      have side := side_of_obstacle apart free (List.takeWhile_subset _ member)
      omega
    have behind : ∀ other ∈ claims.dropWhile (fun other => alphabet.atMost other.low claim.low),
        alphabet.value claim.high < alphabet.value other.low := by
      intro other member
      have starts := lt_of_mem_dropWhile apart member
      have old := (List.dropWhile_sublist _).subset member
      have side := side_of_obstacle apart free old
      have otherUpright := apart.upright other old
      omega
    refine List.pairwise_append.mpr ⟨front, List.pairwise_cons.mpr ⟨behind, back⟩, ?_⟩
    intro first isFirst second isSecond
    rcases List.mem_cons.mp isSecond with rfl | later
    · exact before first isFirst
    · exact across first isFirst second later

end Intervals

/-! ## What operations leave of states -/

/-- If all states are good, they are so after the change. -/
def Upholds (good : StateDraft → Prop) (before after : Draft) : Prop :=
  (∀ state ∈ before.states, good state) → ∀ state ∈ after.states, good state

theorem Upholds.trans {good : StateDraft → Prop} {before middle after : Draft}
    (first : Upholds good before middle) (second : Upholds good middle after) :
    Upholds good before after :=
  second ∘ first

theorem Upholds.foldl {good : StateDraft → Prop} {α : Type} {change : Draft → α → Draft}
    (each : ∀ draft value, Upholds good draft (change draft value)) (draft : Draft)
    (values : List α) : Upholds good draft (values.foldl change draft) := by
  induction values generalizing draft with
  | nil => exact id
  | cons value rest induction => exact (each draft value).trans (induction (change draft value))

theorem upholds_of_sameStates {good : StateDraft → Prop} {before after : Draft}
    (same : after.states = before.states) : Upholds good before after :=
  fun all state member => all state (same ▸ member)

section Upheld

variable {alphabet : Alphabet} {known : Branch → Prop}

theorem proper_bare (name : String) : StateDraft.Proper alphabet known (.bare name) where
  claims := ⟨by simp [StateDraft.bare], by simp [StateDraft.bare], .nil⟩
  branches claim member := by cases member
  fallback branch found := by cases found
  eofBranch branch found := by cases found

theorem upholds_declareState (draft : Draft) (name : String) :
    Upholds (StateDraft.Proper alphabet known) draft (draft.declareState name) := by
  unfold declareState
  split
  next => exact id
  next =>
    intro all state member
    rcases Array.mem_push.mp member with old | rfl
    · exact all state old
    · exact proper_bare name

theorem upholds_updateState (draft : Draft) (name : String) {change : StateDraft → StateDraft}
    (keeps : ∀ state ∈ (draft.declareState name).states, state.name = name →
      state.Proper alphabet known → (change state).Proper alphabet known) :
    Upholds (StateDraft.Proper alphabet known) draft (draft.updateState name change) := by
  intro all state member
  have declared := upholds_declareState draft name all
  rcases Array.mem_map.mp member with ⟨old, inside, rfl⟩
  split
  next isNamed => exact keeps old inside (by simpa using isNamed) (declared old inside)
  next => exact declared old inside

theorem upholds_other (draft : Draft) (name : String) {change : StateDraft → StateDraft}
    (same : ∀ state, (change state).claims = state.claims ∧
      (change state).fallback = state.fallback ∧ (change state).eofBranch = state.eofBranch) :
    Upholds (StateDraft.Proper alphabet known) draft (draft.updateState name change) := by
  apply upholds_updateState
  intro state _ _ proper
  rcases same state with ⟨claims, fallback, eofBranch⟩
  exact {
    claims := claims ▸ proper.claims
    branches := claims ▸ proper.branches
    fallback := fallback ▸ proper.fallback
    eofBranch := eofBranch ▸ proper.eofBranch }

theorem states_defineAction (draft : Draft) (action : ActionDraft) :
    (draft.defineAction action).states = draft.states := by
  unfold defineAction
  split
  next => rfl
  next => split <;> rfl

theorem upholds_mentionActions (draft : Draft) (names : List String) :
    Upholds (StateDraft.Proper alphabet known) draft (draft.mentionActions names) := by
  apply Upholds.foldl
  intro draft name
  unfold mentionAction
  split
  next => exact id
  next => exact upholds_of_sameStates (states_defineAction draft _)

theorem upholds_mentionBranch (draft : Draft) (branch : Branch) :
    Upholds (StateDraft.Proper alphabet known) draft (draft.mentionBranch branch) := by
  apply Upholds.foldl
  intro draft outcome
  split
  next => exact upholds_mentionActions draft _
  next => exact (upholds_declareState draft _).trans (upholds_mentionActions _ _)

theorem states_build (draft : Draft) : draft.build.1.states = draft.states := by
  have rejected : ∀ (problems : List GraphError) (draft : Draft),
      (problems.foldl reject draft).states = draft.states := by
    intro problems
    induction problems with
    | nil => exact fun _ => rfl
    | cons problem rest induction => exact fun draft => induction (draft.reject problem)
  have started : (if draft.start.isEmpty then draft.reject .noStart else draft).states =
      draft.states := by
    split <;> rfl
  unfold build
  generalize (if draft.start.isEmpty then draft.reject .noStart else draft) = first at started ⊢
  dsimp only
  split
  next => exact started
  next =>
    split
    next => exact (rejected _ first).trans started
    next => split <;> exact (rejected _ first).trans started

theorem claims_of_declareState {draft : Draft} (distinct : draft.Distinct) {name : String}
    {state : StateDraft} (member : state ∈ (draft.declareState name).states)
    (isNamed : state.name = name) :
    ((draft.findState name).map StateDraft.claims).getD [] = state.claims := by
  unfold declareState at member
  split at member
  next known =>
    rcases Option.isSome_iff_exists.mp known with ⟨hit, found⟩
    have hitName : hit.name = name := by simpa using Array.find?_some found
    rw [found, distinct.eq member (Array.mem_of_find?_eq_some found) (isNamed.trans hitName.symm)]
    rfl
  next unknown =>
    have missing : draft.findState name = none := by simpa using unknown
    rcases Array.mem_push.mp member with old | rfl
    · exact absurd isNamed (findState_eq_none draft unknown state old)
    · rw [missing]
      rfl

theorem upholds_addClaim {draft : Draft} (distinct : draft.Distinct) (state : String)
    (claim : Claim) :
    Upholds (StateDraft.Proper draft.alphabet known) draft (draft.addClaim state claim) := by
  apply (upholds_declareState draft state).trans
  have sameAlphabet := (keeps_declareState (fun _ => True) draft state).alphabet
  have new : Additions := ⟨fun _ _ => False, fun _ _ => False, fun _ => False⟩
  have declaredDistinct := (adds_declareState new draft state).distinct distinct
  rw [← sameAlphabet]
  unfold addClaim
  dsimp only
  generalize draft.declareState state = declared at *
  split
  next => exact upholds_of_sameStates rfl
  next within =>
    have within : declared.alphabet.value claim.low ≤ declared.alphabet.value claim.high ∧
        declared.alphabet.contains claim.low = true ∧
        declared.alphabet.contains claim.high = true := by
      simpa [-Alphabet.contains_iff, and_assoc] using within
    rcases within with ⟨upright, low, high⟩
    rw [Alphabet.contains_iff] at low high
    split
    next => exact upholds_of_sameStates rfl
    next fine =>
      apply (upholds_mentionBranch declared claim.branch).trans
      have mentionedDistinct :=
        (adds_mentionBranch new declared claim.branch).distinct declaredDistinct
      split
      next => exact upholds_of_sameStates rfl
      next free =>
        apply upholds_updateState
        intro other member isNamed proper
        rw [claims_of_declareState mentionedDistinct member isNamed] at free
        exact {
          proper with
          claims := apart_insertClaim proper.claims upright ⟨low.1, high.2⟩ free
          branches := by
            intro added inside
            rcases mem_insertClaim.mp inside with rfl | old
            · exact fine_of_branchProblem fine
            · exact proper.branches added old }

theorem upholds_setFallback (draft : Draft) (state : String) (branch : Branch) :
    Upholds (StateDraft.Proper alphabet known) draft (draft.setFallback state branch) := by
  apply (upholds_declareState draft state).trans
  unfold setFallback
  dsimp only
  split
  next => exact upholds_of_sameStates rfl
  next =>
    split
    next => exact upholds_of_sameStates rfl
    next fine =>
      apply (upholds_mentionBranch _ branch).trans
      apply upholds_updateState
      intro other _ _ proper
      exact { proper with
        fallback := fun _ found => Option.some.inj found ▸ fine_of_branchProblem fine }

theorem upholds_setEofTransition (draft : Draft) (state : String) {target : Target}
    (isKnown : known (.plain target)) :
    Upholds (StateDraft.Proper alphabet known) draft (draft.setEofTransition state target) := by
  apply (upholds_declareState draft state).trans
  apply (upholds_mentionBranch _ (.plain target)).trans
  apply upholds_updateState
  intro other _ _ proper
  exact { proper with
    eofBranch := fun _ found => Option.some.inj found ▸ ⟨⟨target, rfl⟩, isKnown⟩ }

theorem upholds_perform {draft : Draft} (distinct : draft.Distinct) {operation : DraftStep}
    (mentions : ∀ state target, operation = .setEofTransition state target →
      known (.plain target)) :
    Upholds (StateDraft.Proper draft.alphabet known) draft (draft.perform operation) := by
  cases operation with
  | declareState name => exact upholds_declareState draft name
  | setStart name => exact (upholds_declareState draft name).trans (upholds_of_sameStates rfl)
  | markFinal names =>
      apply Upholds.foldl
      intro draft name
      exact upholds_other draft name fun _ => ⟨rfl, rfl, rfl⟩
  | requireError => exact upholds_of_sameStates rfl
  | defineAction action => exact upholds_of_sameStates (states_defineAction draft action)
  | internSpace conditions =>
      apply upholds_of_sameStates
      simp only [perform, internSpace]
      split
      next => rfl
      next => split <;> rfl
  | addClaim state claim => exact upholds_addClaim distinct state claim
  | setFallback state branch => exact upholds_setFallback draft state branch
  | setToState state actions | setFromState state actions | setEofActions state actions =>
      apply (upholds_declareState draft state).trans
      apply (upholds_mentionActions _ actions).trans
      exact upholds_other _ state fun _ => ⟨rfl, rfl, rfl⟩
  | setEofTransition state target =>
      exact upholds_setEofTransition draft state (mentions state target rfl)
  | guardEof state space values =>
      have guarded : Upholds (StateDraft.Proper draft.alphabet known) draft
          (draft.updateState state fun state => { state with eofGuard := some space }) :=
        upholds_other draft state fun _ => ⟨rfl, rfl, rfl⟩
      apply guarded.trans
      apply Upholds.foldl
      intro draft value
      unfold addGuardValue
      split
      next => exact upholds_of_sameStates rfl
      next => exact upholds_other draft state fun _ => ⟨rfl, rfl, rfl⟩
  | unguardEof state => exact upholds_other draft state fun _ => ⟨rfl, rfl, rfl⟩
  | addAlternate state alternate =>
      apply (upholds_declareState draft state).trans
      apply (upholds_declareState _ alternate.state).trans
      apply (upholds_mentionActions _ alternate.push).trans
      apply (upholds_mentionActions _ alternate.popTest).trans
      exact upholds_other _ state fun _ => ⟨rfl, rfl, rfl⟩
  | build => exact upholds_of_sameStates (states_build draft)

end Upheld

theorem Drafted.proper {draft : Draft} (drafted : draft.Drafted) :
    ∀ state ∈ draft.states, state.Proper draft.alphabet draft.Mentions := by
  induction drafted with
  | empty name alphabet =>
      intro state member
      simp [Draft.empty] at member
  | @step draft operation drafted _ induction =>
      rcases drafted.reflects with ⟨_, reflects⟩
      rw [alphabet_perform]
      apply upholds_perform reflects.distinct
      · rintro state target rfl
        exact (mentions_mentionBranch _ _).updateState state fun _ => rfl
      · intro state member
        have proper := induction state member
        exact { proper with
          eofBranch := fun branch found => (proper.eofBranch branch found).imp_right fun mentions =>
            mentions.keep (adds_perform reflects.distinct operation) }

end Draft

theorem StateDraft.Proper.fine {alphabet : Alphabet} {known : Branch → Prop} {state : StateDraft}
    (proper : state.Proper alphabet known) {branch : Branch}
    (inside : branch ∈ Draft.branches state) : branch.Fine := by
  rcases Draft.mem_branches.mp inside with isFallback | atEof | ⟨claim, claimed, rfl⟩
  · exact proper.fallback branch isFallback
  · rcases (proper.eofBranch branch atEof).1 with ⟨target, rfl⟩
    exact .plain target
  · exact proper.branches claim claimed

end StateTables
