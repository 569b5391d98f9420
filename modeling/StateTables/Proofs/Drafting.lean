import StateTables.Graph.Build

/-! # Drafts that come about step by step

Every draft starts out empty and changes by the operations a draft offers. A
condition space is always one that the draft itself made. What holds of an empty
draft and is kept by every operation holds of all drafts: the start state is
declared, condition spaces are numbered by position, and branches are guarded by
condition spaces of the draft.
-/

namespace StateTables

/-- One operation on a draft. -/
inductive DraftStep where
  | declareState (name : String)
  | setStart (name : String)
  | markFinal (names : List String)
  | requireError
  | defineAction (action : ActionDraft)
  | internSpace (conditions : List String)
  | addClaim (state : String) (claim : Claim)
  | setFallback (state : String) (branch : Branch)
  | setToState (state : String) (actions : List String)
  | setFromState (state : String) (actions : List String)
  | setEofActions (state : String) (actions : List String)
  | setEofTransition (state : String) (target : Target)
  | guardEof (state : String) (space : ConditionSpace) (values : List ConditionValue)
  | unguardEof (state : String)
  | addAlternate (state : String) (alternate : AlternateDraft)
  | build
deriving DecidableEq, Repr

namespace Draft

def perform (draft : Draft) : DraftStep → Draft
  | .declareState name => draft.declareState name
  | .setStart name => draft.setStart name
  | .markFinal names => draft.markFinal names
  | .requireError => draft.requireError
  | .defineAction action => draft.defineAction action
  | .internSpace conditions => (draft.internSpace conditions).1
  | .addClaim state claim => draft.addClaim state claim
  | .setFallback state branch => draft.setFallback state branch
  | .setToState state actions => draft.setToState state actions
  | .setFromState state actions => draft.setFromState state actions
  | .setEofActions state actions => draft.setEofActions state actions
  | .setEofTransition state target => draft.setEofTransition state target
  | .guardEof state space values => draft.guardEof state space values
  | .unguardEof state => draft.unguardEof state
  | .addAlternate state alternate => draft.addAlternate state alternate
  | .build => draft.build.1

/-- A branch is guarded by a condition space of the draft, if it is guarded. -/
def Owns (draft : Draft) (branch : Branch) : Prop :=
  ∀ space, branch.space = some space → space ∈ draft.spaces

/-- May the operation be asked of the draft? The condition spaces it names have to be those that
the draft itself has made: a space of another draft says nothing about the spaces of this one. -/
def Admits (draft : Draft) : DraftStep → Prop
  | .addClaim _ claim => draft.Owns claim.branch
  | .setFallback _ branch => draft.Owns branch
  | .guardEof _ space _ => space ∈ draft.spaces
  | _ => True

instance (draft : Draft) (branch : Branch) : Decidable (draft.Owns branch) :=
  match guard : branch.space with
  | none => isTrue fun space found => by cases guard.symm.trans found
  | some space =>
    if member : space ∈ draft.spaces then
      isTrue fun other found => by cases guard.symm.trans found; exact member
    else isFalse fun owns => member (owns space guard)

instance (draft : Draft) : (operation : DraftStep) → Decidable (draft.Admits operation)
  | .addClaim _ claim => inferInstanceAs (Decidable (draft.Owns claim.branch))
  | .setFallback _ branch => inferInstanceAs (Decidable (draft.Owns branch))
  | .guardEof _ space _ => inferInstanceAs (Decidable (space ∈ draft.spaces))
  | .declareState _ | .setStart _ | .markFinal _ | .requireError | .defineAction _
  | .internSpace _ | .setToState .. | .setFromState .. | .setEofActions ..
  | .setEofTransition .. | .unguardEof _ | .addAlternate .. | .build => isTrue trivial

def AdmitsAll (draft : Draft) : List DraftStep → Bool
  | [] => true
  | operation :: rest =>
    decide (draft.Admits operation) && AdmitsAll (draft.perform operation) rest

def branchesBy : DraftStep → List Branch
  | .addClaim _ claim => [claim.branch]
  | .setFallback _ branch => [branch]
  | .setEofTransition _ target => [.plain target]
  | _ => []

theorem Admits.owns {draft : Draft} {operation : DraftStep} (admitted : draft.Admits operation) :
    ∀ branch ∈ branchesBy operation, draft.Owns branch := by
  intro branch asked
  cases operation with
  | addClaim state claim => exact List.mem_singleton.mp asked ▸ admitted
  | setFallback state other => exact List.mem_singleton.mp asked ▸ admitted
  | setEofTransition state target =>
      cases List.mem_singleton.mp asked
      intro space guarded
      simp [Branch.plain] at guarded
  | _ => cases asked

def configures : DraftStep → Bool
  | .setStart _ | .requireError | .internSpace _ => true
  | _ => false

/-- Drafts that come about by operations, which name only condition spaces of their own. -/
inductive Drafted : Draft → Prop
  | empty (name : String) (alphabet : Alphabet) : Drafted (.empty name alphabet)
  | step {draft : Draft} (operation : DraftStep) :
      Drafted draft → draft.Admits operation → Drafted (draft.perform operation)

theorem Drafted.foldl {draft : Draft} (drafted : draft.Drafted) {operations : List DraftStep}
    (admitted : draft.AdmitsAll operations = true) :
    (operations.foldl perform draft).Drafted := by
  induction operations generalizing draft with
  | nil => exact drafted
  | cons operation rest induction =>
      simp only [AdmitsAll, Bool.and_eq_true, decide_eq_true_eq] at admitted
      exact induction (drafted.step operation admitted.1) admitted.2

/-! ## What operations keep -/

/-- A change that makes no condition spaces, forgets no problem and no state, and
adds no branches but those of a kind. -/
structure Keeps (kind : Branch → Prop) (before after : Draft) : Prop where
  alphabet : after.alphabet = before.alphabet
  spaces : after.spaces = before.spaces
  start : after.start = before.start
  required : after.errorRequired = before.errorRequired
  errors : after.errors = [] → before.errors = []
  names : ∀ state ∈ before.states, ∃ kept ∈ after.states, kept.name = state.name
  branches : ∀ state ∈ after.states, ∀ branch ∈ branches state,
    (∃ old ∈ before.states, branch ∈ Draft.branches old) ∨ kind branch

namespace Keeps

variable {kind : Branch → Prop} {before middle after : Draft}

theorem refl (draft : Draft) : Keeps kind draft draft where
  alphabet := rfl
  spaces := rfl
  start := rfl
  required := rfl
  errors := id
  names state member := ⟨state, member, rfl⟩
  branches state member _ inside := .inl ⟨state, member, inside⟩

theorem trans (first : Keeps kind before middle) (second : Keeps kind middle after) :
    Keeps kind before after where
  alphabet := second.alphabet.trans first.alphabet
  spaces := second.spaces.trans first.spaces
  start := second.start.trans first.start
  required := second.required.trans first.required
  errors := first.errors ∘ second.errors
  names state member := by
    rcases first.names state member with ⟨kept, keptMember, keptName⟩
    rcases second.names kept keptMember with ⟨last, lastMember, lastName⟩
    exact ⟨last, lastMember, lastName.trans keptName⟩
  branches state member branch inside := by
    rcases second.branches state member branch inside with ⟨old, oldMember, oldInside⟩ | new
    · exact first.branches old oldMember branch oldInside
    · exact .inr new

theorem foldl {α : Type} {change : Draft → α → Draft}
    (each : ∀ draft value, Keeps kind draft (change draft value)) (draft : Draft)
    (values : List α) : Keeps kind draft (values.foldl change draft) := by
  induction values generalizing draft with
  | nil => exact refl draft
  | cons value rest induction => exact (each draft value).trans (induction (change draft value))

end Keeps

section Changes

variable (kind : Branch → Prop) (draft : Draft)

theorem keeps_of_sameStates {after : Draft} (alphabet : after.alphabet = draft.alphabet)
    (states : after.states = draft.states) (spaces : after.spaces = draft.spaces)
    (start : after.start = draft.start) (required : after.errorRequired = draft.errorRequired)
    (errors : after.errors = [] → draft.errors = []) : Keeps kind draft after where
  alphabet := alphabet
  spaces := spaces
  start := start
  required := required
  errors := errors
  names state member := ⟨state, states ▸ member, rfl⟩
  branches state member _ inside := .inl ⟨state, states ▸ member, inside⟩

theorem keeps_reject (problem : GraphError) : Keeps kind draft (draft.reject problem) :=
  keeps_of_sameStates kind draft rfl rfl rfl rfl rfl (by simp [reject])

theorem branches_bare (name : String) : branches (.bare name) = [] :=
  rfl

theorem keeps_declareState (name : String) : Keeps kind draft (draft.declareState name) := by
  unfold declareState
  split
  next => exact .refl draft
  next =>
    exact {
      alphabet := rfl
      spaces := rfl
      start := rfl
      required := rfl
      errors := id
      names := fun state member => ⟨state, Array.mem_push_of_mem _ member, rfl⟩
      branches := by
        intro state member branch inside
        rcases Array.mem_push.mp member with old | new
        · exact .inl ⟨state, old, inside⟩
        · subst new
          simp [branches_bare] at inside }

theorem exists_of_declareState (name : String) :
    ∃ state ∈ (draft.declareState name).states, state.name = name := by
  unfold declareState
  split
  next known =>
    rcases Option.isSome_iff_exists.mp known with ⟨state, found⟩
    exact ⟨state, Array.mem_of_find?_eq_some found, by simpa using Array.find?_some found⟩
  next => exact ⟨.bare name, Array.mem_push_self, rfl⟩

/-- A change of the draft of a state that keeps its name and its branches, except
that it may add branches of a kind. -/
theorem keeps_updateState (name : String) {change : StateDraft → StateDraft}
    (keepsName : ∀ state, (change state).name = state.name)
    (addsOnly : ∀ state, ∀ branch ∈ branches (change state),
      branch ∈ branches state ∨ kind branch) :
    Keeps kind draft (draft.updateState name change) := by
  refine (keeps_declareState kind draft name).trans ?_
  unfold updateState
  exact {
    alphabet := rfl
    spaces := rfl
    start := rfl
    required := rfl
    errors := id
    names := by
      intro state member
      refine ⟨_, Array.mem_map.mpr ⟨state, member, rfl⟩, ?_⟩
      split
      · exact keepsName state
      · rfl
    branches := by
      intro state member branch inside
      rcases Array.mem_map.mp member with ⟨old, oldMember, rfl⟩
      split at inside
      · rcases addsOnly old branch inside with stays | new
        · exact .inl ⟨old, oldMember, stays⟩
        · exact .inr new
      · exact .inl ⟨old, oldMember, inside⟩ }

theorem keeps_defineAction (action : ActionDraft) :
    Keeps kind draft (draft.defineAction action) := by
  unfold defineAction
  split
  next => exact keeps_reject kind draft _
  next =>
    split
    next => exact keeps_reject kind draft _
    next => exact keeps_of_sameStates kind draft rfl rfl rfl rfl rfl id

theorem keeps_mentionAction (name : String) : Keeps kind draft (draft.mentionAction name) := by
  unfold mentionAction
  split
  next => exact .refl draft
  next => exact keeps_defineAction kind draft _

theorem keeps_mentionActions (names : List String) :
    Keeps kind draft (draft.mentionActions names) :=
  .foldl (keeps_mentionAction kind) draft names

theorem keeps_mentionBranch (branch : Branch) : Keeps kind draft (draft.mentionBranch branch) := by
  apply Keeps.foldl
  intro draft outcome
  split
  next => exact keeps_mentionActions kind draft _
  next => exact (keeps_declareState kind draft _).trans (keeps_mentionActions kind _ _)

theorem mem_branches {state : StateDraft} {branch : Branch} :
    branch ∈ branches state ↔ state.fallback = some branch ∨ state.eofBranch = some branch ∨
      ∃ claim ∈ state.claims, claim.branch = branch := by
  simp [branches, Option.mem_toList]

theorem mem_of_mem_insertClaim {alphabet : Alphabet} {claims : List Claim} {claim member : Claim}
    (inside : member ∈ insertClaim alphabet claims claim) : member = claim ∨ member ∈ claims := by
  unfold insertClaim at inside
  rcases List.mem_append.mp inside with before | behind
  · exact .inr (List.takeWhile_subset _ before)
  · rcases List.mem_cons.mp behind with new | old
    · exact .inl new
    · exact .inr ((List.dropWhile_sublist _).subset old)

theorem keeps_addClaim (state : String) (claim : Claim) (new : kind claim.branch) :
    Keeps kind draft (draft.addClaim state claim) := by
  refine (keeps_declareState kind draft state).trans ?_
  unfold addClaim
  dsimp only
  split
  next => exact keeps_reject kind _ _
  next =>
    split
    next => exact keeps_reject kind _ _
    next =>
      refine (keeps_mentionBranch kind _ claim.branch).trans ?_
      split
      next => exact keeps_reject kind _ _
      next =>
        apply keeps_updateState kind _ state
        · exact fun _ => rfl
        intro old branch inside
        rcases mem_branches.mp inside with fallback | eof | ⟨other, member, same⟩
        · exact .inl (mem_branches.mpr (.inl fallback))
        · exact .inl (mem_branches.mpr (.inr (.inl eof)))
        · rcases mem_of_mem_insertClaim member with added | stays
          · exact .inr (same ▸ added ▸ new)
          · exact .inl (mem_branches.mpr (.inr (.inr ⟨other, stays, same⟩)))

theorem keeps_setFallback (state : String) (branch : Branch) (new : kind branch) :
    Keeps kind draft (draft.setFallback state branch) := by
  refine (keeps_declareState kind draft state).trans ?_
  unfold setFallback
  dsimp only
  split
  next => exact keeps_reject kind _ _
  next =>
    split
    next => exact keeps_reject kind _ _
    next =>
      refine (keeps_mentionBranch kind _ branch).trans ?_
      apply keeps_updateState kind _ state
      · exact fun _ => rfl
      intro old other inside
      rcases mem_branches.mp inside with fallback | rest
      · exact .inr (Option.some.inj fallback ▸ new)
      · exact .inl (mem_branches.mpr (.inr rest))

theorem keeps_setEofTransition (state : String) (target : Target)
    (new : kind (.plain target)) : Keeps kind draft (draft.setEofTransition state target) := by
  refine (keeps_declareState kind draft state).trans ?_
  unfold setEofTransition
  refine (keeps_mentionBranch kind _ (.plain target)).trans ?_
  apply keeps_updateState kind _ state
  · exact fun _ => rfl
  intro old other inside
  rcases mem_branches.mp inside with fallback | eof | claimed
  · exact .inl (mem_branches.mpr (.inl fallback))
  · exact .inr (Option.some.inj eof ▸ new)
  · exact .inl (mem_branches.mpr (.inr (.inr claimed)))

theorem keeps_mentioned {mentioned : Draft} (mentions : Keeps kind draft mentioned)
    (name : String) {change : StateDraft → StateDraft}
    (keepsName : ∀ state, (change state).name = state.name)
    (keepsBranches : ∀ state, branches (change state) = branches state) :
    Keeps kind draft (mentioned.updateState name change) :=
  mentions.trans (keeps_updateState kind mentioned name keepsName fun state _ inside =>
    .inl (keepsBranches state ▸ inside))

theorem keeps_addGuardValue (state : String) (space : ConditionSpace) (value : ConditionValue) :
    Keeps kind draft (draft.addGuardValue state space value) := by
  unfold addGuardValue
  split
  next => exact keeps_reject kind draft _
  next => exact keeps_mentioned kind draft (.refl draft) state (fun _ => rfl) (fun _ => rfl)

theorem keeps_build : Keeps kind draft draft.build.1 := by
  have started : Keeps kind draft
      (if draft.start.isEmpty then draft.reject .noStart else draft) := by
    split
    next => exact keeps_reject kind draft _
    next => exact .refl draft
  unfold build
  generalize (if draft.start.isEmpty then draft.reject .noStart else draft) = first at started ⊢
  have rejected := started.trans (.foldl (keeps_reject kind) first first.unknownTargets)
  dsimp only
  split
  next => exact started
  next =>
    split
    next => exact rejected
    next => split <;> exact rejected

/-- Every other operation keeps what there is and adds the branches it asks for. -/
theorem keeps_perform (operation : DraftStep) (asked : ∀ branch ∈ branchesBy operation, kind branch)
    (plain : configures operation = false) : Keeps kind draft (draft.perform operation) := by
  cases operation with
  | declareState name => exact keeps_declareState _ draft name
  | setStart | requireError | internSpace => cases plain
  | markFinal names =>
      apply Keeps.foldl
      intro draft name
      exact keeps_mentioned _ draft (.refl draft) name (fun _ => rfl) (fun _ => rfl)
  | defineAction action => exact keeps_defineAction _ draft action
  | addClaim state claim => exact keeps_addClaim _ draft state claim (asked _ List.mem_cons_self)
  | setFallback state branch =>
      exact keeps_setFallback _ draft state branch (asked _ List.mem_cons_self)
  | setToState state actions | setFromState state actions | setEofActions state actions =>
      exact keeps_mentioned _ draft ((keeps_declareState _ draft state).trans
        (keeps_mentionActions _ _ actions)) state (fun _ => rfl) (fun _ => rfl)
  | setEofTransition state target =>
      exact keeps_setEofTransition _ draft state target (asked _ List.mem_cons_self)
  | guardEof state space values =>
      have guarded : Keeps kind draft (draft.updateState state fun state =>
          { state with eofGuard := some space }) :=
        keeps_mentioned _ draft (.refl draft) state (fun _ => rfl) (fun _ => rfl)
      exact guarded.trans
        (.foldl (fun draft value => keeps_addGuardValue _ draft state space value) _ values)
  | unguardEof state =>
      exact keeps_mentioned _ draft (.refl draft) state (fun _ => rfl) (fun _ => rfl)
  | addAlternate state alternate =>
      exact keeps_mentioned _ draft ((keeps_declareState _ draft state).trans
        ((keeps_declareState _ _ alternate.state).trans
          ((keeps_mentionActions _ _ alternate.push).trans
            (keeps_mentionActions _ _ alternate.popTest)))) state (fun _ => rfl) (fun _ => rfl)
  | build => exact keeps_build _ draft

end Changes

/-! ## What holds of all drafts -/

theorem alphabet_internSpace (draft : Draft) (conditions : List String) :
    (draft.internSpace conditions).1.alphabet = draft.alphabet := by
  unfold internSpace
  split
  next => rfl
  next => split <;> rfl

theorem alphabet_perform (draft : Draft) (operation : DraftStep) :
    (draft.perform operation).alphabet = draft.alphabet := by
  cases plain : configures operation with
  | false => exact (keeps_perform (fun _ => True) draft operation (by simp) plain).alphabet
  | true =>
      cases operation with
      | setStart name => exact (keeps_declareState (fun _ => True) draft name).alphabet
      | requireError => rfl
      | internSpace conditions => exact alphabet_internSpace draft conditions
      | _ => cases plain

theorem alphabet_foldl {draft : Draft} {operations : List DraftStep}
    (admitted : draft.AdmitsAll operations = true) :
    (operations.foldl perform draft).alphabet = draft.alphabet := by
  induction operations generalizing draft with
  | nil => rfl
  | cons operation rest induction =>
      simp only [AdmitsAll, Bool.and_eq_true, decide_eq_true_eq] at admitted
      exact (induction admitted.2).trans (alphabet_perform draft operation)

/-- A draft whose names and numbers of states and condition spaces mean something. -/
structure Consistent (draft : Draft) : Prop where
  start : draft.start = "" ∨ ∃ state ∈ draft.states, state.name = draft.start
  numbered : ∀ (index : Nat) (space : ConditionSpace),
    draft.spaces[index]? = some space → space.id = index
  sized : draft.errors = [] → ∀ space ∈ draft.spaces, 0 < space.size ∧ space.size ≤ 32
  guarded : ∀ state ∈ draft.states, ∀ branch ∈ branches state, draft.Owns branch

theorem consistent_empty (name : String) (alphabet : Alphabet) :
    Consistent (.empty name alphabet) where
  start := .inl rfl
  numbered index space found := by simp [empty] at found
  sized _ space member := by simp [empty] at member
  guarded state member := by simp [empty] at member

theorem Consistent.inhabited {draft : Draft} (consistent : draft.Consistent)
    (started : draft.start ≠ "") : 0 < draft.states.size := by
  rcases consistent.start with empty | ⟨state, member, _⟩
  · exact absurd empty started
  · exact Array.size_pos_of_mem member

theorem getElem?_id {draft : Draft} (numbered : ∀ (index : Nat) (space : ConditionSpace),
    draft.spaces[index]? = some space → space.id = index) {space : ConditionSpace}
    (member : space ∈ draft.spaces) : draft.spaces[space.id]? = some space := by
  rcases Array.mem_iff_getElem?.mp member with ⟨index, position⟩
  rwa [numbered index space position]

theorem Consistent.getElem?_space {draft : Draft} (consistent : draft.Consistent)
    {state : StateDraft} (declared : state ∈ draft.states) {branch : Branch}
    (inside : branch ∈ branches state) {space : ConditionSpace}
    (guard : branch.space = some space) : draft.spaces[space.id]? = some space :=
  getElem?_id consistent.numbered (consistent.guarded state declared branch inside space guard)

theorem Consistent.keep {draft after : Draft} (consistent : draft.Consistent)
    (keeps : Keeps draft.Owns draft after) : after.Consistent where
  start := by
    rw [keeps.start]
    refine consistent.start.imp id ?_
    intro known
    rcases known with ⟨state, member, name⟩
    rcases keeps.names state member with ⟨kept, keptMember, keptName⟩
    exact ⟨kept, keptMember, keptName.trans name⟩
  numbered := by
    rw [keeps.spaces]
    exact consistent.numbered
  sized := by
    intro noErrors
    rw [keeps.spaces]
    exact consistent.sized (keeps.errors noErrors)
  guarded := by
    intro state member branch inside space guard
    rw [keeps.spaces]
    rcases keeps.branches state member branch inside with ⟨old, oldMember, oldInside⟩ | new
    · exact consistent.guarded old oldMember branch oldInside space guard
    · exact new space guard

theorem Consistent.setStart {draft : Draft} (consistent : draft.Consistent) (name : String) :
    (draft.setStart name).Consistent := by
  have declared := consistent.keep (keeps_declareState draft.Owns draft name)
  exact { declared with start := .inr (exists_of_declareState draft name) }

theorem Consistent.internSpace {draft : Draft} (consistent : draft.Consistent)
    (conditions : List String) : (draft.internSpace conditions).1.Consistent := by
  unfold Draft.internSpace
  split
  next => exact consistent
  next =>
    -- A space of a forbidden size leaves a problem behind.
    have rejected : Consistent (if conditions.length = 0 || 32 < conditions.length then
        draft.reject (.spaceSize conditions.length) else draft) := by
      split
      next => exact consistent.keep (keeps_reject _ draft _)
      next => exact consistent
    have fits : (if conditions.length = 0 || 32 < conditions.length then
        draft.reject (.spaceSize conditions.length) else draft).errors = [] →
        0 < conditions.length ∧ conditions.length ≤ 32 := by
      split
      next => simp [reject]
      next fits =>
        have fits : ¬(conditions.length = 0 ∨ 32 < conditions.length) := by simpa using fits
        exact fun _ => by omega
    generalize (if conditions.length = 0 || 32 < conditions.length then
      draft.reject (.spaceSize conditions.length) else draft) = base at rejected fits ⊢
    exact {
      start := rejected.start
      numbered := by
        intro index space found
        have found : (base.spaces.push ⟨base.spaces.size, conditions⟩)[index]? = some space := found
        rw [Array.getElem?_push] at found
        split at found
        next last =>
          cases found
          exact last.symm
        next => exact rejected.numbered index space found
      sized := by
        intro noErrors space member
        rcases Array.mem_push.mp member with old | new
        · exact rejected.sized noErrors space old
        · subst new
          exact fits noErrors
      guarded := by
        intro state member branch inside space guard
        exact Array.mem_push_of_mem _ (rejected.guarded state member branch inside space guard) }

theorem Drafted.consistent {draft : Draft} (drafted : draft.Drafted) : draft.Consistent := by
  induction drafted with
  | empty name alphabet => exact consistent_empty name alphabet
  | @step draft operation _ admitted consistent =>
      cases plain : configures operation with
      | false => exact consistent.keep (keeps_perform _ draft operation admitted.owns plain)
      | true =>
          cases operation with
          | setStart name => exact consistent.setStart name
          | requireError => exact { consistent with }
          | internSpace conditions => exact consistent.internSpace conditions
          | _ => cases plain

end Draft

end StateTables
