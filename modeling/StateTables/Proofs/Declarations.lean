import Mathlib.Data.List.Nodup
import StateTables.Proofs.Drafting

/-! # What a draft records

A draft without problems has kept everything that was asked of it: every interval that was
claimed for a state, and the fallback that was set. It has nothing else, and all states and
actions it mentions are there.
-/

namespace StateTables

/-- Jumps and calls, and only they, have a target. -/
def ActionDraft.Aimed (action : ActionDraft) : Prop :=
  action.kind.needsTarget = !action.target.isEmpty

namespace Draft

def Distinct (draft : Draft) : Prop :=
  (draft.states.toList.map StateDraft.name).Nodup

theorem Distinct.eq {draft : Draft} (distinct : draft.Distinct) {state other : StateDraft}
    (member : state ∈ draft.states) (otherMember : other ∈ draft.states)
    (same : state.name = other.name) : state = other :=
  List.inj_on_of_nodup_map distinct (by simpa using member) (by simpa using otherMember) same

/-- What a change of a draft may add. -/
structure Additions where
  claim : String → Claim → Prop
  fallback : String → Branch → Prop
  guard : ConditionSpace → Prop

/-- The change forgets no problem, state, claim, fallback or action, and adds no others than
those allowed. -/
structure Adds (new : Additions) (before after : Draft) : Prop where
  errors : after.errors = [] → before.errors = []
  distinct : before.Distinct → after.Distinct
  kept : ∀ state ∈ before.states, ∃ later ∈ after.states, later.name = state.name ∧
    (∀ claim ∈ state.claims, claim ∈ later.claims) ∧
      ∀ branch, state.fallback = some branch → later.fallback = some branch
  claims : ∀ later ∈ after.states, ∀ claim ∈ later.claims,
    (∃ state ∈ before.states, state.name = later.name ∧ claim ∈ state.claims) ∨
      new.claim later.name claim
  fallbacks : ∀ later ∈ after.states, ∀ branch, later.fallback = some branch →
    (∃ state ∈ before.states, state.name = later.name ∧ state.fallback = some branch) ∨
      new.fallback later.name branch
  guards : ∀ later ∈ after.states, ∀ space, later.eofGuard = some space →
    (∃ state ∈ before.states, state.eofGuard = some space) ∨ new.guard space
  actions : ∀ action ∈ before.actions, action ∈ after.actions
  aimed : (∀ action ∈ before.actions, action.Aimed) → ∀ action ∈ after.actions, action.Aimed
  spaces : ∀ space ∈ before.spaces, space ∈ after.spaces

namespace Adds

variable {new : Additions} {before middle after : Draft}

theorem refl (draft : Draft) : Adds new draft draft where
  errors := id
  distinct := id
  kept state member := ⟨state, member, rfl, fun _ => id, fun _ => id⟩
  claims state member _ inside := .inl ⟨state, member, rfl, inside⟩
  fallbacks state member _ found := .inl ⟨state, member, rfl, found⟩
  guards state member _ found := .inl ⟨state, member, found⟩
  actions _ := id
  aimed := id
  spaces _ := id

theorem trans (first : Adds new before middle) (second : Adds new middle after) :
    Adds new before after where
  errors := first.errors ∘ second.errors
  distinct := second.distinct ∘ first.distinct
  kept state member := by
    rcases first.kept state member with ⟨kept, keptMember, keptName, claims, fallback⟩
    rcases second.kept kept keptMember with ⟨last, lastMember, lastName, lastClaims, lastFallback⟩
    exact ⟨last, lastMember, lastName.trans keptName, fun claim inside =>
      lastClaims claim (claims claim inside), fun branch found =>
      lastFallback branch (fallback branch found)⟩
  claims later member claim inside := by
    rcases second.claims later member claim inside with ⟨old, oldMember, name, oldInside⟩ | added
    · rw [← name]
      exact first.claims old oldMember claim oldInside
    · exact .inr added
  fallbacks later member branch found := by
    rcases second.fallbacks later member branch found with ⟨old, oldMember, name, oldFound⟩ | added
    · rw [← name]
      exact first.fallbacks old oldMember branch oldFound
    · exact .inr added
  guards later member space found := by
    rcases second.guards later member space found with ⟨old, oldMember, oldFound⟩ | added
    · exact first.guards old oldMember space oldFound
    · exact .inr added
  actions action member := second.actions action (first.actions action member)
  aimed := second.aimed ∘ first.aimed
  spaces space member := second.spaces space (first.spaces space member)

/-- A row of changes, each of which adds only what is allowed. -/
theorem foldl {α : Type} {change : Draft → α → Draft}
    (each : ∀ draft value, Adds new draft (change draft value)) (draft : Draft)
    (values : List α) : Adds new draft (values.foldl change draft) := by
  induction values generalizing draft with
  | nil => exact refl draft
  | cons value rest induction => exact (each draft value).trans (induction (change draft value))

theorem declared (adds : Adds new before after) {name : String}
    (known : ∃ state ∈ before.states, state.name = name) :
    ∃ state ∈ after.states, state.name = name := by
  rcases known with ⟨state, member, rfl⟩
  rcases adds.kept state member with ⟨later, laterMember, same, _⟩
  exact ⟨later, laterMember, same⟩

theorem defined (adds : Adds new before after) {name : String}
    (known : ∃ action ∈ before.actions, action.name = name) :
    ∃ action ∈ after.actions, action.name = name := by
  rcases known with ⟨action, member, same⟩
  exact ⟨action, adds.actions action member, same⟩

end Adds

/-! ## One change at a time -/

section Changes

variable (new : Additions) (draft : Draft)

theorem adds_of_sameStates {after : Draft} (states : after.states = draft.states)
    (errors : after.errors = [] → draft.errors = [])
    (actions : ∀ action ∈ draft.actions, action ∈ after.actions)
    (aimed : (∀ action ∈ draft.actions, action.Aimed) → ∀ action ∈ after.actions, action.Aimed)
    (spaces : ∀ space ∈ draft.spaces, space ∈ after.spaces) : Adds new draft after where
  errors := errors
  distinct := by
    unfold Distinct
    rw [states]
    exact id
  kept state member := ⟨state, states ▸ member, rfl, fun _ => id, fun _ => id⟩
  claims state member _ inside := .inl ⟨state, states ▸ member, rfl, inside⟩
  fallbacks state member _ found := .inl ⟨state, states ▸ member, rfl, found⟩
  guards state member _ found := .inl ⟨state, states ▸ member, found⟩
  actions := actions
  aimed := aimed
  spaces := spaces

theorem adds_reject (problem : GraphError) : Adds new draft (draft.reject problem) :=
  adds_of_sameStates new draft rfl (by simp [reject]) (fun _ => id) id (fun _ => id)

theorem adds_internSpace (conditions : List String) :
    Adds new draft (draft.internSpace conditions).1 := by
  unfold internSpace
  split
  next => exact .refl draft
  next =>
    have rejected : Adds new draft (if conditions.length = 0 || 32 < conditions.length then
        draft.reject (.spaceSize conditions.length) else draft) := by
      split
      next => exact adds_reject new draft _
      next => exact .refl draft
    exact rejected.trans (adds_of_sameStates new _ rfl id (fun _ => id) id fun _ member =>
      Array.mem_push_of_mem _ member)

theorem findState_eq_none {name : String} (unknown : ¬(draft.findState name).isSome = true) :
    ∀ state ∈ draft.states, state.name ≠ name := by
  intro state member
  have missing : draft.findState name = none := by simpa using unknown
  simpa using Array.find?_eq_none.mp missing state member

theorem adds_declareState (name : String) : Adds new draft (draft.declareState name) := by
  unfold declareState
  split
  next => exact .refl draft
  next unknown =>
    have old : ∀ later ∈ draft.states.push (.bare name), later = .bare name ∨
        later ∈ draft.states := fun later member => (Array.mem_push.mp member).symm
    exact {
      errors := id
      distinct := by
        intro distinct
        have fresh := findState_eq_none draft unknown
        unfold Distinct at distinct ⊢
        simp only [Array.toList_push, List.map_append, List.map_cons, List.map_nil]
        apply List.nodup_append.mpr
        refine ⟨distinct, by simp, ?_⟩
        intro other member last isLast
        rcases List.mem_map.mp member with ⟨state, inside, rfl⟩
        rw [List.mem_singleton.mp isLast]
        exact fresh state (by simpa using inside)
      kept := fun state member =>
        ⟨state, Array.mem_push_of_mem _ member, rfl, fun _ => id, fun _ => id⟩
      claims := by
        intro later member claim inside
        rcases old later member with rfl | stays
        · cases inside
        · exact .inl ⟨later, stays, rfl, inside⟩
      fallbacks := by
        intro later member branch found
        rcases old later member with rfl | stays
        · cases found
        · exact .inl ⟨later, stays, rfl, found⟩
      guards := by
        intro later member space found
        rcases old later member with rfl | stays
        · cases found
        · exact .inl ⟨later, stays, found⟩
      actions := fun _ => id
      aimed := id
      spaces := fun _ => id }

/-- A change of the draft of a state, which forgets nothing and adds what is allowed. -/
structure Revises (name : String) (change : StateDraft → StateDraft) (state : StateDraft) :
    Prop where
  sameName : (change state).name = state.name
  kept : ∀ claim ∈ state.claims, claim ∈ (change state).claims
  keptFallback : ∀ branch, state.fallback = some branch → (change state).fallback = some branch
  claims : ∀ claim ∈ (change state).claims, claim ∈ state.claims ∨ new.claim name claim
  fallbacks : ∀ branch, (change state).fallback = some branch →
    state.fallback = some branch ∨ new.fallback name branch
  guards : ∀ space, (change state).eofGuard = some space →
    state.eofGuard = some space ∨ new.guard space

theorem revises_of_same {name : String} {change : StateDraft → StateDraft} {state : StateDraft}
    (sameName : (change state).name = state.name) (claims : (change state).claims = state.claims)
    (fallback : (change state).fallback = state.fallback)
    (guard : (change state).eofGuard = state.eofGuard) : Revises new name change state where
  sameName := sameName
  kept _ inside := claims.symm ▸ inside
  keptFallback _ found := fallback.trans found
  claims _ inside := .inl (claims ▸ inside)
  fallbacks _ found := .inl (fallback.symm.trans found)
  guards _ found := .inl (guard.symm.trans found)

theorem Revises.congr {name : String} {change other : StateDraft → StateDraft}
    {state : StateDraft} (same : other state = change state)
    (revises : Revises new name change state) : Revises new name other state := by
  rcases revises with ⟨sameName, kept, keptFallback, claims, fallbacks, guards⟩
  rw [← same] at sameName kept keptFallback claims fallbacks guards
  exact ⟨sameName, kept, keptFallback, claims, fallbacks, guards⟩

/-- A change made to the state of one name alone is a change of every state. -/
theorem Revises.ofNamed {name : String} {change : StateDraft → StateDraft} {state : StateDraft}
    (revises : state.name = name → Revises new name change state) :
    Revises new state.name (fun other => if other.name == name then change other else other)
      state := by
  by_cases isNamed : state.name = name
  · rw [isNamed]
    exact (revises isNamed).congr new (if_pos (by simpa using isNamed))
  · have left : (if state.name == name then change state else state) = state :=
      if_neg (by simpa using isNamed)
    exact revises_of_same new (congrArg _ left) (congrArg _ left) (congrArg _ left)
      (congrArg _ left)

theorem adds_updateState (name : String) {change : StateDraft → StateDraft}
    (revises : ∀ state ∈ (draft.declareState name).states, state.name = name →
      Revises new name change state) : Adds new draft (draft.updateState name change) := by
  refine (adds_declareState new draft name).trans ?_
  unfold updateState
  dsimp only
  generalize draft.declareState name = base at revises ⊢
  have revised : ∀ state ∈ base.states, Revises new state.name
      (fun other => if other.name == name then change other else other) state :=
    fun state inside => .ofNamed new (revises state inside)
  generalize (fun other : StateDraft => if other.name == name then change other else other) =
    update at revised ⊢
  exact {
    errors := id
    distinct := by
      intro distinct
      have names : (base.states.map update).toList.map StateDraft.name =
          base.states.toList.map StateDraft.name := by
        rw [Array.toList_map, List.map_map]
        exact List.map_congr_left fun state inside =>
          (revised state (by simpa using inside)).sameName
      unfold Distinct
      exact names ▸ distinct
    kept := fun state inside =>
      have change := revised state inside
      ⟨update state, Array.mem_map_of_mem inside, change.sameName, change.kept,
        change.keptFallback⟩
    claims := by
      intro later member claim found
      rcases Array.mem_map.mp member with ⟨state, inside, rfl⟩
      have change := revised state inside
      rw [change.sameName]
      exact (change.claims claim found).imp (fun old => ⟨state, inside, rfl, old⟩) id
    fallbacks := by
      intro later member branch found
      rcases Array.mem_map.mp member with ⟨state, inside, rfl⟩
      have change := revised state inside
      rw [change.sameName]
      exact (change.fallbacks branch found).imp (fun old => ⟨state, inside, rfl, old⟩) id
    guards := by
      intro later member space found
      rcases Array.mem_map.mp member with ⟨state, inside, rfl⟩
      exact ((revised state inside).guards space found).imp
        (fun old => ⟨state, inside, old⟩) id
    actions := fun _ => id
    aimed := id
    spaces := fun _ => id }

theorem adds_defineAction (action : ActionDraft) :
    Adds new draft (draft.defineAction action) := by
  unfold defineAction
  split
  next => exact adds_reject new draft _
  next =>
    split
    next => exact adds_reject new draft _
    next fits =>
      refine adds_of_sameStates new draft rfl id
        (fun _ member => Array.mem_push_of_mem _ member) ?_ (fun _ => id)
      intro aimed other member
      rcases Array.mem_push.mp member with old | rfl
      · exact aimed other old
      · unfold ActionDraft.Aimed
        cases kind : other.kind.needsTarget <;> cases target : other.target.isEmpty <;>
          simp_all

theorem adds_mentionAction (name : String) : Adds new draft (draft.mentionAction name) := by
  unfold mentionAction
  split
  next => exact .refl draft
  next => exact adds_defineAction new draft _

theorem adds_mentionActions (names : List String) :
    Adds new draft (draft.mentionActions names) :=
  .foldl (adds_mentionAction new) draft names

def mentionOutcome (draft : Draft) (outcome : OutcomeDraft) : Draft :=
  (if outcome.target.state.isEmpty then draft
    else draft.declareState outcome.target.state).mentionActions outcome.target.actions

theorem adds_mentionOutcome (outcome : OutcomeDraft) :
    Adds new draft (draft.mentionOutcome outcome) := by
  unfold mentionOutcome
  split
  next => exact adds_mentionActions new draft _
  next => exact (adds_declareState new draft _).trans (adds_mentionActions new _ _)

theorem adds_mentionBranch (branch : Branch) : Adds new draft (draft.mentionBranch branch) :=
  .foldl (adds_mentionOutcome new) draft branch.outcomes

theorem adds_build : Adds new draft draft.build.1 := by
  have started : Adds new draft
      (if draft.start.isEmpty then draft.reject .noStart else draft) := by
    split
    next => exact adds_reject new draft _
    next => exact .refl draft
  unfold build
  generalize (if draft.start.isEmpty then draft.reject .noStart else draft) = first at started ⊢
  have rejected := started.trans (.foldl (adds_reject new) first first.unknownTargets)
  dsimp only
  split
  next => exact started
  next =>
    split
    next => exact rejected
    next => split <;> exact rejected

theorem adds_mentioned {mentioned : Draft} (mentions : Adds new draft mentioned) (name : String)
    {change : StateDraft → StateDraft} (same : ∀ state, (change state).name = state.name ∧
      (change state).claims = state.claims ∧ (change state).fallback = state.fallback ∧
        (change state).eofGuard = state.eofGuard) :
    Adds new draft (mentioned.updateState name change) := by
  apply mentions.trans
  apply adds_updateState
  intro state _ _
  rcases same state with ⟨sameName, claims, fallback, guard⟩
  exact revises_of_same new sameName claims fallback guard

end Changes

/-! ## Claims and fallbacks -/

theorem mem_insertClaim {alphabet : Alphabet} {claims : List Claim} {claim member : Claim} :
    member ∈ insertClaim alphabet claims claim ↔ member = claim ∨ member ∈ claims := by
  refine ⟨mem_of_mem_insertClaim, ?_⟩
  unfold insertClaim
  rw [List.mem_append, List.mem_cons]
  rintro (isClaim | inside)
  · exact .inr (.inl isClaim)
  · rw [← List.takeWhile_append_dropWhile (l := claims)
      (p := fun other => alphabet.atMost other.low claim.low), List.mem_append] at inside
    exact inside.imp id .inr

section Branches

variable {draft : Draft}

def insertInto (draft : Draft) (state : String) (claim : Claim) : Draft :=
  draft.updateState state fun state =>
    { state with claims := insertClaim draft.alphabet state.claims claim }

/-- An interval is claimed after its branch was mentioned, or a problem is left behind. -/
theorem addClaim_cases (draft : Draft) (state : String) (claim : Claim) :
    (∃ problem mentioned, draft.addClaim state claim = reject mentioned problem ∧
      ∀ new, Adds new draft mentioned) ∨
    draft.addClaim state claim =
      ((draft.declareState state).mentionBranch claim.branch).insertInto state claim := by
  have declared := fun new => adds_declareState new draft state
  have mentioned := fun new => (declared new).trans (adds_mentionBranch new _ claim.branch)
  have alphabet : ((draft.declareState state).mentionBranch claim.branch).alphabet =
      (draft.declareState state).alphabet :=
    (keeps_mentionBranch (fun _ => True) _ claim.branch).alphabet
  unfold addClaim
  dsimp only
  split
  next => exact .inl ⟨_, _, rfl, declared⟩
  next =>
    split
    next => exact .inl ⟨_, _, rfl, declared⟩
    next =>
      split
      next => exact .inl ⟨_, _, rfl, mentioned⟩
      next =>
        unfold insertInto
        rw [alphabet]
        exact .inr rfl

theorem setFallback_cases (draft : Draft) (state : String) (branch : Branch) :
    (∃ problem mentioned, draft.setFallback state branch = reject mentioned problem ∧
      ∀ new, Adds new draft mentioned) ∨
    ((draft.declareState state).findState state).bind StateDraft.fallback = none ∧
      draft.setFallback state branch = ((draft.declareState state).mentionBranch branch).updateState
        state fun state => { state with fallback := some branch } := by
  have declared := fun new => adds_declareState new draft state
  unfold setFallback
  dsimp only
  split
  next => exact .inl ⟨_, _, rfl, declared⟩
  next free =>
    split
    next => exact .inl ⟨_, _, rfl, declared⟩
    next => exact .inr ⟨by simpa using free, rfl⟩

theorem adds_addClaim {new : Additions} {state : String} {claim : Claim}
    (allowed : new.claim state claim) : Adds new draft (draft.addClaim state claim) := by
  rcases addClaim_cases draft state claim with ⟨problem, mentioned, same, adds⟩ | same
  · rw [same]
    exact (adds new).trans (adds_reject new mentioned problem)
  · rw [same]
    apply ((adds_declareState new draft state).trans (adds_mentionBranch new _ _)).trans
    apply adds_updateState
    intro other _ _
    exact {
      sameName := rfl
      kept := fun _ inside => mem_insertClaim.mpr (.inr inside)
      keptFallback := fun _ => id
      claims := fun other inside =>
        (mem_insertClaim.mp inside).symm.imp id fun (same : other = claim) => same ▸ allowed
      fallbacks := fun _ => .inl
      guards := fun _ => .inl }

theorem adds_setFallback (distinct : draft.Distinct) {new : Additions} {state : String}
    {branch : Branch} (allowed : new.fallback state branch) :
    Adds new draft (draft.setFallback state branch) := by
  rcases setFallback_cases draft state branch with ⟨problem, mentioned, same, adds⟩ | ⟨free, same⟩
  · rw [same]
    exact (adds new).trans (adds_reject new mentioned problem)
  rw [same]
  have declared := adds_declareState ⟨fun _ _ => False, fun _ _ => False, fun _ => False⟩ draft
    state
  have mentioned := adds_mentionBranch ⟨fun _ _ => False, fun _ _ => False, fun _ => False⟩
    (draft.declareState state) branch
  apply ((adds_declareState new draft state).trans (adds_mentionBranch new _ _)).trans
  apply adds_updateState
  intro other member isNamed
  -- Neither a declaration nor a mention gives a state a fallback.
  have noFallback : other.fallback = none := by
    cases found : other.fallback with
    | none => rfl
    | some old =>
        rcases (mentioned.trans (adds_declareState _ _ state)).fallbacks other member old found with
          ⟨source, sourceMember, sameName, sourceFound⟩ | impossible
        · rcases exists_of_declareState draft state with ⟨first, firstMember, firstName⟩
          have known : ((draft.declareState state).findState state).isSome = true := by
            unfold findState
            exact Array.find?_isSome.mpr ⟨first, firstMember, by simpa using firstName⟩
          rcases Option.isSome_iff_exists.mp known with ⟨hit, hitFound⟩
          have hitName : hit.name = state := by simpa using Array.find?_some hitFound
          have same : source = hit := (declared.distinct distinct).eq sourceMember
            (Array.mem_of_find?_eq_some hitFound) (sameName.trans (isNamed.trans hitName.symm))
          rw [hitFound, ← same, Option.bind_some, sourceFound] at free
          cases free
        · cases impossible
  exact {
    sameName := rfl
    kept := fun _ => id
    keptFallback := fun _ found => by cases noFallback.symm.trans found
    claims := fun _ => .inl
    fallbacks := fun _ found => .inr (Option.some.inj found ▸ allowed)
    guards := fun _ => .inl }

end Branches

/-! ## Operations -/

/-- What an operation may add to a draft. -/
def additionsOf (operation : DraftStep) : Additions where
  claim state claim := operation = .addClaim state claim
  fallback state branch := operation = .setFallback state branch
  guard space := ∃ state values, operation = .guardEof state space values

theorem adds_addGuardValue (new : Additions) (draft : Draft) (state : String)
    (space : ConditionSpace) (value : ConditionValue) :
    Adds new draft (draft.addGuardValue state space value) := by
  unfold addGuardValue
  split
  next => exact adds_reject new draft _
  next => exact adds_mentioned new draft (.refl draft) state fun _ => ⟨rfl, rfl, rfl, rfl⟩

theorem adds_perform {draft : Draft} (distinct : draft.Distinct) (operation : DraftStep) :
    Adds (additionsOf operation) draft (draft.perform operation) := by
  cases operation with
  | declareState name => exact adds_declareState _ draft name
  | setStart name =>
      exact (adds_declareState _ draft name).trans
        (adds_of_sameStates _ _ rfl id (fun _ => id) id fun _ => id)
  | markFinal names =>
      apply Adds.foldl
      intro draft name
      exact adds_mentioned _ draft (.refl draft) name fun _ => ⟨rfl, rfl, rfl, rfl⟩
  | requireError => exact adds_of_sameStates _ _ rfl id (fun _ => id) id fun _ => id
  | defineAction action => exact adds_defineAction _ draft action
  | internSpace conditions => exact adds_internSpace _ draft conditions
  | addClaim state claim => exact adds_addClaim rfl
  | setFallback state branch => exact adds_setFallback distinct rfl
  | setToState state actions | setFromState state actions | setEofActions state actions =>
      exact adds_mentioned _ draft ((adds_declareState _ draft state).trans
        (adds_mentionActions _ _ actions)) state fun _ => ⟨rfl, rfl, rfl, rfl⟩
  | setEofTransition state target =>
      exact adds_mentioned _ draft ((adds_declareState _ draft state).trans
        (adds_mentionBranch _ _ _)) state fun _ => ⟨rfl, rfl, rfl, rfl⟩
  | guardEof state space values =>
      refine Adds.trans ?_ (.foldl (fun draft value =>
        adds_addGuardValue _ draft state space value) _ values)
      apply adds_updateState
      intro other _ _
      exact {
        sameName := rfl
        kept := fun _ => id
        keptFallback := fun _ => id
        claims := fun _ => .inl
        fallbacks := fun _ => .inl
        guards := fun _ found => .inr ⟨state, values, Option.some.inj found ▸ rfl⟩ }
  | unguardEof state =>
      apply adds_updateState
      intro other _ _
      exact {
        sameName := rfl
        kept := fun _ => id
        keptFallback := fun _ => id
        claims := fun _ => .inl
        fallbacks := fun _ => .inl
        guards := fun _ found => by cases found }
  | addAlternate state alternate =>
      exact adds_mentioned _ draft ((adds_declareState _ draft state).trans
        ((adds_declareState _ _ alternate.state).trans
          ((adds_mentionActions _ _ alternate.push).trans
            (adds_mentionActions _ _ alternate.popTest)))) state fun _ => ⟨rfl, rfl, rfl, rfl⟩
  | build => exact adds_build _ draft

/-! ## Mentions -/

def MentionsOutcome (draft : Draft) (outcome : OutcomeDraft) : Prop :=
  (outcome.target.state.isEmpty = false →
    ∃ state ∈ draft.states, state.name = outcome.target.state) ∧
  ∀ name ∈ outcome.target.actions, ∃ action ∈ draft.actions, action.name = name

def Mentions (draft : Draft) (branch : Branch) : Prop :=
  ∀ outcome ∈ branch.outcomes, draft.MentionsOutcome outcome

theorem MentionsOutcome.keep {new : Additions} {before after : Draft}
    (adds : Adds new before after) {outcome : OutcomeDraft}
    (mentions : before.MentionsOutcome outcome) : after.MentionsOutcome outcome :=
  ⟨fun named => adds.declared (mentions.1 named), fun name inside =>
    adds.defined (mentions.2 name inside)⟩

theorem Mentions.keep {new : Additions} {before after : Draft} (adds : Adds new before after)
    {branch : Branch} (mentions : before.Mentions branch) : after.Mentions branch :=
  fun outcome member => (mentions outcome member).keep adds

theorem exists_of_updateState {draft : Draft} {name : String}
    (known : ∃ state ∈ draft.states, state.name = name) (other : String)
    {change : StateDraft → StateDraft} (sameName : ∀ state, (change state).name = state.name) :
    ∃ state ∈ (draft.updateState other change).states, state.name = name := by
  rcases (adds_declareState (additionsOf .build) draft other).declared known with
    ⟨state, inside, isNamed⟩
  refine ⟨_, Array.mem_map.mpr ⟨state, inside, rfl⟩, ?_⟩
  split
  next => exact (sameName state).trans isNamed
  next => exact isNamed

theorem Mentions.updateState {draft : Draft} {branch : Branch} (mentions : draft.Mentions branch)
    (name : String) {change : StateDraft → StateDraft}
    (sameName : ∀ state, (change state).name = state.name) :
    (draft.updateState name change).Mentions branch := by
  have declared := mentions.keep (adds_declareState (additionsOf .build) draft name)
  intro outcome member
  exact ⟨fun named => exists_of_updateState ((mentions outcome member).1 named) name sameName,
    (declared outcome member).2⟩

theorem exists_of_mentionAction (draft : Draft) (name : String) :
    ∃ action ∈ (draft.mentionAction name).actions, action.name = name := by
  unfold mentionAction
  split
  next known =>
    rcases Option.isSome_iff_exists.mp known with ⟨action, found⟩
    exact ⟨action, Array.mem_of_find?_eq_some found, by simpa using Array.find?_some found⟩
  next unknown =>
    refine ⟨⟨name, .hook, "", ""⟩, ?_, rfl⟩
    unfold defineHook defineAction
    rw [if_neg unknown, if_neg (fun impossible => by cases impossible)]
    exact Array.mem_push_self

/-- What a change of a row of changes brings about stays, if none of them forgets it. -/
theorem exists_of_foldl {α : Type} {change : Draft → α → Draft} (property : Draft → α → Prop)
    (brings : ∀ draft value, property (change draft value) value)
    (keeps : ∀ draft value other, property draft other → property (change draft value) other)
    (draft : Draft) {values : List α} {value : α} (member : value ∈ values) :
    property (values.foldl change draft) value := by
  have stays : ∀ (rest : List α) (draft : Draft), property draft value →
      property (rest.foldl change draft) value := by
    intro rest
    induction rest with
    | nil => exact fun _ => id
    | cons head tail induction =>
        exact fun draft holds => induction _ (keeps draft head value holds)
  induction values generalizing draft with
  | nil => cases member
  | cons head tail induction =>
      rcases List.mem_cons.mp member with rfl | later
      · exact stays tail _ (brings draft value)
      · exact induction (change draft head) later

theorem exists_of_mentionActions (draft : Draft) {names : List String} {name : String}
    (member : name ∈ names) :
    ∃ action ∈ (draft.mentionActions names).actions, action.name = name := by
  apply exists_of_foldl (fun draft name => ∃ action ∈ draft.actions, action.name = name)
    exists_of_mentionAction _ draft member
  intro draft name other
  exact (adds_mentionAction (additionsOf .build) draft name).defined

theorem mentions_mentionBranch (draft : Draft) (branch : Branch) :
    (draft.mentionBranch branch).Mentions branch := by
  intro outcome member
  apply exists_of_foldl MentionsOutcome _ _ draft member
  · intro draft outcome
    refine ⟨fun named => ?_, fun name => exists_of_mentionActions _⟩
    rw [if_neg (by simp [named])]
    exact (adds_mentionActions (additionsOf .build) _ _).declared (exists_of_declareState draft _)
  · intro draft value other mentions
    exact mentions.keep (adds_mentionOutcome (additionsOf .build) draft value)

/-! ## The draft after some operations -/

/-- The names of the states a branch leads to. The empty name stands for the error state, which
is not declared. -/
def targets (branch : Branch) : List String :=
  (branch.outcomes.map fun outcome => outcome.target.state).filter fun name => !name.isEmpty

def declaredBy : DraftStep → List String
  | .declareState name | .setStart name | .unguardEof name => [name]
  | .markFinal names => names
  | .addClaim state claim => state :: targets claim.branch
  | .setFallback state branch => state :: targets branch
  | .setToState state _ | .setFromState state _ | .setEofActions state _ => [state]
  | .setEofTransition state target => state :: targets (.plain target)
  | .guardEof state _ _ => [state]
  | .addAlternate state alternate => [state, alternate.state]
  | .requireError | .defineAction _ | .internSpace _ | .build => []

def Leads (state : StateDraft) (branch : Branch) : Prop :=
  (∃ claim ∈ state.claims, claim.branch = branch) ∨ state.fallback = some branch

/-- The draft is what some operations have made. -/
structure Reflects (operations : List DraftStep) (draft : Draft) : Prop where
  distinct : draft.Distinct
  claims : ∀ state ∈ draft.states, ∀ claim ∈ state.claims, .addClaim state.name claim ∈ operations
  fallbacks : ∀ state ∈ draft.states, ∀ branch, state.fallback = some branch →
    .setFallback state.name branch ∈ operations
  guards : ∀ state ∈ draft.states, ∀ space, state.eofGuard = some space → space ∈ draft.spaces
  aimed : ∀ action ∈ draft.actions, action.Aimed
  declared : draft.errors = [] → ∀ operation ∈ operations, ∀ name ∈ declaredBy operation,
    ∃ state ∈ draft.states, state.name = name
  claimed : draft.errors = [] → ∀ name claim, .addClaim name claim ∈ operations →
    ∃ state ∈ draft.states, state.name = name ∧ claim ∈ state.claims
  set : draft.errors = [] → ∀ name branch, .setFallback name branch ∈ operations →
    ∃ state ∈ draft.states, state.name = name ∧ state.fallback = some branch
  mentioned : draft.errors = [] → ∀ state ∈ draft.states, ∀ branch, Leads state branch →
    draft.Mentions branch

theorem reflects_empty (name : String) (alphabet : Alphabet) :
    Reflects [] (.empty name alphabet) where
  distinct := List.nodup_nil
  claims state member := by simp [empty] at member
  fallbacks state member := by simp [empty] at member
  guards state member := by simp [empty] at member
  aimed action member := by simp [empty] at member
  declared _ operation member := by simp at member
  claimed _ name claim asked := by simp at asked
  set _ name branch asked := by simp at asked
  mentioned _ state member := by simp [empty] at member

section Performing

variable {draft : Draft}

theorem errors_reject_ne_nil (problem : GraphError) : (draft.reject problem).errors ≠ [] := by
  simp [reject]

theorem mem_updateState (draft : Draft) (name : String) (change : StateDraft → StateDraft) :
    ∃ state, state.name = name ∧ change state ∈ (draft.updateState name change).states := by
  rcases exists_of_declareState draft name with ⟨state, member, isNamed⟩
  exact ⟨state, isNamed, Array.mem_map.mpr ⟨state, member, if_pos (by simpa using isNamed)⟩⟩

theorem claimed_addClaim {name : String} {claim : Claim}
    (noErrors : (draft.addClaim name claim).errors = []) :
    (∃ state ∈ (draft.addClaim name claim).states, state.name = name ∧ claim ∈ state.claims) ∧
      (draft.addClaim name claim).Mentions claim.branch := by
  rcases addClaim_cases draft name claim with ⟨problem, mentioned, same, _⟩ | same
  · rw [same] at noErrors
    exact absurd noErrors (errors_reject_ne_nil problem)
  rw [same]
  constructor
  · rcases mem_updateState ((draft.declareState name).mentionBranch claim.branch) name
      (fun state => { state with claims := insertClaim _ state.claims claim }) with
      ⟨state, isNamed, member⟩
    exact ⟨_, member, isNamed, mem_insertClaim.mpr (.inl rfl)⟩
  · exact (mentions_mentionBranch _ claim.branch).updateState name fun _ => rfl

theorem set_setFallback {name : String} {branch : Branch}
    (noErrors : (draft.setFallback name branch).errors = []) :
    (∃ state ∈ (draft.setFallback name branch).states,
        state.name = name ∧ state.fallback = some branch) ∧
      (draft.setFallback name branch).Mentions branch := by
  rcases setFallback_cases draft name branch with ⟨problem, mentioned, same, _⟩ | ⟨_, same⟩
  · rw [same] at noErrors
    exact absurd noErrors (errors_reject_ne_nil problem)
  rw [same]
  constructor
  · rcases mem_updateState ((draft.declareState name).mentionBranch branch) name
      (fun state => { state with fallback := some branch }) with ⟨state, isNamed, member⟩
    exact ⟨_, member, isNamed, rfl⟩
  · exact (mentions_mentionBranch _ branch).updateState name fun _ => rfl

theorem declared_updateState (draft : Draft) (name : String) {change : StateDraft → StateDraft}
    (sameName : ∀ state, (change state).name = state.name) :
    ∃ state ∈ (draft.updateState name change).states, state.name = name := by
  rcases mem_updateState draft name change with ⟨state, isNamed, member⟩
  exact ⟨change state, member, (sameName state).trans isNamed⟩

theorem Mentions.declared {branch : Branch} (mentions : draft.Mentions branch) {name : String}
    (inside : name ∈ targets branch) : ∃ state ∈ draft.states, state.name = name := by
  rcases List.mem_filter.mp inside with ⟨member, named⟩
  rcases List.mem_map.mp member with ⟨outcome, outcomeMember, rfl⟩
  exact (mentions outcome outcomeMember).1 (by simpa using named)

theorem declared_perform {operation : DraftStep}
    (noErrors : (draft.perform operation).errors = []) {name : String}
    (asked : name ∈ declaredBy operation) :
    ∃ state ∈ (draft.perform operation).states, state.name = name := by
  cases operation with
  | declareState other | setStart other =>
      cases List.mem_singleton.mp asked
      exact exists_of_declareState draft name
  | markFinal names =>
      apply exists_of_foldl (fun draft name => ∃ state ∈ draft.states, state.name = name) _ _
        draft asked
      · exact fun draft name => declared_updateState draft name fun _ => rfl
      · exact fun draft name _ known => exists_of_updateState known name fun _ => rfl
  | requireError | defineAction | internSpace | build => cases asked
  | addClaim state claim =>
      rcases claimed_addClaim noErrors with ⟨⟨found, member, isNamed, _⟩, mentions⟩
      rcases List.mem_cons.mp asked with rfl | target
      · exact ⟨found, member, isNamed⟩
      · exact mentions.declared target
  | setFallback state branch =>
      rcases set_setFallback noErrors with ⟨⟨found, member, isNamed, _⟩, mentions⟩
      rcases List.mem_cons.mp asked with rfl | target
      · exact ⟨found, member, isNamed⟩
      · exact mentions.declared target
  | setToState state actions | setFromState state actions | setEofActions state actions
  | unguardEof state =>
      cases List.mem_singleton.mp asked
      exact declared_updateState _ name fun _ => rfl
  | setEofTransition state target =>
      rcases List.mem_cons.mp asked with rfl | leads
      · exact declared_updateState _ name fun _ => rfl
      · apply exists_of_updateState
        · exact (mentions_mentionBranch _ (.plain target)).declared leads
        · exact fun _ => rfl
  | guardEof state space values =>
      cases List.mem_singleton.mp asked
      exact (Adds.foldl (fun draft value => adds_addGuardValue (additionsOf .build) draft name space
        value) _ values).declared (declared_updateState _ name fun _ => rfl)
  | addAlternate state alternate =>
      rcases List.mem_cons.mp asked with rfl | other
      · exact declared_updateState _ name fun _ => rfl
      · cases List.mem_singleton.mp other
        apply exists_of_updateState
        · exact ((adds_mentionActions (additionsOf .build) _ _).trans
            (adds_mentionActions _ _ _)).declared (exists_of_declareState _ alternate.state)
        · exact fun _ => rfl

theorem Reflects.perform {operations : List DraftStep} (reflects : Reflects operations draft)
    {operation : DraftStep} (admitted : draft.Admits operation) :
    Reflects (operations ++ [operation]) (draft.perform operation) := by
  have adds := adds_perform reflects.distinct operation
  have claimed : (draft.perform operation).errors = [] → ∀ name claim,
      operation = .addClaim name claim →
        (∃ state ∈ (draft.perform operation).states, state.name = name ∧ claim ∈ state.claims) ∧
          (draft.perform operation).Mentions claim.branch := by
    rintro noErrors name claim rfl
    exact claimed_addClaim noErrors
  have set : (draft.perform operation).errors = [] → ∀ name branch,
      operation = .setFallback name branch →
        (∃ state ∈ (draft.perform operation).states,
          state.name = name ∧ state.fallback = some branch) ∧
          (draft.perform operation).Mentions branch := by
    rintro noErrors name branch rfl
    exact set_setFallback noErrors
  exact {
    distinct := adds.distinct reflects.distinct
    claims := by
      intro state member claim inside
      rcases adds.claims state member claim inside with ⟨old, oldMember, same, oldInside⟩ | added
      · rw [← same]
        exact List.mem_append_left _ (reflects.claims old oldMember claim oldInside)
      · exact List.mem_append_right _ (List.mem_singleton.mpr added.symm)
    fallbacks := by
      intro state member branch found
      rcases adds.fallbacks state member branch found with ⟨old, oldMember, same, oldFound⟩ | added
      · rw [← same]
        exact List.mem_append_left _ (reflects.fallbacks old oldMember branch oldFound)
      · exact List.mem_append_right _ (List.mem_singleton.mpr added.symm)
    guards := by
      intro state member space found
      rcases adds.guards state member space found with ⟨old, oldMember, oldFound⟩ | added
      · exact adds.spaces space (reflects.guards old oldMember space oldFound)
      · rcases added with ⟨name, values, rfl⟩
        exact adds.spaces space admitted
    aimed := adds.aimed reflects.aimed
    declared := by
      intro noErrors other member name asked
      rcases List.mem_append.mp member with before | last
      · exact adds.declared (reflects.declared (adds.errors noErrors) other before name asked)
      · cases List.mem_singleton.mp last
        exact declared_perform noErrors asked
    claimed := by
      intro noErrors name claim asked
      rcases List.mem_append.mp asked with before | last
      · rcases reflects.claimed (adds.errors noErrors) name claim before with
          ⟨state, member, isNamed, inside⟩
        rcases adds.kept state member with ⟨later, laterMember, sameName, claims, _⟩
        exact ⟨later, laterMember, sameName.trans isNamed, claims claim inside⟩
      · exact (claimed noErrors name claim (by simpa [eq_comm] using last)).1
    set := by
      intro noErrors name branch asked
      rcases List.mem_append.mp asked with before | last
      · rcases reflects.set (adds.errors noErrors) name branch before with
          ⟨state, member, isNamed, found⟩
        rcases adds.kept state member with ⟨later, laterMember, sameName, _, fallback⟩
        exact ⟨later, laterMember, sameName.trans isNamed, fallback branch found⟩
      · exact (set noErrors name branch (by simpa [eq_comm] using last)).1
    mentioned := by
      intro noErrors state member branch leads
      have old := reflects.mentioned (adds.errors noErrors)
      rcases leads with ⟨claim, inside, rfl⟩ | found
      · rcases adds.claims state member claim inside with ⟨source, sourceMember, _, owned⟩ | added
        · exact (old source sourceMember _ (.inl ⟨claim, owned, rfl⟩)).keep adds
        · exact (claimed noErrors _ claim added).2
      · rcases adds.fallbacks state member branch found with
          ⟨source, sourceMember, _, owned⟩ | added
        · exact (old source sourceMember _ (.inr owned)).keep adds
        · exact (set noErrors _ branch added).2 }

theorem Reflects.foldl {operations later : List DraftStep} (reflects : Reflects operations draft)
    (admitted : draft.AdmitsAll later = true) :
    Reflects (operations ++ later) (later.foldl Draft.perform draft) := by
  induction later generalizing operations draft with
  | nil => simpa using reflects
  | cons operation rest induction =>
      simp only [AdmitsAll, Bool.and_eq_true, decide_eq_true_eq] at admitted
      simpa using induction (reflects.perform admitted.1) admitted.2

theorem Drafted.reflects (drafted : draft.Drafted) : ∃ operations, Reflects operations draft := by
  induction drafted with
  | empty name alphabet => exact ⟨[], reflects_empty name alphabet⟩
  | step operation _ admitted induction =>
      rcases induction with ⟨operations, reflects⟩
      exact ⟨operations ++ [operation], reflects.perform admitted⟩

end Performing

end Draft

end StateTables
