import Mathlib.Data.List.Forall2
import StateTables.Proofs.Declarations
import StateTables.Proofs.Validity

/-! # Graphs mean what was declared

A graph that was built answers every key of every declared state with what was declared for it:
the branch of the interval that contains the key, else the fallback of the state, else the way
into the error state. On the way from the operations to the graph, names become numbers, equal
parts are shared, and duplicates are merged; an action stands for all later ones that do the
same.
-/

namespace StateTables

/-- The actions do the same. Without code an action is what its name says. -/
def Action.Same (left right : Action) : Prop :=
  left.kind = right.kind ∧ left.target = right.target ∧ left.code = right.code ∧
    (left.code = "" → left.name = right.name)

instance (left right : Action) : Decidable (left.Same right) :=
  inferInstanceAs (Decidable (_ ∧ _ ∧ _ ∧ _))

def Claim.Holds (alphabet : Alphabet) (claim : Claim) (key : Key) : Prop :=
  alphabet.atMost claim.low key = true ∧ alphabet.atMost key claim.high = true

theorem Claim.holds_iff {alphabet : Alphabet} {claim : Claim} {key : Key} :
    claim.Holds alphabet key ↔ alphabet.value claim.low ≤ alphabet.value key ∧
      alphabet.value key ≤ alphabet.value claim.high := by
  simp [Claim.Holds]

namespace Graph

/-- Actions with the same fingerprint do the same. -/
def TellsApart (graph : Graph) : Prop :=
  ∀ left ∈ graph.actions, ∀ right ∈ graph.actions,
    fingerprint left = fingerprint right → left.Same right

/-- The number is that of the first action that does the same as the one with the name. -/
def StandsIn (graph : Graph) (name : String) (number : Nat) : Prop :=
  ∃ action first, graph.findAction name = some action ∧ graph.actions[number]? = some first ∧
    first.Same action ∧ ∀ (earlier : Nat) (other : Action), earlier < number →
      graph.actions[earlier]? = some other → ¬other.Same action

/-- The list consists of the named actions; without actions there is none. -/
def Performs (graph : Graph) (names : List String) : Option Nat → Prop
  | none => names = []
  | some number => names ≠ [] ∧ ∃ list, graph.lists[number]? = some list ∧
      List.Forall₂ graph.StandsIn names list.actions

/-- The number is that of the only declared state with the name. -/
def DeclaredAt (graph : Graph) (name : String) (id : Nat) : Prop :=
  ∀ other, other = id ↔
    ∃ state, graph.states[other]? = some state ∧ state.isError = false ∧ state.name = name

/-- The number is that of the state a target names. -/
def AimsAt (graph : Graph) (name : String) (id : Nat) : Prop :=
  if name.isEmpty then graph.error = some id else graph.DeclaredAt name id

/-- The transition is what a branch declares: it has its condition space, an outcome for each
of its values, and no others. -/
def Realizes (graph : Graph) (branch : Branch) (number : Nat) : Prop :=
  ∃ transition, graph.transitions[number]? = some transition ∧
    transition.space = branch.space.map ConditionSpace.id ∧
    (∀ space, branch.space = some space → graph.spaces[space.id]? = some space) ∧
    (∀ outcome ∈ branch.outcomes, ∃ condition target,
      transition.lookup outcome.value = some condition ∧
      graph.conditions[condition]? = some target ∧
      graph.AimsAt outcome.target.state target.target ∧
      graph.Performs outcome.target.actions target.actions) ∧
    ∀ value, (∀ outcome ∈ branch.outcomes, outcome.value ≠ value) →
      transition.lookup value = none

/-- The transition is the one operations ask for on a key in a state. -/
structure Obeys (graph : Graph) (operations : List DraftStep) (state : String) (key : Key)
    (number : Nat) : Prop where
  claimed : ∀ claim, .addClaim state claim ∈ operations → claim.Holds graph.alphabet key →
    graph.Realizes claim.branch number
  fallback : (∀ claim, .addClaim state claim ∈ operations → ¬claim.Holds graph.alphabet key) →
    ∀ branch, .setFallback state branch ∈ operations → graph.Realizes branch number
  missing : (∀ claim, .addClaim state claim ∈ operations → ¬claim.Holds graph.alphabet key) →
    (∀ branch, .setFallback state branch ∉ operations) → graph.errorTransition = some number

/-! ## Actions that stand for others -/

end Graph

theorem Action.Same.fingerprint_eq {left right : Action} (same : left.Same right) :
    Graph.fingerprint left = Graph.fingerprint right := by
  rcases same with ⟨kind, target, code, name⟩
  unfold Graph.fingerprint
  rw [kind, target, code]
  by_cases empty : left.code = ""
  · rw [name empty]
  · simp [← code, empty]

namespace Graph

variable {graph : Graph}

theorem standsIn_canonicalAction (apart : graph.TellsApart) {name : String} {number : Nat}
    (found : (graph.actions.findIdx? fun action => action.name == name) = some number) :
    graph.StandsIn name (graph.canonicalAction number) := by
  rcases Array.findIdx?_eq_some_iff_getElem.mp found with ⟨inside, isNamed, others⟩
  have stored := Array.getElem?_eq_getElem inside
  have isFound : graph.findAction name = some graph.actions[number] :=
    Array.find?_eq_some_iff_getElem.mpr
      ⟨isNamed, number, inside, rfl, fun earlier before => by simpa using others earlier before⟩
  cases first : graph.actions.findIdx? fun other =>
      fingerprint other = fingerprint graph.actions[number] with
  | none =>
      have unequal := Array.findIdx?_eq_none_iff.mp first graph.actions[number]
        (Array.getElem_mem inside)
      simp at unequal
  | some position =>
      -- Fingerprints are equal only of actions that do the same, and of all of those.
      rcases Array.findIdx?_eq_some_iff_getElem.mp first with ⟨positionInside, same, before⟩
      have canonical : graph.canonicalAction number = position := by
        simp only [canonicalAction, stored, first, Option.getD_some]
      rw [canonical]
      have alike := apart _ (Array.getElem_mem positionInside) _ (Array.getElem_mem inside)
        (by simpa using same)
      refine ⟨_, _, isFound, Array.getElem?_eq_getElem positionInside, alike, ?_⟩
      intro earlier other earlierBefore otherStored alike
      rcases Array.getElem?_eq_some_iff.mp otherStored with ⟨_, rfl⟩
      exact before earlier earlierBefore (by simpa using alike.fingerprint_eq)

/-! ## States after merging -/

theorem DeclaredAt.mergeDuplicates {name : String} {id : Nat}
    (declared : graph.DeclaredAt name id) : graph.mergeDuplicates.DeclaredAt name id := by
  intro other
  rw [declared other, mergeDuplicates_eq]
  simp [mergeState]

theorem Wired.exists_locate (wired : graph.Wired) (valid : graph.Valid) {id : Nat}
    (inside : id < graph.states.size) {key : Key} (contained : graph.alphabet.contains key = true) :
    ∃ number < graph.transitions.size, graph.locate id key = some number := by
  have member := Array.getElem_mem inside
  have ordered := valid.states _ member
  rcases State.exists_locate ordered (wired.covers _ member) contained with ⟨number, located⟩
  refine ⟨number, State.locate_lt (wired.linked.states _ member) ordered located, ?_⟩
  simp only [locate, Array.getElem?_eq_getElem inside, located]

end Graph

namespace Draft

variable {draft : Draft}

/-! ## Numbers of states -/

theorem numbered_perm (draft : Draft) : draft.numbered.Perm draft.states.toList :=
  List.perm_append_comm.trans (List.filter_append_perm _ _)

theorem exists_numbered {source : StateDraft} (declared : source ∈ draft.states) :
    ∃ index : Nat, draft.numbered[index]? = some source :=
  List.mem_iff_getElem?.mp (draft.numbered_perm.mem_iff.mpr (by simpa using declared))

theorem stateNumber?_of_numbered (distinct : draft.Distinct) {index : Nat} {source : StateDraft}
    (found : draft.numbered[index]? = some source) :
    draft.stateNumber? source.name = some (index + draft.firstNumber) := by
  rcases List.getElem?_eq_some_iff.mp found with ⟨inside, rfl⟩
  have position : (draft.numbered.findIdx? fun state =>
      state.name == draft.numbered[index].name) = some index := by
    refine List.findIdx?_eq_some_iff_getElem.mpr ⟨inside, by simp, ?_⟩
    intro earlier before same
    have nodup := (draft.numbered_perm.map StateDraft.name).nodup_iff.mpr distinct
    have differ := List.pairwise_iff_getElem.mp nodup earlier index
      (by simpa using Nat.lt_trans before inside) (by simpa using inside) before
    simp only [List.getElem_map] at differ
    exact differ (by simpa using same)
  rw [stateNumber?, position, Option.map_some]

section Assembled

variable {pool : Pool} {error : Option (Nat × Nat)} {states : List State}

theorem Assembly.numbered (assembly : Assembly draft pool error states) :
    List.Forall₂ (Finished draft (error.map Prod.snd) pool) draft.numbered
      (states.filter (fun state => !state.final) ++ states.filter fun state => state.final) := by
  have aligned : List.Forall₂ (Finished draft (error.map Prod.snd) pool) draft.states.toList
      states := by
    refine List.forall₂_iff_get.mpr ⟨by simpa using assembly.length.symm, ?_⟩
    intro index inside insideStates
    rcases assembly.each index _ (List.getElem?_eq_getElem inside) with ⟨state, found, finished⟩
    rcases List.getElem?_eq_some_iff.mp found with ⟨_, rfl⟩
    exact finished
  refine List.rel_append (List.rel_filter ?_ aligned) (List.rel_filter ?_ aligned)
  all_goals
    intro source state finished
    simp [finished.final]

theorem Assembly.state_of_source (assembly : Assembly draft pool error states) {index : Nat}
    {source : StateDraft} (found : draft.numbered[index]? = some source) :
    ∃ state, (statesOf error states)[index + draft.firstNumber]? = some state ∧
      Finished draft (error.map Prod.snd) pool source state := by
  rcases List.getElem?_eq_some_iff.mp found with ⟨inside, rfl⟩
  rcases List.forall₂_iff_get.mp assembly.numbered with ⟨length, each⟩
  refine ⟨_, ?_, each index inside (length ▸ inside)⟩
  rw [statesOf, List.append_assoc, List.getElem?_append_right (by
    rw [assembly.length_errorStates]; omega), assembly.length_errorStates, Nat.add_sub_cancel,
    List.get_eq_getElem, ← List.getElem?_eq_getElem]

theorem Assembly.source_of_state (assembly : Assembly draft pool error states) {id : Nat}
    {state : State} (found : (statesOf error states)[id]? = some state)
    (declared : state.isError = false) :
    ∃ index source, id = index + draft.firstNumber ∧ draft.numbered[index]? = some source ∧
      Finished draft (error.map Prod.snd) pool source state := by
  rw [statesOf, List.append_assoc] at found
  by_cases isError : id < draft.firstNumber
  · rw [List.getElem?_append_left (by rwa [assembly.length_errorStates])] at found
    have member := List.mem_of_getElem? found
    simp only [Option.mem_toList, Option.map_eq_some_iff] at member
    rcases member with ⟨way, _, rfl⟩
    cases declared
  · rw [List.getElem?_append_right (by rw [assembly.length_errorStates]; omega),
      assembly.length_errorStates] at found
    rcases List.getElem?_eq_some_iff.mp found with ⟨inside, rfl⟩
    rcases List.forall₂_iff_get.mp assembly.numbered with ⟨length, each⟩
    exact ⟨id - draft.firstNumber, _, by omega, List.getElem?_eq_getElem (length ▸ inside),
      each _ (length ▸ inside) inside⟩

end Assembled

theorem declaredAt_of_stateNumber? (distinct : draft.Distinct) (inhabited : 0 < draft.states.size)
    {name : String} {id : Nat} (found : draft.stateNumber? name = some id) :
    draft.assemble.DeclaredAt name id := by
  have assembly := (shares_shareAll inhabited).2.2
  intro other
  rw [assemble_states, List.getElem?_toArray]
  constructor
  · rintro rfl
    rcases Option.map_eq_some_iff.mp found with ⟨index, position, rfl⟩
    rcases List.findIdx?_eq_some_iff_getElem.mp position with ⟨inside, isNamed, _⟩
    rcases assembly.state_of_source (List.getElem?_eq_getElem inside) with ⟨state, stored, finished⟩
    exact ⟨state, stored, finished.declared, finished.name.trans (by simpa using isNamed)⟩
  · rintro ⟨state, stored, declared, isNamed⟩
    rcases assembly.source_of_state stored declared with ⟨index, source, rfl, sourceFound, finished⟩
    have number := stateNumber?_of_numbered distinct sourceFound
    rw [← finished.name, isNamed, found] at number
    exact (Option.some.inj number).symm

theorem aimsAt_targetNumber? (distinct : draft.Distinct) (inhabited : 0 < draft.states.size)
    {target : Target} (known : target.state.isEmpty = false →
      ∃ state ∈ draft.states, state.name = target.state)
    (reached : target.state.isEmpty = true → draft.needsError = true) :
    draft.assemble.mergeDuplicates.AimsAt target.state ((draft.targetNumber? target).getD 0) := by
  unfold Graph.AimsAt targetNumber?
  split
  next empty =>
    change draft.errorNumber? = _
    simp [errorNumber?, reached empty]
  next named =>
    rcases known (by simpa using named) with ⟨state, member, isNamed⟩
    rcases exists_numbered member with ⟨index, found⟩
    have number := stateNumber?_of_numbered distinct found
    rw [← isNamed, number, Option.getD_some]
    exact (declaredAt_of_stateNumber? distinct inhabited number).mergeDuplicates

/-! ## Drafts that can be built -/

/-- The draft is what some operations have made, and it can be built. -/
structure Sound (operations : List DraftStep) (draft : Draft) : Prop where
  reflects : Reflects operations draft
  consistent : draft.Consistent
  noErrors : draft.errors = []
  inhabited : 0 < draft.states.size
  valid : draft.assemble.mergeDuplicates.Valid
  apart : draft.assemble.TellsApart

section Merged

theorem findIdx?_assemble_actions (draft : Draft) (name : String) :
    (draft.assemble.actions.findIdx? fun action => action.name == name) =
      draft.actionNumber? name := by
  change ((draft.actions.map draft.actionOf).findIdx? _) = _
  rw [Array.findIdx?_map]
  rfl

theorem exists_actionNumber? {name : String}
    (defined : ∃ action ∈ draft.actions, action.name = name) :
    ∃ number, draft.actionNumber? name = some number := by
  rcases defined with ⟨action, member, isNamed⟩
  cases found : draft.actionNumber? name with
  | some number => exact ⟨number, rfl⟩
  | none =>
      have differs := Array.findIdx?_eq_none_iff.mp found action member
      simp [isNamed] at differs

variable {operations : List DraftStep} (sound : Sound operations draft)
include sound

theorem Sound.standsIn {names : List String}
    (defined : ∀ name ∈ names, ∃ action ∈ draft.actions, action.name = name) :
    List.Forall₂ draft.assemble.mergeDuplicates.StandsIn names
      ((names.filterMap draft.actionNumber?).map draft.assemble.canonicalAction) := by
  induction names with
  | nil => exact .nil
  | cons name rest induction =>
      rcases exists_actionNumber? (defined name (by simp)) with ⟨number, found⟩
      rw [List.filterMap_cons_some found, List.map_cons]
      refine .cons ?_ (induction fun other member => defined other (List.mem_cons_of_mem _ member))
      exact Graph.standsIn_canonicalAction sound.apart
        ((findIdx?_assemble_actions draft name).trans found)

theorem Sound.performs {names : List String}
    (defined : ∀ name ∈ names, ∃ action ∈ draft.actions, action.name = name) {list : Option Nat}
    (lists : (draft.shareAll .empty).2.Lists (names.filterMap draft.actionNumber?) list) :
    draft.assemble.mergeDuplicates.Performs names
      (list.map (Graph.renumber draft.assemble.listNumbers)) := by
  have stands := sound.standsIn defined
  rcases lists with ⟨empty, rfl⟩ | ⟨used, number, rfl, stored⟩
  · rw [empty] at stands
    exact List.forall₂_nil_right_iff.mp stands
  · have found : draft.assemble.lists[number]? =
        some ⟨names.filterMap draft.actionNumber?, 0⟩ := by
      rw [assemble_lists, Array.getElem?_map, stored, Option.map_some]
    rcases Graph.exists_merged_list found with ⟨merged, position, same⟩
    refine ⟨?_, merged, position, same ▸ stands⟩
    rintro rfl
    exact used rfl

theorem Sound.realizes {state : StateDraft} (declared : state ∈ draft.states) {branch : Branch}
    (leads : Leads state branch) {number : Nat}
    (shared : (draft.shareAll .empty).2.Shared draft branch number) :
    draft.assemble.mergeDuplicates.Realizes branch
      (Graph.renumber draft.assemble.transitionNumbers number) := by
  have inside : branch ∈ branches state :=
    mem_branches.mpr (leads.elim (fun claimed => .inr (.inr claimed)) .inl)
  have mentions := sound.reflects.mentioned sound.noErrors state declared branch leads
  rcases shared with ⟨transition, has⟩
  have found : draft.assemble.transitions[number]? = some transition := has.found
  have merged := Graph.getElem?_merged_transition found
  have ordered := sound.valid.transitions _ (Array.mem_of_getElem? merged)
  refine ⟨_, merged, has.space, ?_, ?_, ?_⟩
  · intro space guard
    exact sound.consistent.getElem?_space declared inside guard
  · intro source member
    rcases has.every source member with ⟨outcome, outcomeMember, value, list, lists, stored⟩
    have condition : draft.assemble.conditions[outcome.condition]? = some _ := stored
    refine ⟨_, _, (Transition.lookup_iff ordered).mpr
      ⟨_, Array.mem_map.mpr ⟨outcome, outcomeMember, rfl⟩, value, rfl⟩,
      Graph.getElem?_merged_condition condition, ?_, ?_⟩
    · exact aimsAt_targetNumber? sound.reflects.distinct sound.inhabited
        (mentions source member).1 (needsError_of_target declared inside member)
    · exact sound.performs (mentions source member).2 lists
  · intro value unlisted
    cases looked : Transition.lookup _ value with
    | none => rfl
    | some condition =>
        rcases (Transition.lookup_iff ordered).mp looked with ⟨outcome, member, same, _⟩
        rcases Array.mem_map.mp member with ⟨old, oldMember, rfl⟩
        rcases has.only old oldMember with ⟨source, sourceMember, become⟩
        exact absurd (become.value.symm.trans same) (unlisted source sourceMember)

end Merged

/-! ## Keys of declared states -/

section Keys

variable {errorTransition : Option Nat} {pool : Pool} {source : StateDraft} {state : State}
  {lists transitions : Array Nat} {key : Key}

/-- A key in a claimed interval leads to the transition of the claim. -/
theorem Finished.locate_claimed (finished : Finished draft errorTransition pool source state)
    (ordered : (Graph.mergeState lists transitions state).Ordered draft.alphabet) {claim : Claim}
    (member : claim ∈ source.claims) (holds : claim.Holds draft.alphabet key) :
    ∃ number, pool.Shared draft claim.branch number ∧
      (Graph.mergeState lists transitions state).locate draft.alphabet key =
        some (Graph.renumber transitions number) := by
  have contains := Claim.holds_iff.mp holds
  by_cases isSingle : claim.low = claim.high
  · rcases finished.singles claim member isSingle with ⟨single, inside, same, shared⟩
    have isKey : single.key = key := by
      apply draft.alphabet.value_injective
      have bounds := congrArg draft.alphabet.value isSingle
      rw [same]
      omega
    refine ⟨single.transition, shared, ?_⟩
    rw [← isKey]
    exact State.locate_of_single ordered (Array.mem_map.mpr ⟨single, inside, rfl⟩)
  · rcases finished.ranges claim member isSingle with ⟨range, inside, low, high, shared⟩
    refine ⟨range.transition, shared, ?_⟩
    exact State.locate_of_range ordered (Array.mem_map.mpr ⟨range, inside, rfl⟩)
      (by simpa only [low, high] using contains)

theorem Finished.locate_unclaimed (finished : Finished draft errorTransition pool source state)
    (ordered : (Graph.mergeState lists transitions state).Ordered draft.alphabet)
    (unclaimed : ∀ claim ∈ source.claims, ¬claim.Holds draft.alphabet key) :
    (Graph.mergeState lists transitions state).locate draft.alphabet key =
      state.fallback.map (Graph.renumber transitions) := by
  apply State.locate_of_outside ordered
  · rintro single member rfl
    rcases Array.mem_map.mp member with ⟨old, inside, rfl⟩
    rcases finished.claimedSingles old inside with ⟨claim, claimMember, low, high⟩
    apply unclaimed claim claimMember
    rw [Claim.holds_iff, low, high]
    exact ⟨Int.le_refl _, Int.le_refl _⟩
  · intro range member contains
    rcases Array.mem_map.mp member with ⟨old, inside, rfl⟩
    rcases finished.claimedRanges old inside with ⟨claim, claimMember, low, high⟩
    apply unclaimed claim claimMember
    rw [Claim.holds_iff, low, high]
    exact contains

/-- A key that no interval contains is a gap, unless there is a fallback. -/
theorem leavesGap_of_unclaimed (contained : draft.alphabet.contains key = true)
    (unclaimed : ∀ claim ∈ source.claims, ¬claim.Holds draft.alphabet key)
    (missing : source.fallback = none) : draft.leavesGap source = true := by
  rcases (draft.alphabet.contains_iff key).mp contained with ⟨above, below⟩
  cases gap : hasGap draft.alphabet draft.alphabet.low source.claims with
  | true => simp [leavesGap, missing, gap]
  | false =>
      rcases exists_of_not_hasGap gap above below with ⟨claim, member, contains⟩
      exact absurd (Claim.holds_iff.mpr contains) (unclaimed claim member)

variable {operations : List DraftStep} (sound : Sound operations draft)
include sound

/-- What a declared state does on a key is what operations ask for. -/
theorem Sound.obeys (declared : source ∈ draft.states)
    (becomes : Finished draft ((draft.shareAll .empty).1.1.map Prod.snd)
      (draft.shareAll .empty).2 source state) {id : Nat}
    (stored : draft.assemble.states[id]? = some state)
    (contained : draft.alphabet.contains key = true) {number : Nat}
    (located : draft.assemble.mergeDuplicates.locate id key = some number) :
    draft.assemble.mergeDuplicates.Obeys operations source.name key number := by
  have merged : draft.assemble.mergeDuplicates.states[id]? = some (Graph.mergeState
      draft.assemble.listNumbers draft.assemble.transitionNumbers state) := by
    rw [Graph.mergeDuplicates_eq, Array.getElem?_map, stored, Option.map_some]
  have ordered := sound.valid.states _ (Array.mem_of_getElem? merged)
  simp only [Graph.locate, merged] at located
  change State.locate draft.alphabet _ key = some number at located
  -- Names are unique, so what was asked under the name was asked of this state.
  have claims : ∀ claim, .addClaim source.name claim ∈ operations → claim ∈ source.claims := by
    intro claim asked
    rcases sound.reflects.claimed sound.noErrors source.name claim asked with
      ⟨other, member, isNamed, inside⟩
    exact sound.reflects.distinct.eq member declared isNamed ▸ inside
  have unclaimed : (∀ claim, .addClaim source.name claim ∈ operations →
      ¬claim.Holds draft.alphabet key) → ∀ claim ∈ source.claims, ¬claim.Holds draft.alphabet key :=
    fun free claim member => free claim (sound.reflects.claims source declared claim member)
  exact {
    claimed := by
      intro claim asked holds
      have member := claims claim asked
      rcases becomes.locate_claimed ordered member holds with ⟨shared, has, found⟩
      cases located.symm.trans found
      exact sound.realizes declared (.inl ⟨claim, member, rfl⟩) has
    fallback := by
      intro free branch asked
      rcases sound.reflects.set sound.noErrors source.name branch asked with
        ⟨other, member, isNamed, set⟩
      cases sound.reflects.distinct.eq member declared isNamed
      rcases becomes.fallbackBranch branch set with ⟨shared, found, has⟩
      have taken := located.symm.trans (becomes.locate_unclaimed ordered (unclaimed free))
      rw [found] at taken
      cases taken
      exact sound.realizes declared (.inr set) has
    missing := by
      intro free unset
      have noFallback : source.fallback = none := by
        cases set : source.fallback with
        | none => rfl
        | some branch =>
            exact absurd (sound.reflects.fallbacks source declared branch set) (unset branch)
      have gap := leavesGap_of_unclaimed contained (unclaimed free) noFallback
      rw [becomes.locate_unclaimed ordered (unclaimed free), becomes.gap noFallback,
        if_pos gap] at located
      exact located }

end Keys

/-- A declared state has a number, under which stands what has become of it. -/
theorem exists_merged_state (distinct : draft.Distinct) (inhabited : 0 < draft.states.size)
    {source : StateDraft} (declared : source ∈ draft.states) :
    ∃ id state, draft.assemble.mergeDuplicates.DeclaredAt source.name id ∧
      draft.assemble.mergeDuplicates.states[id]? = some (Graph.mergeState
        draft.assemble.listNumbers draft.assemble.transitionNumbers state) ∧
      Finished draft ((draft.shareAll .empty).1.1.map Prod.snd) (draft.shareAll .empty).2 source
        state := by
  rcases exists_numbered declared with ⟨index, found⟩
  rcases (shares_shareAll inhabited).2.2.state_of_source found with ⟨state, stored, finished⟩
  rw [← List.getElem?_toArray, ← assemble_states] at stored
  have number := stateNumber?_of_numbered distinct found
  refine ⟨_, state, (declaredAt_of_stateNumber? distinct inhabited number).mergeDuplicates, ?_,
    finished⟩
  rw [Graph.mergeDuplicates_eq, Array.getElem?_map, stored, Option.map_some]

/-- A graph that was built is about the alphabet of its draft, and every declared state has one
number, under which every key finds the transition the operations ask for; no state is without a
transition on a key of the alphabet. The operations name only condition spaces that their draft has
made. -/
theorem build_realizes_declarations {name : String} {alphabet : Alphabet}
    {operations : List DraftStep} (admitted : (empty name alphabet).AdmitsAll operations = true)
    {after : Draft} {graph : Graph}
    (built : (operations.foldl perform (.empty name alphabet)).build = (after, .ok graph))
    (apart : graph.TellsApart) :
    graph.alphabet = alphabet ∧
      (∀ operation ∈ operations, ∀ state ∈ declaredBy operation,
        ∃ id, graph.DeclaredAt state id ∧ ∀ key, alphabet.contains key = true →
          ∃ number, graph.locate id key = some number ∧
            graph.Obeys operations state key number) ∧
      ∀ id < graph.states.size, ∀ key, alphabet.contains key = true →
        ∃ number < graph.transitions.size, graph.locate id key = some number := by
  have drafted := (Drafted.empty name alphabet).foldl admitted
  have reflects := (reflects_empty name alphabet).foldl admitted
  have sameAlphabet : _ = alphabet := alphabet_foldl admitted
  rw [List.nil_append] at reflects
  generalize operations.foldl perform (.empty name alphabet) = draft at *
  rcases build_eq_ok built with ⟨noErrors, started, _, rfl, validated⟩
  have consistent := drafted.consistent
  have inhabited := consistent.inhabited started
  have valid := Graph.valid_of_validate validated
  have wired := (wired_assemble inhabited consistent noErrors).mergeDuplicates
  have sound : Sound operations draft := ⟨reflects, consistent, noErrors, inhabited, valid, apart⟩
  subst sameAlphabet
  refine ⟨rfl, ?_, fun id inside key contained => wired.exists_locate valid inside contained⟩
  intro operation asked state declares
  rcases reflects.declared noErrors operation asked state declares with ⟨source, declared, rfl⟩
  rcases exists_numbered declared with ⟨index, found⟩
  rcases (shares_shareAll inhabited).2.2.state_of_source found with ⟨state, stored, finished⟩
  rw [← List.getElem?_toArray, ← assemble_states] at stored
  have number := stateNumber?_of_numbered reflects.distinct found
  have declaredAt := (declaredAt_of_stateNumber? reflects.distinct inhabited number).mergeDuplicates
  refine ⟨_, declaredAt, ?_⟩
  intro key contained
  have inside : index + draft.firstNumber < draft.assemble.mergeDuplicates.states.size := by
    rw [Graph.size_mergeDuplicates_states]
    exact (Array.getElem?_eq_some_iff.mp stored).1
  rcases wired.exists_locate valid inside contained with ⟨number, _, located⟩
  exact ⟨number, located, sound.obeys declared finished stored contained located⟩

end Draft

namespace Sample

def checked : Branch :=
  ⟨some ⟨0, ["ready"]⟩, [⟨1, ⟨"busy", ["trace"]⟩⟩, ⟨0, ⟨"", []⟩⟩]⟩

def declarations : List DraftStep := [
  .internSpace ["ready"],
  .setStart "idle",
  .markFinal ["busy"],
  .defineAction ⟨"count", .hook, "count++", ""⟩,
  .defineAction ⟨"trace", .hook, "count++", ""⟩,
  .addClaim "idle" ⟨.ofInt 10, .ofInt 20, checked⟩,
  .setFallback "busy" (.plain ⟨"idle", ["trace", "log"]⟩)]

def declared : Draft :=
  declarations.foldl Draft.perform (.empty "declared" (.full ⟨true, .one⟩))

theorem build_declared :
    declared.build = (declared, .ok declared.assemble.mergeDuplicates) := by
  rcases exists_of_isOk
    (by decide +kernel : declared.assemble.mergeDuplicates.validate.isOk = true) with ⟨_, valid⟩
  exact Draft.build_of_validate (by decide +kernel) (by decide +kernel) (by decide +kernel) valid

theorem tellsApart_declared : declared.assemble.mergeDuplicates.TellsApart := by
  unfold Graph.TellsApart
  decide +kernel

end Sample

/-- A key of the guarded interval, a key of the gap and a key of the fallback. -/
theorem build_realizes_declarations_sample : ∃ graph,
    Sample.declared.build = (Sample.declared, .ok graph) ∧ graph.TellsApart ∧
    (∃ idle, graph.DeclaredAt "idle" idle ∧
      (∃ number, graph.locate idle (.ofInt 12) = some number ∧
        graph.Realizes Sample.checked number) ∧
      graph.locate idle (.ofInt 5) = graph.errorTransition) ∧
    ∃ busy number, graph.DeclaredAt "busy" busy ∧ graph.locate busy (.ofInt 5) = some number ∧
      graph.Realizes (.plain ⟨"idle", ["trace", "log"]⟩) number := by
  have realizes := Draft.build_realizes_declarations (by decide +kernel) Sample.build_declared
    Sample.tellsApart_declared
  rcases realizes with ⟨_, states, _⟩
  refine ⟨_, Sample.build_declared, Sample.tellsApart_declared, ?_, ?_⟩
  · rcases states (.setStart "idle") (by decide +kernel) "idle" (by decide +kernel) with
      ⟨idle, declared, keys⟩
    rcases keys (.ofInt 12) (by decide +kernel) with ⟨number, located, obeys⟩
    rcases keys (.ofInt 5) (by decide +kernel) with ⟨other, otherLocated, otherObeys⟩
    refine ⟨idle, declared, ⟨number, located, ?_⟩, ?_⟩
    · exact obeys.claimed ⟨.ofInt 10, .ofInt 20, Sample.checked⟩ (by decide +kernel)
        ⟨by decide +kernel, by decide +kernel⟩
    · rw [otherLocated]
      apply (otherObeys.missing _ _).symm
      · intro claim asked
        obtain rfl : claim = ⟨.ofInt 10, .ofInt 20, Sample.checked⟩ := by
          simpa [Sample.declarations] using asked
        exact fun holds => absurd holds.1 (by decide +kernel)
      · simp [Sample.declarations]
  · rcases states (.markFinal ["busy"]) (by decide +kernel) "busy" (by decide +kernel) with
      ⟨busy, declared, keys⟩
    rcases keys (.ofInt 5) (by decide +kernel) with ⟨number, located, obeys⟩
    refine ⟨busy, number, declared, located, ?_⟩
    apply obeys.fallback _ _ (by decide +kernel)
    simp [Sample.declarations]

end StateTables
