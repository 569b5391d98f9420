import StateTables.Proofs.Drafting
import StateTables.Proofs.Searching

/-! # Shared parts of a graph

While a graph is assembled, equal action lists, condition targets and transitions
are given one number in a pool. Numbers given once stay valid as the pool grows,
so every reference of the finished graph leads to a part of it.
-/

namespace StateTables

structure State.Linked (transitions lists states : Nat) (state : State) : Prop where
  singles : ∀ single ∈ state.singles, single.transition < transitions
  ranges : ∀ range ∈ state.ranges, range.transition < transitions
  fallback : ∀ transition, state.fallback = some transition → transition < transitions
  eofTransition : ∀ transition, state.eofTransition = some transition → transition < transitions
  toState : ∀ list, state.toState = some list → list < lists
  fromState : ∀ list, state.fromState = some list → list < lists
  eofActions : ∀ list, state.eofActions = some list → list < lists
  targets : ∀ alternate ∈ state.alternates, alternate.target < states
  pushes : ∀ alternate ∈ state.alternates, ∀ list, alternate.push = some list → list < lists
  popTests : ∀ alternate ∈ state.alternates, ∀ list, alternate.popTest = some list → list < lists

theorem State.Linked.grow {transitions lists states moreTransitions moreLists moreStates : Nat}
    {state : State} (linked : state.Linked transitions lists states)
    (transitionsGrow : transitions ≤ moreTransitions) (listsGrow : lists ≤ moreLists)
    (statesGrow : states ≤ moreStates) : state.Linked moreTransitions moreLists moreStates where
  singles single member := Nat.lt_of_lt_of_le (linked.singles single member) transitionsGrow
  ranges range member := Nat.lt_of_lt_of_le (linked.ranges range member) transitionsGrow
  fallback number found := Nat.lt_of_lt_of_le (linked.fallback number found) transitionsGrow
  eofTransition number found :=
    Nat.lt_of_lt_of_le (linked.eofTransition number found) transitionsGrow
  toState list found := Nat.lt_of_lt_of_le (linked.toState list found) listsGrow
  fromState list found := Nat.lt_of_lt_of_le (linked.fromState list found) listsGrow
  eofActions list found := Nat.lt_of_lt_of_le (linked.eofActions list found) listsGrow
  targets alternate member := Nat.lt_of_lt_of_le (linked.targets alternate member) statesGrow
  pushes alternate member list found :=
    Nat.lt_of_lt_of_le (linked.pushes alternate member list found) listsGrow
  popTests alternate member list found :=
    Nat.lt_of_lt_of_le (linked.popTests alternate member list found) listsGrow

namespace Draft

def stateCount (draft : Draft) : Nat :=
  draft.firstNumber + draft.states.size

namespace Pool

/-- All numbers stay valid. -/
structure Grows (before after : Pool) : Prop where
  lists : Search.Extends before.lists after.lists
  conditions : Search.Extends before.conditions after.conditions
  transitions : Search.Extends before.transitions after.transitions

theorem Grows.refl (pool : Pool) : pool.Grows pool :=
  ⟨.refl _, .refl _, .refl _⟩

theorem Grows.trans {first second third : Pool} (left : first.Grows second)
    (right : second.Grows third) : first.Grows third :=
  ⟨left.lists.trans right.lists, left.conditions.trans right.conditions,
    left.transitions.trans right.transitions⟩

def Guarded (draft : Draft) (transition : Transition) : Prop :=
  ∀ number, transition.space = some number →
    ∃ state ∈ draft.states, ∃ branch ∈ branches state, ∃ space,
      branch.space = some space ∧ space.id = number ∧
        transition.outcomes.size = branch.outcomes.length

/-- The transition leads into the error state, or it is what a branch of the draft becomes: its
outcomes are put in the order of their values. -/
def Sourced (draft : Draft) (transition : Transition) : Prop :=
  (∃ condition, transition = ⟨none, #[⟨0, condition⟩]⟩) ∨
    ∃ state ∈ draft.states, ∃ branch ∈ branches state, ∃ outcomes : List Outcome,
      outcomes.map Outcome.value = branch.outcomes.map OutcomeDraft.value ∧
        transition = ⟨branch.space.map ConditionSpace.id,
          (outcomes.foldl (fun sorted outcome => insertOutcome outcome sorted) []).toArray⟩

/-- References within the pool lead to parts of the pool. -/
structure Closed (draft : Draft) (pool : Pool) : Prop where
  lists : ∀ list ∈ pool.lists, ∀ action ∈ list, action < draft.actions.size
  targets : ∀ condition ∈ pool.conditions, condition.target < draft.stateCount
  conditionLists : ∀ condition ∈ pool.conditions, ∀ list,
    condition.actions = some list → list < pool.lists.size
  outcomes : ∀ transition ∈ pool.transitions, ∀ outcome ∈ transition.outcomes,
    outcome.condition < pool.conditions.size
  guarded : ∀ transition ∈ pool.transitions, Guarded draft transition
  sourced : ∀ transition ∈ pool.transitions, Sourced draft transition

theorem closed_empty (draft : Draft) : Closed draft .empty where
  lists list member := by simp [Pool.empty] at member
  targets condition member := by simp [Pool.empty] at member
  conditionLists condition member := by simp [Pool.empty] at member
  outcomes transition member := by simp [Pool.empty] at member
  guarded transition member := by simp [Pool.empty] at member
  sourced transition member := by simp [Pool.empty] at member

end Pool

/-! ## Steps that share -/

/-- From a pool on, a step keeps the pool closed, keeps all numbers valid and has a
result with a property. -/
def Shares {α : Type} (draft : Draft) (pool : Pool) (step : StateM Pool α)
    (holds : Pool → α → Prop) : Prop :=
  (step pool).2.Closed draft ∧ pool.Grows (step pool).2 ∧ holds (step pool).2 (step pool).1

namespace Shares

variable {α β : Type} {draft : Draft} {pool : Pool}

theorem pure {value : α} {holds : Pool → α → Prop} (closed : pool.Closed draft)
    (property : holds pool value) : Shares draft pool (Pure.pure value) holds :=
  ⟨closed, .refl pool, property⟩

theorem bind {step : StateM Pool α} {next : α → StateM Pool β} {middle : Pool → α → Prop}
    {holds : Pool → β → Prop} (first : Shares draft pool step middle)
    (second : ∀ value after, after.Closed draft → pool.Grows after → middle after value →
      Shares draft after (next value) holds) :
    Shares draft pool (step >>= next) holds := by
  rcases first with ⟨closed, grows, property⟩
  rcases second _ _ closed grows property with ⟨lastClosed, lastGrows, lastProperty⟩
  exact ⟨lastClosed, grows.trans lastGrows, lastProperty⟩

theorem map {step : StateM Pool α} {change : α → β} {middle : Pool → α → Prop}
    {holds : Pool → β → Prop} (shares : Shares draft pool step middle)
    (implies : ∀ after value, middle after value → holds after (change value)) :
    Shares draft pool (change <$> step) holds :=
  ⟨shares.1, shares.2.1, implies _ _ shares.2.2⟩

theorem weaken {step : StateM Pool α} {holds weaker : Pool → α → Prop}
    (shares : Shares draft pool step holds)
    (implies : ∀ after value, holds after value → weaker after value) :
    Shares draft pool step weaker :=
  ⟨shares.1, shares.2.1, implies _ _ shares.2.2⟩

/-- The results of a row of steps, each with a property that outlasts the growth of
the pool. -/
theorem mapM {step : α → StateM Pool β} (holds : α → Pool → β → Prop) {values : List α}
    (outlasts : ∀ value before after result, before.Grows after →
      holds value before result → holds value after result)
    (each : ∀ value ∈ values, ∀ later : Pool, later.Closed draft → pool.Grows later →
      Shares draft later (step value) (holds value))
    (closed : pool.Closed draft) :
    Shares draft pool (values.mapM step) fun after results =>
      results.length = values.length ∧
        ∀ (index : Nat) (value : α), values[index]? = some value →
          ∃ result, results[index]? = some result ∧ holds value after result := by
  induction values generalizing pool with
  | nil =>
      rw [List.mapM_nil]
      exact .pure closed ⟨rfl, fun index value found => by simp at found⟩
  | cons head tail induction =>
      rw [List.mapM_cons]
      refine .bind (each head (by simp) pool closed (.refl pool)) ?_
      intro first middle middleClosed begins firstHolds
      refine .bind (induction (fun value member later laterClosed grows =>
        each value (by simp [member]) later laterClosed (begins.trans grows)) middleClosed) ?_
      intro rest after afterClosed grows holds
      rcases holds with ⟨length, restHolds⟩
      refine .pure afterClosed ⟨by simp [length], fun index value found => ?_⟩
      cases index with
      | zero =>
          cases (by simpa using found : head = value)
          exact ⟨first, rfl, outlasts _ _ _ _ grows firstHolds⟩
      | succ index => exact restHolds index value (by simpa using found)

theorem of_mem {holds : α → β → Prop} {values : List α} {results : List β}
    (length : results.length = values.length)
    (each : ∀ (index : Nat) (value : α), values[index]? = some value →
      ∃ result, results[index]? = some result ∧ holds value result)
    {result : β} (member : result ∈ results) : ∃ value ∈ values, holds value result := by
  rcases List.mem_iff_getElem?.mp member with ⟨index, found⟩
  rcases List.getElem?_eq_some_iff.mp found with ⟨inside, _⟩
  rw [length] at inside
  rcases each index _ (List.getElem?_eq_getElem inside) with ⟨other, otherFound, property⟩
  rw [found] at otherFound
  exact ⟨_, List.getElem_mem inside, Option.some.inj otherFound ▸ property⟩

end Shares

/-! ## Numbers of states and actions -/

theorem length_numbered (draft : Draft) : draft.numbered.length = draft.states.size := by
  have parts := (List.filter_append_perm (fun state => state.final) draft.states.toList).length_eq
  simp only [List.length_append, Array.length_toList] at parts
  simp only [numbered, List.length_append]
  omega

theorem stateNumber?_lt {draft : Draft} {name : String} {number : Nat}
    (found : draft.stateNumber? name = some number) : number < draft.stateCount := by
  rcases Option.map_eq_some_iff.mp found with ⟨index, position, rfl⟩
  have inside := (List.findIdx?_eq_some_iff_getElem.mp position).1
  rw [length_numbered] at inside
  unfold stateCount
  omega

theorem errorNumber?_lt {draft : Draft} {number : Nat}
    (needed : draft.errorNumber? = some number) : number < draft.stateCount := by
  unfold errorNumber? at needed
  split at needed
  next required =>
    cases needed
    rw [stateCount, firstNumber, if_pos required]
    omega
  next => cases needed

theorem getD_lt_stateCount {draft : Draft} (inhabited : 0 < draft.states.size)
    {number? : Option Nat} (inRange : ∀ number, number? = some number → number < draft.stateCount) :
    number?.getD 0 < draft.stateCount := by
  cases number? with
  | none =>
      simp only [Option.getD_none, stateCount]
      omega
  | some number => exact inRange number rfl

theorem targetNumber?_lt {draft : Draft} {target : Target} {number : Nat}
    (found : draft.targetNumber? target = some number) : number < draft.stateCount := by
  unfold targetNumber? at found
  split at found
  · exact errorNumber?_lt found
  · exact stateNumber?_lt found

theorem actionNumber?_lt {draft : Draft} {name : String} {number : Nat}
    (found : draft.actionNumber? name = some number) : number < draft.actions.size :=
  (Array.findIdx?_eq_some_iff_getElem.mp found).1

/-! ## What the parts of a draft become -/

section Parts

variable {draft : Draft} {pool : Pool}

/-- A number of an action list, if there is one, is in range. -/
def ListInside (pool : Pool) (list : Option Nat) : Prop :=
  ∀ number, list = some number → number < pool.lists.size

theorem ListInside.grow {before after : Pool} (grows : before.Grows after) {list : Option Nat}
    (inside : ListInside before list) : ListInside after list :=
  fun number found => Nat.lt_of_lt_of_le (inside number found) grows.lists.size_le

/-- The number is that of a list with some actions; without actions there is none. -/
def Pool.Lists (pool : Pool) (actions : List Nat) (list : Option Nat) : Prop :=
  (actions = [] ∧ list = none) ∨
    actions ≠ [] ∧ ∃ number, list = some number ∧ pool.lists[number]? = some actions

theorem Pool.Lists.grow {before after : Pool} (grows : before.Grows after) {actions : List Nat}
    {list : Option Nat} (lists : before.Lists actions list) : after.Lists actions list := by
  refine lists.imp id ?_
  rintro ⟨used, number, same, found⟩
  exact ⟨used, number, same, grows.lists _ _ found⟩

theorem Pool.Lists.inside {actions : List Nat} {list : Option Nat}
    (lists : pool.Lists actions list) : ListInside pool list := by
  intro number found
  rcases lists with ⟨_, unlisted⟩ | ⟨_, other, same, stored⟩
  · cases unlisted.symm.trans found
  · cases same.symm.trans found
    exact (Array.getElem?_eq_some_iff.mp stored).1

theorem shares_addList (closed : pool.Closed draft) {actions : List Nat}
    (inRange : ∀ action ∈ actions, action < draft.actions.size) :
    Shares draft pool (Pool.addList actions) fun after => after.Lists actions := by
  by_cases empty : actions.isEmpty = true
  · have unchanged : Pool.addList actions pool = (none, pool) := by
      simp [Pool.addList, empty]
    unfold Shares
    rw [unchanged]
    exact ⟨closed, .refl pool, .inl ⟨by simpa using empty, rfl⟩⟩
  · rcases Search.intern_spec pool.lists actions with ⟨grows, hit⟩
    have added : Pool.addList actions pool = (some (Search.intern pool.lists actions).2,
        { pool with lists := (Search.intern pool.lists actions).1 }) := by
      simp [Pool.addList, empty]
    unfold Shares
    rw [added]
    refine ⟨{ closed with lists := ?_, conditionLists := ?_ }, ⟨grows, .refl _, .refl _⟩, ?_⟩
    · intro list member action inside
      rcases Search.mem_of_mem_intern member with old | new
      · exact closed.lists list old action inside
      · exact inRange action (new ▸ inside)
    · intro condition member list found
      exact Nat.lt_of_lt_of_le (closed.conditionLists condition member list found) grows.size_le
    · exact .inr ⟨by simpa using empty, _, rfl, hit⟩

theorem shares_addCondition (closed : pool.Closed draft) {condition : ConditionTarget}
    (target : condition.target < draft.stateCount) (list : ListInside pool condition.actions) :
    Shares draft pool (Pool.addCondition condition) fun after number =>
      after.conditions[number]? = some condition := by
  rcases Search.intern_spec pool.conditions condition with ⟨grows, hit⟩
  refine ⟨{ closed with targets := ?_, conditionLists := ?_, outcomes := ?_ },
    ⟨.refl _, grows, .refl _⟩, hit⟩
  · intro other member
    rcases Search.mem_of_mem_intern member with old | new
    · exact closed.targets other old
    · exact new ▸ target
  · intro other member number found
    rcases Search.mem_of_mem_intern member with old | new
    · exact closed.conditionLists other old number found
    · exact list number (new ▸ found)
  · intro transition member outcome inside
    exact Nat.lt_of_lt_of_le (closed.outcomes transition member outcome inside) grows.size_le

theorem shares_addTransition (closed : pool.Closed draft) {transition : Transition}
    (outcomes : ∀ outcome ∈ transition.outcomes, outcome.condition < pool.conditions.size)
    (guarded : Pool.Guarded draft transition) (sourced : Pool.Sourced draft transition) :
    Shares draft pool (Pool.addTransition transition) fun after number =>
      after.transitions[number]? = some transition := by
  rcases Search.intern_spec pool.transitions transition with ⟨grows, hit⟩
  refine ⟨{ closed with outcomes := ?_, guarded := ?_, sourced := ?_ }, ⟨.refl _, .refl _, grows⟩,
    hit⟩
  · intro other member outcome inside
    rcases Search.mem_of_mem_intern member with old | new
    · exact closed.outcomes other old outcome inside
    · exact outcomes outcome (new ▸ inside)
  · intro other member
    rcases Search.mem_of_mem_intern member with old | new
    · exact closed.guarded other old
    · exact new ▸ guarded
  · intro other member
    rcases Search.mem_of_mem_intern member with old | new
    · exact closed.sourced other old
    · exact new ▸ sourced

theorem shares_shareList (closed : pool.Closed draft) (names : List String) :
    Shares draft pool (draft.shareList names) fun after =>
      after.Lists (names.filterMap draft.actionNumber?) := by
  apply shares_addList closed
  intro action member
  rcases List.mem_filterMap.mp member with ⟨name, _, found⟩
  exact actionNumber?_lt found

/-- What has become of an outcome: its value stays, and its condition target has the number of
the state and the list of the actions it names. -/
structure Pool.HasOutcome (draft : Draft) (pool : Pool) (source : OutcomeDraft)
    (outcome : Outcome) : Prop where
  value : outcome.value = source.value
  condition : ∃ list, pool.Lists (source.target.actions.filterMap draft.actionNumber?) list ∧
    pool.conditions[outcome.condition]? =
      some ⟨(draft.targetNumber? source.target).getD 0, list⟩

theorem Pool.HasOutcome.grow {before after : Pool} (grows : before.Grows after)
    {source : OutcomeDraft} {outcome : Outcome} (has : before.HasOutcome draft source outcome) :
    after.HasOutcome draft source outcome := by
  rcases has with ⟨value, list, lists, found⟩
  exact ⟨value, list, lists.grow grows, grows.conditions _ _ found⟩

theorem Pool.HasOutcome.inside {source : OutcomeDraft} {outcome : Outcome}
    (has : pool.HasOutcome draft source outcome) : outcome.condition < pool.conditions.size := by
  rcases has.condition with ⟨_, _, found⟩
  exact (Array.getElem?_eq_some_iff.mp found).1

theorem shares_shareOutcome (inhabited : 0 < draft.states.size) (closed : pool.Closed draft)
    (outcome : OutcomeDraft) :
    Shares draft pool (draft.shareOutcome outcome) fun after =>
      after.HasOutcome draft outcome := by
  unfold shareOutcome
  refine .bind (shares_shareList closed outcome.target.actions) ?_
  intro actions middle middleClosed _ lists
  refine .bind (shares_addCondition middleClosed
    (getD_lt_stateCount inhabited fun _ found => targetNumber?_lt found) lists.inside) ?_
  intro condition after afterClosed grows found
  exact .pure afterClosed ⟨rfl, actions, lists.grow grows, found⟩

/-! ### Outcomes in order -/

theorem perm_insertOutcome (outcome : Outcome) (outcomes : List Outcome) :
    (insertOutcome outcome outcomes).Perm (outcome :: outcomes) := by
  induction outcomes with
  | nil => exact .refl _
  | cons other rest induction =>
      unfold insertOutcome
      split
      next => exact .refl _
      next => exact (induction.cons other).trans (.swap outcome other rest)

theorem perm_foldl_insertOutcome (outcomes sorted : List Outcome) :
    (outcomes.foldl (fun sorted outcome => insertOutcome outcome sorted) sorted).Perm
      (outcomes ++ sorted) := by
  induction outcomes generalizing sorted with
  | nil => exact .refl _
  | cons outcome rest induction =>
      exact (induction _).trans
        (((perm_insertOutcome outcome sorted).append_left rest).trans List.perm_middle)

/-- What has become of a branch: a transition with its condition space and its outcomes. -/
structure Pool.HasBranch (draft : Draft) (pool : Pool) (branch : Branch) (number : Nat)
    (transition : Transition) : Prop where
  found : pool.transitions[number]? = some transition
  space : transition.space = branch.space.map ConditionSpace.id
  every : ∀ source ∈ branch.outcomes, ∃ outcome ∈ transition.outcomes,
    pool.HasOutcome draft source outcome
  only : ∀ outcome ∈ transition.outcomes, ∃ source ∈ branch.outcomes,
    pool.HasOutcome draft source outcome

theorem Pool.HasBranch.grow {before after : Pool} (grows : before.Grows after) {branch : Branch}
    {number : Nat} {transition : Transition}
    (has : before.HasBranch draft branch number transition) :
    after.HasBranch draft branch number transition where
  found := grows.transitions _ _ has.found
  space := has.space
  every source member := by
    rcases has.every source member with ⟨outcome, inside, become⟩
    exact ⟨outcome, inside, become.grow grows⟩
  only outcome member := by
    rcases has.only outcome member with ⟨source, inside, become⟩
    exact ⟨source, inside, become.grow grows⟩

def Pool.Shared (draft : Draft) (pool : Pool) (branch : Branch) (number : Nat) : Prop :=
  ∃ transition, pool.HasBranch draft branch number transition

theorem Pool.Shared.grow {before after : Pool} (grows : before.Grows after) {branch : Branch}
    {number : Nat} (shared : before.Shared draft branch number) :
    after.Shared draft branch number := by
  rcases shared with ⟨transition, has⟩
  exact ⟨transition, has.grow grows⟩

theorem Pool.Shared.inside {branch : Branch} {number : Nat}
    (shared : pool.Shared draft branch number) : number < pool.transitions.size := by
  rcases shared with ⟨_, has⟩
  exact (Array.getElem?_eq_some_iff.mp has.found).1

theorem shares_shareBranch (inhabited : 0 < draft.states.size) (closed : pool.Closed draft)
    {state : StateDraft} (declared : state ∈ draft.states) {branch : Branch}
    (inside : branch ∈ branches state) :
    Shares draft pool (draft.shareBranch branch) fun after => after.Shared draft branch := by
  unfold shareBranch
  refine .bind (Shares.mapM (fun source after => after.HasOutcome draft source)
    (fun _ _ _ _ grows has => has.grow grows)
    (fun outcome _ later closed _ => shares_shareOutcome inhabited closed outcome) closed) ?_
  intro outcomes middle middleClosed _ holds
  rcases holds with ⟨length, each⟩
  -- Sorting changes neither the number of outcomes nor what they refer to.
  have sorted := perm_foldl_insertOutcome outcomes []
  rw [List.append_nil] at sorted
  let transition : Transition := ⟨branch.space.map ConditionSpace.id,
    (outcomes.foldl (fun sorted outcome => insertOutcome outcome sorted) []).toArray⟩
  have same : ∀ outcome, outcome ∈ transition.outcomes ↔ outcome ∈ outcomes := by
    intro outcome
    rw [List.mem_toArray]
    exact sorted.mem_iff
  have values : outcomes.map Outcome.value = branch.outcomes.map OutcomeDraft.value := by
    refine List.ext_getElem? fun index => ?_
    rw [List.getElem?_map, List.getElem?_map]
    cases found : branch.outcomes[index]? with
    | none =>
        rw [List.getElem?_eq_none_iff, ← length, ← List.getElem?_eq_none_iff] at found
        rw [found]
        rfl
    | some source =>
        rcases each index source found with ⟨outcome, outcomeFound, has⟩
        simp [outcomeFound, has.value]
  have shared : Shares draft middle (Pool.addTransition transition) _ :=
    shares_addTransition middleClosed ?_ ?_
      (.inr ⟨state, declared, branch, inside, outcomes, values, rfl⟩)
  · refine ⟨shared.1, shared.2.1, _, shared.2.2, rfl, ?_, ?_⟩
    · intro source member
      rcases List.mem_iff_getElem?.mp member with ⟨index, found⟩
      rcases each index source found with ⟨outcome, outcomeFound, has⟩
      exact ⟨outcome, (same outcome).mpr (List.mem_of_getElem? outcomeFound),
        has.grow shared.2.1⟩
    · intro outcome member
      rcases Shares.of_mem length each ((same outcome).mp member) with ⟨source, sourceMember, has⟩
      exact ⟨source, sourceMember, has.grow shared.2.1⟩
  · intro outcome member
    rcases Shares.of_mem length each ((same outcome).mp member) with ⟨_, _, has⟩
    exact has.inside
  · intro number found
    rcases Option.map_eq_some_iff.mp found with ⟨space, guard, same⟩
    refine ⟨state, declared, branch, inside, space, guard, same, ?_⟩
    rw [← length, ← sorted.length_eq]
    rfl

/-! ### States -/

structure Pool.Reaches (draft : Draft) (pool : Pool) (alternate : Alternate) : Prop where
  target : alternate.target < draft.stateCount
  push : ListInside pool alternate.push
  popTest : ListInside pool alternate.popTest

theorem Pool.Reaches.grow {before after : Pool} (grows : before.Grows after)
    {alternate : Alternate} (reaches : before.Reaches draft alternate) :
    after.Reaches draft alternate :=
  ⟨reaches.target, reaches.push.grow grows, reaches.popTest.grow grows⟩

theorem shares_shareAlternate (inhabited : 0 < draft.states.size) (closed : pool.Closed draft)
    (alternate : AlternateDraft) :
    Shares draft pool (draft.shareAlternate alternate) fun after => after.Reaches draft := by
  unfold shareAlternate
  refine .bind (shares_shareList closed alternate.push) ?_
  intro push middle middleClosed _ pushed
  refine .bind (shares_shareList middleClosed alternate.popTest) ?_
  intro popTest after afterClosed grows popped
  exact .pure afterClosed ⟨getD_lt_stateCount inhabited fun _ found => stateNumber?_lt found,
    pushed.inside.grow grows, popped.inside⟩

theorem shares_shareAlternates (inhabited : 0 < draft.states.size) (closed : pool.Closed draft)
    (alternates : List AlternateDraft) :
    Shares draft pool (alternates.mapM draft.shareAlternate) fun after results =>
      ∀ result ∈ results, after.Reaches draft result := by
  refine .weaken (Shares.mapM (fun _ after => after.Reaches draft)
    (fun _ _ _ _ grows reaches => reaches.grow grows)
    (fun alternate _ _ laterClosed _ => shares_shareAlternate inhabited laterClosed alternate)
    closed) ?_
  intro after results shared result member
  rcases Shares.of_mem shared.1 shared.2 member with ⟨_, _, reaches⟩
  exact reaches

structure Finished (draft : Draft) (errorTransition : Option Nat) (pool : Pool)
    (source : StateDraft) (state : State) : Prop where
  linked : state.Linked pool.transitions.size pool.lists.size draft.stateCount
  name : state.name = source.name
  declared : state.isError = false
  final : state.final = source.final
  singles : ∀ claim ∈ source.claims, claim.low = claim.high →
    ∃ single ∈ state.singles, single.key = claim.low ∧
      pool.Shared draft claim.branch single.transition
  ranges : ∀ claim ∈ source.claims, claim.low ≠ claim.high →
    ∃ range ∈ state.ranges, range.low = claim.low ∧ range.high = claim.high ∧
      pool.Shared draft claim.branch range.transition
  claimedSingles : ∀ single ∈ state.singles, ∃ claim ∈ source.claims,
    claim.low = single.key ∧ claim.high = single.key
  claimedRanges : ∀ range ∈ state.ranges, ∃ claim ∈ source.claims,
    claim.low = range.low ∧ claim.high = range.high
  singleKeys : state.singles.toList.map Single.key =
    (source.claims.filter fun claim => claim.low = claim.high).map Claim.low
  rangeKeys : state.ranges.toList.map (fun range => (range.low, range.high)) =
    (source.claims.filter fun claim => claim.low ≠ claim.high).map fun claim =>
      (claim.low, claim.high)
  fromState : pool.Lists (source.fromState.filterMap draft.actionNumber?) state.fromState
  eofTransition : ∀ number, state.eofTransition = some number →
    ∃ branch, source.eofBranch = some branch ∧ pool.Shared draft branch number
  fallback : state.fallback = none →
    source.fallback = none ∧ (draft.leavesGap source = true → errorTransition = none)
  fallbackBranch : ∀ branch, source.fallback = some branch →
    ∃ number, state.fallback = some number ∧ pool.Shared draft branch number
  gap : source.fallback = none →
    state.fallback = if draft.leavesGap source then errorTransition else none
  eofGuard : state.eofGuard = source.eofGuard.map ConditionSpace.id
  eofValues : state.eofValues = if source.eofGuard.isSome then source.eofValues else []

theorem Finished.grow {errorTransition : Option Nat} {before after : Pool}
    (grows : before.Grows after) {source : StateDraft} {state : State}
    (finished : Finished draft errorTransition before source state) :
    Finished draft errorTransition after source state where
  linked := finished.linked.grow grows.transitions.size_le grows.lists.size_le (Nat.le_refl _)
  name := finished.name
  declared := finished.declared
  final := finished.final
  singles claim member single := by
    rcases finished.singles claim member single with ⟨single, inside, same, shared⟩
    exact ⟨single, inside, same, shared.grow grows⟩
  ranges claim member several := by
    rcases finished.ranges claim member several with ⟨range, inside, low, high, shared⟩
    exact ⟨range, inside, low, high, shared.grow grows⟩
  claimedSingles := finished.claimedSingles
  claimedRanges := finished.claimedRanges
  singleKeys := finished.singleKeys
  rangeKeys := finished.rangeKeys
  fromState := finished.fromState.grow grows
  eofTransition number found := by
    rcases finished.eofTransition number found with ⟨branch, own, shared⟩
    exact ⟨branch, own, shared.grow grows⟩
  fallback := finished.fallback
  fallbackBranch branch found := by
    rcases finished.fallbackBranch branch found with ⟨number, same, shared⟩
    exact ⟨number, same, shared.grow grows⟩
  gap := finished.gap
  eofGuard := finished.eofGuard
  eofValues := finished.eofValues

/-- What has become of a branch that may be missing: without it there is the other transition. -/
structure Pool.SharedOr (draft : Draft) (pool : Pool) (other : Option Nat)
    (branch? : Option Branch) (number? : Option Nat) : Prop where
  inside : ∀ number, number? = some number → number < pool.transitions.size
  missing : branch? = none → number? = other
  shared : ∀ branch, branch? = some branch →
    ∃ number, number? = some number ∧ pool.Shared draft branch number

namespace Pool.SharedOr

variable {other number? : Option Nat} {branch? : Option Branch}

theorem grow {before after : Pool} (grows : before.Grows after)
    (shared : before.SharedOr draft other branch? number?) :
    after.SharedOr draft other branch? number? where
  inside number found := Nat.lt_of_lt_of_le (shared.inside number found) grows.transitions.size_le
  missing := shared.missing
  shared branch own := by
    rcases shared.shared branch own with ⟨number, same, become⟩
    exact ⟨number, same, become.grow grows⟩

theorem eq_none (shared : pool.SharedOr draft other branch? number?) (lacks : number? = none) :
    branch? = none ∧ other = none := by
  cases own : branch? with
  | none => exact ⟨rfl, (shared.missing own).symm.trans lacks⟩
  | some branch =>
      rcases shared.shared branch own with ⟨number, same, _⟩
      cases same.symm.trans lacks

theorem exists_branch (shared : pool.SharedOr draft none branch? number?) {number : Nat}
    (found : number? = some number) :
    ∃ branch, branch? = some branch ∧ pool.Shared draft branch number := by
  cases own : branch? with
  | none => cases (shared.missing own).symm.trans found
  | some branch =>
      rcases shared.shared branch own with ⟨other, same, become⟩
      cases same.symm.trans found
      exact ⟨branch, rfl, become⟩

end Pool.SharedOr

theorem shares_shareBranch? (inhabited : 0 < draft.states.size) (closed : pool.Closed draft)
    {state : StateDraft} (declared : state ∈ draft.states) {branch? : Option Branch}
    (inside : ∀ branch, branch? = some branch → branch ∈ branches state) {other : Option Nat}
    (otherInside : ∀ number, other = some number → number < pool.transitions.size) :
    Shares draft pool (draft.shareBranch? other branch?) fun after =>
      after.SharedOr draft other branch? := by
  cases branch? with
  | none =>
      exact .pure closed ⟨otherInside, fun _ => rfl, fun branch impossible => by cases impossible⟩
  | some branch =>
      refine .map (shares_shareBranch inhabited closed declared (inside branch rfl)) ?_
      intro after number shared
      refine ⟨fun other same => Option.some.inj same ▸ shared.inside, ?_, ?_⟩
      · intro impossible
        cases impossible
      · intro other same
        cases same
        exact ⟨number, rfl, shared⟩

structure Pool.HasLists (draft : Draft) (pool : Pool) (source : StateDraft)
    (toState fromState eofActions : Option Nat) : Prop where
  toState : pool.Lists (source.toState.filterMap draft.actionNumber?) toState
  fromState : pool.Lists (source.fromState.filterMap draft.actionNumber?) fromState
  eofActions : pool.Lists (source.eofActions.filterMap draft.actionNumber?) eofActions

theorem Pool.HasLists.grow {before after : Pool} (grows : before.Grows after)
    {source : StateDraft} {toState fromState eofActions : Option Nat}
    (lists : before.HasLists draft source toState fromState eofActions) :
    after.HasLists draft source toState fromState eofActions :=
  ⟨lists.toState.grow grows, lists.fromState.grow grows, lists.eofActions.grow grows⟩

theorem shares_bindLists {α : Type} {holds : Pool → α → Prop} (closed : pool.Closed draft)
    (source : StateDraft) {next : Option Nat → Option Nat → Option Nat → StateM Pool α}
    (further : ∀ toState fromState eofActions after, after.Closed draft → pool.Grows after →
      after.HasLists draft source toState fromState eofActions →
        Shares draft after (next toState fromState eofActions) holds) :
    Shares draft pool (do
      let toState ← draft.shareList source.toState
      let fromState ← draft.shareList source.fromState
      let eofActions ← draft.shareList source.eofActions
      next toState fromState eofActions) holds := by
  refine .bind (shares_shareList closed source.toState) ?_
  intro toState first firstClosed firstGrows toShared
  refine .bind (shares_shareList firstClosed source.fromState) ?_
  intro fromState second secondClosed secondGrows fromShared
  refine .bind (shares_shareList secondClosed source.eofActions) ?_
  intro eofActions third thirdClosed thirdGrows eofShared
  have fromFirst := secondGrows.trans thirdGrows
  exact further _ _ _ third thirdClosed (firstGrows.trans fromFirst)
    ⟨toShared.grow fromFirst, fromShared.grow thirdGrows, eofShared⟩

/-! ### Claims of one key and of several -/

def singlesOf (claims : List (Claim × Nat)) : Array Single :=
  (claims.filterMap fun (claim, transition) =>
    if claim.low = claim.high then some ⟨claim.low, transition⟩ else none).toArray

def rangesOf (claims : List (Claim × Nat)) : Array Range :=
  (claims.filterMap fun (claim, transition) =>
    if claim.low = claim.high then none
    else some ⟨claim.low, claim.high, transition⟩).toArray

theorem mem_singlesOf_iff {claims : List (Claim × Nat)} {single : Single} :
    single ∈ singlesOf claims ↔
      ∃ claim, (claim, single.transition) ∈ claims ∧ claim.low = single.key ∧
        claim.high = single.key := by
  rw [singlesOf, List.mem_toArray, List.mem_filterMap]
  constructor
  · rintro ⟨⟨claim, number⟩, found, made⟩
    dsimp only at made
    split at made
    next one =>
      cases made
      exact ⟨claim, found, rfl, one.symm⟩
    next => cases made
  · rintro ⟨claim, found, low, high⟩
    refine ⟨_, found, ?_⟩
    dsimp only
    rw [if_pos (low.trans high.symm), low]

theorem mem_rangesOf_iff {claims : List (Claim × Nat)} {range : Range} :
    range ∈ rangesOf claims ↔
      ∃ claim, (claim, range.transition) ∈ claims ∧ claim.low = range.low ∧
        claim.high = range.high ∧ claim.low ≠ claim.high := by
  rw [rangesOf, List.mem_toArray, List.mem_filterMap]
  constructor
  · rintro ⟨⟨claim, number⟩, found, made⟩
    dsimp only at made
    split at made
    next => cases made
    next several =>
      cases made
      exact ⟨claim, found, rfl, rfl, several⟩
  · rintro ⟨claim, found, low, high, several⟩
    refine ⟨_, found, ?_⟩
    dsimp only
    rw [if_neg several, low, high]

theorem keys_singlesOf (claims : List (Claim × Nat)) :
    (singlesOf claims).toList.map Single.key =
      ((claims.map Prod.fst).filter fun claim => claim.low = claim.high).map Claim.low := by
  rw [singlesOf, List.toList_toArray, List.filter_map, List.map_map, List.map_filterMap,
    ← List.filterMap_eq_map, List.filterMap_filter]
  congr 1
  funext pair
  by_cases single : pair.1.low = pair.1.high <;> simp [single]

theorem bounds_rangesOf (claims : List (Claim × Nat)) :
    (rangesOf claims).toList.map (fun range => (range.low, range.high)) =
      ((claims.map Prod.fst).filter fun claim => claim.low ≠ claim.high).map fun claim =>
        (claim.low, claim.high) := by
  rw [rangesOf, List.toList_toArray, List.filter_map, List.map_map, List.map_filterMap,
    ← List.filterMap_eq_map, List.filterMap_filter]
  congr 1
  funext pair
  by_cases single : pair.1.low = pair.1.high <;> simp [single]

/-- What has become of the claims of a state: they have their transitions beside them. -/
structure Pool.HasClaims (draft : Draft) (pool : Pool) (source : StateDraft)
    (claims : List (Claim × Nat)) : Prop where
  same : claims.map Prod.fst = source.claims
  shared : ∀ pair ∈ claims, pool.Shared draft pair.1.branch pair.2

namespace Pool.HasClaims

variable {source : StateDraft} {claims : List (Claim × Nat)}

theorem grow {before after : Pool} (grows : before.Grows after)
    (has : before.HasClaims draft source claims) : after.HasClaims draft source claims :=
  ⟨has.same, fun pair member => (has.shared pair member).grow grows⟩

variable (has : pool.HasClaims draft source claims)
include has

theorem exists_pair {claim : Claim} (member : claim ∈ source.claims) :
    ∃ number, (claim, number) ∈ claims ∧ pool.Shared draft claim.branch number := by
  rw [← has.same] at member
  rcases List.mem_map.mp member with ⟨⟨_, number⟩, found, rfl⟩
  exact ⟨number, found, has.shared _ found⟩

theorem exists_single {claim : Claim} (member : claim ∈ source.claims)
    (one : claim.low = claim.high) :
    ∃ single ∈ singlesOf claims, single.key = claim.low ∧
      pool.Shared draft claim.branch single.transition := by
  rcases has.exists_pair member with ⟨number, found, shared⟩
  exact ⟨⟨claim.low, number⟩, mem_singlesOf_iff.mpr ⟨claim, found, rfl, one.symm⟩, rfl, shared⟩

theorem exists_range {claim : Claim} (member : claim ∈ source.claims)
    (several : claim.low ≠ claim.high) :
    ∃ range ∈ rangesOf claims, range.low = claim.low ∧ range.high = claim.high ∧
      pool.Shared draft claim.branch range.transition := by
  rcases has.exists_pair member with ⟨number, found, shared⟩
  exact ⟨⟨claim.low, claim.high, number⟩,
    mem_rangesOf_iff.mpr ⟨claim, found, rfl, rfl, several⟩, rfl, rfl, shared⟩

theorem of_mem_singlesOf {single : Single} (member : single ∈ singlesOf claims) :
    ∃ claim ∈ source.claims, claim.low = single.key ∧ claim.high = single.key ∧
      pool.Shared draft claim.branch single.transition := by
  rcases mem_singlesOf_iff.mp member with ⟨claim, found, low, high⟩
  exact ⟨claim, has.same ▸ List.mem_map_of_mem found, low, high, has.shared _ found⟩

theorem of_mem_rangesOf {range : Range} (member : range ∈ rangesOf claims) :
    ∃ claim ∈ source.claims, claim.low = range.low ∧ claim.high = range.high ∧
      pool.Shared draft claim.branch range.transition := by
  rcases mem_rangesOf_iff.mp member with ⟨claim, found, low, high, _⟩
  exact ⟨claim, has.same ▸ List.mem_map_of_mem found, low, high, has.shared _ found⟩

end Pool.HasClaims

theorem shares_shareClaims (inhabited : 0 < draft.states.size) (closed : pool.Closed draft)
    {source : StateDraft} (declared : source ∈ draft.states) :
    Shares draft pool
      (source.claims.mapM fun claim => return (claim, ← draft.shareBranch claim.branch))
      fun after => after.HasClaims draft source := by
  refine .weaken (Shares.mapM
    (fun (claim : Claim) after (result : Claim × Nat) =>
      result.1 = claim ∧ after.Shared draft claim.branch result.2) ?_ ?_ closed) ?_
  · intro claim before after result grows found
    exact ⟨found.1, found.2.grow grows⟩
  · intro claim member later laterClosed _
    refine .bind (shares_shareBranch inhabited laterClosed declared
      (mem_branches.mpr (.inr (.inr ⟨claim, member, rfl⟩)))) ?_
    intro number after afterClosed _ found
    exact .pure afterClosed ⟨rfl, found⟩
  · intro after claims shared
    rcases shared with ⟨length, each⟩
    refine ⟨?_, ?_⟩
    · refine List.ext_getElem (by simpa using length) fun index _ inside => ?_
      rcases each index _ (List.getElem?_eq_getElem inside) with ⟨pair, pairFound, same, _⟩
      rcases List.getElem?_eq_some_iff.mp pairFound with ⟨_, rfl⟩
      rw [List.getElem_map, same]
    · intro pair member
      rcases Shares.of_mem length each member with ⟨claim, _, same, shared⟩
      rw [same]
      exact shared

/-! ### A whole state -/

section States

variable {source : StateDraft} {errorTransition : Option Nat}

def stateOf (source : StateDraft) (claims : List (Claim × Nat))
    (fallback toState fromState eofActions eofTransition : Option Nat)
    (alternates : List Alternate) : State where
  name := source.name
  final := source.final
  isError := false
  singles := singlesOf claims
  ranges := rangesOf claims
  fallback := fallback
  toState := toState
  fromState := fromState
  eofActions := eofActions
  eofTransition := eofTransition
  eofGuard := source.eofGuard.map ConditionSpace.id
  eofValues := if source.eofGuard.isSome then source.eofValues else []
  alternates := alternates

theorem finished_stateOf {claims : List (Claim × Nat)}
    {fallback toState fromState eofActions eofTransition : Option Nat}
    {alternates : List Alternate} (hasClaims : pool.HasClaims draft source claims)
    (hasFallback : pool.SharedOr draft (if draft.leavesGap source then errorTransition else none)
      source.fallback fallback)
    (hasLists : pool.HasLists draft source toState fromState eofActions)
    (hasEof : pool.SharedOr draft none source.eofBranch eofTransition)
    (reaches : ∀ alternate ∈ alternates, pool.Reaches draft alternate) :
    Finished draft errorTransition pool source
      (stateOf source claims fallback toState fromState eofActions eofTransition alternates) where
  linked := {
    singles := fun single member => by
      rcases hasClaims.of_mem_singlesOf member with ⟨_, _, _, _, shared⟩
      exact shared.inside
    ranges := fun range member => by
      rcases hasClaims.of_mem_rangesOf member with ⟨_, _, _, _, shared⟩
      exact shared.inside
    fallback := hasFallback.inside
    eofTransition := hasEof.inside
    toState := hasLists.toState.inside
    fromState := hasLists.fromState.inside
    eofActions := hasLists.eofActions.inside
    targets := fun alternate member => (reaches alternate member).target
    pushes := fun alternate member => (reaches alternate member).push
    popTests := fun alternate member => (reaches alternate member).popTest }
  name := rfl
  declared := rfl
  final := rfl
  singles _ := hasClaims.exists_single
  ranges _ := hasClaims.exists_range
  claimedSingles single member := by
    rcases hasClaims.of_mem_singlesOf member with ⟨claim, inside, low, high, _⟩
    exact ⟨claim, inside, low, high⟩
  claimedRanges range member := by
    rcases hasClaims.of_mem_rangesOf member with ⟨claim, inside, low, high, _⟩
    exact ⟨claim, inside, low, high⟩
  singleKeys := by
    rw [← hasClaims.same]
    exact keys_singlesOf claims
  rangeKeys := by
    rw [← hasClaims.same]
    exact bounds_rangesOf claims
  fromState := hasLists.fromState
  eofTransition _ := hasEof.exists_branch
  fallback lacks := by
    rcases hasFallback.eq_none lacks with ⟨missing, other⟩
    refine ⟨missing, fun gap => ?_⟩
    rwa [if_pos gap] at other
  fallbackBranch := hasFallback.shared
  gap := hasFallback.missing
  eofGuard := rfl
  eofValues := rfl

theorem shares_shareState (inhabited : 0 < draft.states.size) (closed : pool.Closed draft)
    (declared : source ∈ draft.states)
    (errorInside : ∀ number, errorTransition = some number → number < pool.transitions.size) :
    Shares draft pool (draft.shareState errorTransition source)
      (Finished draft errorTransition · source) := by
  unfold shareState
  refine .bind (shares_shareClaims inhabited closed declared) ?_
  intro claims first firstClosed firstGrows hasClaims
  refine .bind (shares_shareBranch? inhabited firstClosed declared
    (fun branch found => mem_branches.mpr (.inl found)) ?_) ?_
  · intro number found
    split at found
    next => exact Nat.lt_of_lt_of_le (errorInside number found) firstGrows.transitions.size_le
    next => cases found
  intro fallback second secondClosed secondGrows hasFallback
  refine shares_bindLists secondClosed source ?_
  intro toState fromState eofActions third thirdClosed thirdGrows hasLists
  refine .bind (shares_shareBranch? inhabited thirdClosed declared
    (fun branch found => mem_branches.mpr (.inr (.inl found)))
    (fun number missing => by cases missing)) ?_
  intro eofTransition fourth fourthClosed fourthGrows hasEof
  refine .bind (shares_shareAlternates inhabited fourthClosed source.alternates) ?_
  intro alternates after afterClosed afterGrows reaches
  have fromThird := fourthGrows.trans afterGrows
  have fromSecond := thirdGrows.trans fromThird
  have fromFirst := secondGrows.trans fromSecond
  exact .pure afterClosed (finished_stateOf (hasClaims.grow fromFirst)
    (hasFallback.grow fromSecond) (hasLists.grow fromThird) (hasEof.grow afterGrows) reaches)

end States

/-! ### The way into the error state -/

def ErrorWay (conditions : Array ConditionTarget) (transitions : Array Transition)
    (error : Nat) (way : Nat × Nat) : Prop :=
  conditions[way.1]? = some ⟨error, none⟩ ∧ transitions[way.2]? = some ⟨none, #[⟨0, way.1⟩]⟩

theorem shares_shareError (closed : pool.Closed draft) :
    Shares draft pool draft.shareError fun after result =>
      (draft.errorNumber? = none → result = none) ∧
        ∀ error, draft.errorNumber? = some error →
          ∃ way, result = some way ∧ ErrorWay after.conditions after.transitions error way := by
  unfold shareError
  cases needed : draft.errorNumber? with
  | none =>
      refine .pure closed ⟨fun _ => rfl, ?_⟩
      intro error found
      cases found
  | some error =>
      refine .bind (shares_addCondition closed (errorNumber?_lt needed)
        fun number found => by cases found) ?_
      intro condition middle middleClosed _ conditionFound
      let transition : Transition := ⟨none, #[⟨0, condition⟩]⟩
      have outcomes : ∀ outcome ∈ transition.outcomes,
          outcome.condition < middle.conditions.size := by
        intro outcome member
        have same : outcome = ⟨0, condition⟩ := by simpa [transition] using member
        rw [same]
        exact (Array.getElem?_eq_some_iff.mp conditionFound).1
      refine .bind (shares_addTransition middleClosed outcomes (fun number found => by cases found)
        (.inl ⟨condition, rfl⟩)) ?_
      intro number after afterClosed grows transitionFound
      refine .pure afterClosed ⟨(by intro missing; cases missing), ?_⟩
      intro other found
      cases found
      exact ⟨(condition, number), rfl, grows.conditions _ _ conditionFound, transitionFound⟩

end Parts

end Draft

end StateTables
