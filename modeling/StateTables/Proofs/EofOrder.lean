import Mathlib.Data.Finset.Card
import Mathlib.Data.Finset.Range
import Mathlib.Data.List.Perm.Subperm
import Mathlib.Logic.Relation
import StateTables.Proofs.TableSafety

/-! # Orders along end-of-input transitions

The search for cycles of end-of-input transitions comes to an end on every graph. It finds a state
on a cycle, or there is no cycle: the states it is done with are the reason, since those a state
leads to are done before it. Without a cycle states can be ranked: every end-of-input transition
leads to states of lower rank.
-/

namespace StateTables

namespace Graph

variable (graph : Graph)

/-- An end-of-input transition of the first state may lead to the second one. -/
def EofLeads (state next : Nat) : Prop :=
  next ∈ graph.eofSuccessors state

variable {graph}

def jumps (graph : Graph) (actions : List Nat) : List Nat :=
  actions.filterMap fun number => graph.actions[number]?.bind Action.target

theorem jumps_cons {number : Nat} {action : Action} (found : graph.actions[number]? = some action)
    (rest : List Nat) :
    graph.jumps (number :: rest) = action.target.toList ++ graph.jumps rest := by
  cases target : action.target <;> simp [jumps, found, target]

theorem targetsOf_eq {number : Nat} {condition : ConditionTarget}
    (found : graph.conditions[number]? = some condition) : graph.targetsOf number =
      condition.target :: graph.jumps (graph.actionsOf condition.actions) := by
  simp only [targetsOf, found]
  rfl

theorem eofLeads_iff {id next : Nat} : graph.EofLeads id next ↔
    ∃ state number transition, graph.states[id]? = some state ∧
      state.eofTransition = some number ∧ graph.transitions[number]? = some transition ∧
      ∃ outcome ∈ transition.outcomes, next ∈ graph.targetsOf outcome.condition := by
  unfold EofLeads eofSuccessors
  constructor
  · intro leads
    split at leads
    next => simp at leads
    next transition found =>
      rcases Option.bind_eq_some_iff.mp found with ⟨number, own, stored⟩
      rcases Option.bind_eq_some_iff.mp own with ⟨state, declared, isOwn⟩
      rcases List.mem_flatMap.mp leads with ⟨outcome, member, aims⟩
      exact ⟨state, number, transition, declared, isOwn, stored, outcome, by simpa using member,
        aims⟩
  · rintro ⟨state, number, transition, declared, isOwn, stored, outcome, member, aims⟩
    simp only [declared, isOwn, stored, Option.bind_some]
    exact List.mem_flatMap.mpr ⟨outcome, by simpa using member, aims⟩

theorem EofLeads.declared {state next : Nat} (leads : graph.EofLeads state next) :
    state < graph.states.size := by
  rcases eofLeads_iff.mp leads with ⟨_, _, _, declared, _⟩
  exact (Array.getElem?_eq_some_iff.mp declared).1

theorem EofLeads.lt (linked : graph.Linked) {state next : Nat}
    (leads : graph.EofLeads state next) : next < graph.states.size := by
  rcases eofLeads_iff.mp leads with ⟨_, _, transition, _, _, stored, outcome, member, aims⟩
  have inside := linked.outcomes transition (Array.mem_of_getElem? stored) outcome member
  rw [targetsOf_eq (Array.getElem?_eq_getElem inside)] at aims
  rcases List.mem_cons.mp aims with own | acted
  · exact own ▸ linked.targets _ (Array.getElem_mem inside)
  · rcases List.mem_filterMap.mp acted with ⟨number, _, aimed⟩
    rcases Option.bind_eq_some_iff.mp aimed with ⟨action, stored, isTarget⟩
    exact linked.actionTargets action (Array.mem_of_getElem? stored) next isTarget

/-! ## The search without a bound -/

/-- The search for cycles with no bound on its depth. The states given are visited in order;
`active` are those on the path to them, `done` those known to lead into no cycle. The search ends
with a state met twice on a path, or with the states that are done. -/
inductive EofSearch (graph : Graph) :
    (active done states : List Nat) → Except Nat (List Nat) → Prop
  | finished {active done : List Nat} : EofSearch graph active done [] (.ok done)
  | circles {active done rest : List Nat} {state : Nat} : state ∈ active →
      EofSearch graph active done (state :: rest) (.error state)
  | known {active done rest : List Nat} {state : Nat} {outcome : Except Nat (List Nat)} :
      state ∉ active → state ∈ done → EofSearch graph active done rest outcome →
        EofSearch graph active done (state :: rest) outcome
  | fails {active done rest : List Nat} {state found : Nat} : state ∉ active → state ∉ done →
      EofSearch graph (state :: active) done (graph.eofSuccessors state) (.error found) →
        EofSearch graph active done (state :: rest) (.error found)
  | passes {active done after rest : List Nat} {state : Nat} {outcome : Except Nat (List Nat)} :
      state ∉ active → state ∉ done →
        EofSearch graph (state :: active) done (graph.eofSuccessors state) (.ok after) →
          EofSearch graph active (state :: after) rest outcome →
            EofSearch graph active done (state :: rest) outcome

/-- A path of different states that lead on is not longer than there are states, so the bound on
the depth is never felt. -/
theorem eofSearch_foldlM (fuel : Nat) {active : List Nat}
    (deep : graph.states.size < fuel + active.length) (apart : active.Nodup)
    (inside : ∀ id ∈ active, id < graph.states.size) (states before : List Nat) :
    graph.EofSearch active before states
      (states.foldlM (graph.visitEof fuel active) before) := by
  induction fuel generalizing active states before with
  | zero =>
      have within : active ⊆ List.range graph.states.size :=
        fun id member => List.mem_range.mpr (inside id member)
      have short := (List.subperm_of_subset apart within).length_le
      rw [List.length_range] at short
      omega
  | succ fuel deeper =>
      induction states generalizing before with
      | nil => exact .finished
      | cons state rest others =>
          rw [List.foldlM_cons, visitEof]
          split
          next isActive => exact .circles (by simpa using isActive)
          next fresh =>
            have fresh : state ∉ active := by simpa using fresh
            split
            next isDone => exact .known fresh (by simpa using isDone) (others before)
            next isOpen =>
              have isOpen : state ∉ before := by simpa using isOpen
              have below : graph.EofSearch (state :: active) before (graph.eofSuccessors state)
                  ((graph.eofSuccessors state).foldlM (graph.visitEof fuel (state :: active))
                    before) := by
                cases successors : graph.eofSuccessors state with
                | nil => exact .finished
                | cons next others =>
                    -- Only declared states lead on, so the path stays among them.
                    have leads : graph.EofLeads state next := by simp [EofLeads, successors]
                    apply deeper (by simp; omega) (List.nodup_cons.mpr ⟨fresh, apart⟩)
                    exact List.forall_mem_cons.mpr ⟨leads.declared, inside⟩
              cases visited : (graph.eofSuccessors state).foldlM
                  (graph.visitEof fuel (state :: active)) before with
              | error found => exact .fails fresh isOpen (visited ▸ below)
              | ok after => exact .passes fresh isOpen (visited ▸ below) (others _)

/-- The search of all states comes to an end, and how it ends is the answer. -/
theorem eofSearch_eofCycle (graph : Graph) :
    (∃ settled, graph.EofSearch [] [] (List.range graph.states.size) (.ok settled) ∧
      graph.eofCycle = none) ∨
    ∃ state, graph.EofSearch [] [] (List.range graph.states.size) (.error state) ∧
      graph.eofCycle = some state := by
  have searched := eofSearch_foldlM (graph.states.size + 1)
    (by simp : graph.states.size < graph.states.size + 1 + [].length) .nil (by simp)
    (List.range graph.states.size) []
  unfold eofCycle
  dsimp only
  generalize (List.range graph.states.size).foldlM
    (graph.visitEof (graph.states.size + 1) []) [] = outcome at searched
  cases outcome with
  | ok settled => exact .inl ⟨settled, searched, rfl⟩
  | error state => exact .inr ⟨state, searched, rfl⟩

theorem EofSearch.circle {active before states : List Nat} {found : Nat}
    (search : graph.EofSearch active before states (.error found))
    (path : ∀ id ∈ active, ∀ state ∈ states, Relation.TransGen graph.EofLeads id state) :
    Relation.TransGen graph.EofLeads found found := by
  generalize same : Except.error found = outcome at search
  induction search with
  | finished => cases same
  | circles isActive =>
      cases same
      exact path _ isActive _ (by simp)
  | known _ _ _ others =>
      exact others (fun id isActive state member => path id isActive state (by simp [member])) same
  | fails _ _ _ below =>
      refine below (fun id isActive next leads => ?_) same
      rcases List.mem_cons.mp isActive with rfl | old
      · exact .single leads
      · exact (path id old _ (by simp)).tail leads
  | passes _ _ _ _ _ others =>
      exact others (fun id isActive state member => path id isActive state (by simp [member])) same

/-! ## What the search is done with -/

/-- States are done after those their end-of-input transitions may lead to. -/
inductive Settled (graph : Graph) : List Nat → Prop
  | nil : Settled graph []
  | cons {state : Nat} {earlier : List Nat} :
      (∀ next, graph.EofLeads state next → next ∈ earlier) → Settled graph earlier →
        Settled graph (state :: earlier)

/-- A search that succeeds is done with all states it was asked for and those from before. -/
theorem EofSearch.settles {active before states after : List Nat}
    (search : graph.EofSearch active before states (.ok after)) (settled : graph.Settled before) :
    graph.Settled after ∧ before ⊆ after ∧ states ⊆ after := by
  generalize same : Except.ok after = outcome at search
  induction search generalizing after with
  | finished =>
      cases same
      exact ⟨settled, fun _ => id, by simp⟩
  | circles => cases same
  | known _ isDone _ others =>
      rcases others settled same with ⟨afterSettled, grows, asked⟩
      exact ⟨afterSettled, grows, List.cons_subset.mpr ⟨grows isDone, asked⟩⟩
  | fails => cases same
  | passes _ _ _ _ below others =>
      rcases below settled rfl with ⟨middleSettled, grows, asked⟩
      rcases others (.cons (fun next leads => asked leads) middleSettled) same with
        ⟨afterSettled, growsMore, rest⟩
      rcases List.cons_subset.mp growsMore with ⟨own, middle⟩
      exact ⟨afterSettled, fun _ old => middle (grows old), List.cons_subset.mpr ⟨own, rest⟩⟩

theorem Settled.mem {settled : List Nat} (isSettled : graph.Settled settled) {id next : Nat}
    (member : id ∈ settled) (leads : graph.EofLeads id next) : next ∈ settled := by
  induction isSettled with
  | nil => simp at member
  | cons before _ induction =>
      rcases List.mem_cons.mp member with rfl | old
      · exact List.mem_cons_of_mem _ (before next leads)
      · exact List.mem_cons_of_mem _ (induction old)

theorem Settled.mem_of_path {settled : List Nat} (isSettled : graph.Settled settled) {id next : Nat}
    (member : id ∈ settled) (path : Relation.ReflTransGen graph.EofLeads id next) :
    next ∈ settled := by
  induction path with
  | refl => exact member
  | tail _ leads induction => exact isSettled.mem induction leads

/-- No state that is done lies on a cycle. -/
theorem Settled.acyclic {settled : List Nat} (isSettled : graph.Settled settled) {id : Nat}
    (member : id ∈ settled) : ¬Relation.TransGen graph.EofLeads id id := by
  induction isSettled with
  | nil => simp at member
  | cons before earlier induction =>
      intro cycle
      rcases List.mem_cons.mp member with rfl | old
      · rcases Relation.TransGen.head'_iff.mp cycle with ⟨next, leads, back⟩
        exact induction (earlier.mem_of_path (before next leads) back) cycle
      · exact induction old cycle

/-! ## Cycles -/

theorem eofCycle_eq_none (acyclic : ∀ id, ¬Relation.TransGen graph.EofLeads id id) :
    graph.eofCycle = none := by
  rcases graph.eofSearch_eofCycle with ⟨_, _, isNone⟩ | ⟨state, search, _⟩
  · exact isNone
  · exact absurd (search.circle (by simp)) (acyclic state)

theorem acyclic_of_eofCycle (noCycle : graph.eofCycle = none) (id : Nat) :
    ¬Relation.TransGen graph.EofLeads id id := by
  intro cycle
  rcases graph.eofSearch_eofCycle with ⟨settled, search, _⟩ | ⟨state, _, found⟩
  · rcases Relation.TransGen.head'_iff.mp cycle with ⟨_, leads, _⟩
    rcases search.settles .nil with ⟨isSettled, _, all⟩
    exact isSettled.acyclic (all (List.mem_range.mpr leads.declared)) cycle
  · cases noCycle.symm.trans found

open Classical in
/-- Without a cycle, ranks fall along every end-of-input transition: a state leads to more states
than those it leads to do. -/
theorem exists_rank_of_eofCycle (linked : graph.Linked) (noCycle : graph.eofCycle = none) :
    ∃ rank : Nat → Nat, ∀ state next, graph.EofLeads state next → rank next < rank state := by
  refine ⟨fun state => ((Finset.range graph.states.size).filter
    fun other => Relation.TransGen graph.EofLeads state other).card, fun state next leads => ?_⟩
  apply Finset.card_lt_card
  rw [Finset.ssubset_iff_of_subset]
  · refine ⟨next, ?_, ?_⟩
    · exact Finset.mem_filter.mpr ⟨Finset.mem_range.mpr (leads.lt linked), .single leads⟩
    · exact fun own => acyclic_of_eofCycle noCycle next (Finset.mem_filter.mp own).2
  · intro other member
    rcases Finset.mem_filter.mp member with ⟨declared, path⟩
    exact Finset.mem_filter.mpr ⟨declared, .head leads path⟩

/-! ## The answer of the search -/

/-- A state has an end-of-input transition with an outcome that leads to another state, or that runs
an action whose target is the other state. -/
def EofOutcome (graph : Graph) (id next : Nat) : Prop :=
  ∃ state number transition, graph.states[id]? = some state ∧
    state.eofTransition = some number ∧ graph.transitions[number]? = some transition ∧
    ∃ outcome ∈ transition.outcomes, ∃ condition,
      graph.conditions[outcome.condition]? = some condition ∧
      (condition.target = next ∨
        ∃ place list, condition.actions = some place ∧ graph.lists[place]? = some list ∧
          ∃ number ∈ list.actions, ∃ action, graph.actions[number]? = some action ∧
            action.target = some next)

theorem mem_jumps_actionsOf {list : Option Nat} {next : Nat} :
    next ∈ graph.jumps (graph.actionsOf list) ↔
      ∃ place entry, list = some place ∧ graph.lists[place]? = some entry ∧
        ∃ number ∈ entry.actions, ∃ action, graph.actions[number]? = some action ∧
          action.target = some next := by
  unfold jumps actionsOf
  cases list with
  | none => simp
  | some place => cases found : graph.lists[place]? <;> simp [found, Option.bind_eq_some_iff]

theorem eofOutcome_iff {id next : Nat} : graph.EofOutcome id next ↔ graph.EofLeads id next := by
  rw [eofLeads_iff]
  constructor
  · rintro ⟨state, number, transition, declared, isOwn, stored, outcome, member, condition, found,
      aims⟩
    refine ⟨state, number, transition, declared, isOwn, stored, outcome, member, ?_⟩
    rw [targetsOf_eq found, List.mem_cons, mem_jumps_actionsOf]
    exact aims.imp_left Eq.symm
  · rintro ⟨state, number, transition, declared, isOwn, stored, outcome, member, aims⟩
    refine ⟨state, number, transition, declared, isOwn, stored, outcome, member, ?_⟩
    cases found : graph.conditions[outcome.condition]? with
    | none => simp [targetsOf, found] at aims
    | some condition =>
        rw [targetsOf_eq found, List.mem_cons, mem_jumps_actionsOf] at aims
        exact ⟨condition, rfl, aims.imp_left Eq.symm⟩

/-- The search of a graph comes to an end without any bound on its depth. It finds nothing if and
only if no state leads back to itself along end-of-input transitions, and a state that it finds
does. -/
theorem eofCycle_finds_cycles (graph : Graph) :
    ((∃ settled, graph.EofSearch [] [] (List.range graph.states.size) (.ok settled) ∧
        graph.eofCycle = none) ∨
      ∃ state, graph.EofSearch [] [] (List.range graph.states.size) (.error state) ∧
        graph.eofCycle = some state) ∧
    (graph.eofCycle = none ↔ ∀ id, ¬Relation.TransGen graph.EofOutcome id id) ∧
    ∀ id, graph.eofCycle = some id → Relation.TransGen graph.EofOutcome id id := by
  have same : graph.EofOutcome = graph.EofLeads := by
    funext id next
    exact propext eofOutcome_iff
  rw [same]
  refine ⟨graph.eofSearch_eofCycle, ⟨acyclic_of_eofCycle, eofCycle_eq_none⟩, ?_⟩
  intro id found
  rcases graph.eofSearch_eofCycle with ⟨_, _, isNone⟩ | ⟨state, search, isFound⟩
  · cases isNone.symm.trans found
  · cases isFound.symm.trans found
    exact search.circle (by simp)

end Graph

end StateTables
