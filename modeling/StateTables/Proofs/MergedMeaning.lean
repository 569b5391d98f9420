import StateTables.Proofs.Realization

/-! # Merging keeps the meaning of graphs

Merging duplicates renumbers action lists, condition targets and transitions, and rewrites all
references to them. Under their new numbers, every key and every condition value leads to the same
state as before, and the actions on the way are the same, each replaced by the first action that
does what it does. No reference leads to a part that was dropped.
-/

namespace StateTables

/-! ## Searches do not see the numbers of transitions -/

theorem Search.position_map {α β : Type} {rows : Array α} {change : α → β} {view : α → Nat}
    {changedView : β → Nat} {number : Nat → Nat} {probe changedProbe : Nat → Ordering}
    (probes : ∀ index, changedProbe index = probe index)
    (views : ∀ row, changedView (change row) = number (view row)) :
    ((position changedProbe (rows.map change).size).bind fun index =>
        (rows.map change)[index]?.map changedView) =
      ((position probe rows.size).bind fun index => rows[index]?.map view).map number := by
  rw [funext probes, Array.size_map, Option.map_bind]
  congr 1
  funext index
  simp [Function.comp_def, views]

namespace Graph

variable (lists transitions : Array Nat) (state : State) (alphabet : Alphabet) (key : Key)

theorem locateSingle_mergeState :
    (mergeState lists transitions state).locateSingle alphabet key =
      (state.locateSingle alphabet key).map (renumber transitions) := by
  apply Search.position_map
  · intro index
    simp only [mergeState, Array.getElem?_map]
    cases state.singles[index]? <;> rfl
  · exact fun _ => rfl

theorem locateRange_mergeState :
    (mergeState lists transitions state).locateRange alphabet key =
      (state.locateRange alphabet key).map (renumber transitions) := by
  apply Search.position_map
  · intro index
    simp only [mergeState, Array.getElem?_map]
    cases state.ranges[index]? <;> rfl
  · exact fun _ => rfl

theorem locate_mergeState :
    (mergeState lists transitions state).locate alphabet key =
      (state.locate alphabet key).map (renumber transitions) := by
  unfold State.locate
  rw [locateSingle_mergeState, locateRange_mergeState]
  cases state.locateSingle alphabet key with
  | some number => rfl
  | none => cases state.locateRange alphabet key <;> rfl

end Graph

theorem Transition.lookup_map (transition : Transition) (change : Nat → Nat)
    (value : ConditionValue) :
    lookup { transition with outcomes := transition.outcomes.map fun outcome =>
        { outcome with condition := change outcome.condition } } value =
      (transition.lookup value).map change := by
  apply Search.position_map
  · intro index
    simp only [Array.getElem?_map]
    cases transition.outcomes[index]? <;> rfl
  · exact fun _ => rfl

theorem State.Linked.locate_lt {transitions lists states : Nat} {state : State}
    (linked : state.Linked transitions lists states) {alphabet : Alphabet} {key : Key}
    {number : Nat} (located : state.locate alphabet key = some number) : number < transitions := by
  unfold State.locate at located
  rw [Option.or_eq_some_iff, Option.or_eq_some_iff] at located
  rcases located with onSingle | ⟨_, onRange | ⟨_, fallback⟩⟩
  · rcases Option.bind_eq_some_iff.mp onSingle with ⟨index, _, found⟩
    rcases Option.map_eq_some_iff.mp found with ⟨single, stored, rfl⟩
    exact linked.singles single (Array.mem_of_getElem? stored)
  · rcases Option.bind_eq_some_iff.mp onRange with ⟨index, _, found⟩
    rcases Option.map_eq_some_iff.mp found with ⟨range, stored, rfl⟩
    exact linked.ranges range (Array.mem_of_getElem? stored)
  · exact linked.fallback number fallback

namespace Graph

/-! ## What merging keeps of every part -/

/-- The number of the first action of the same kind, code, target and, without code, name. -/
def firstSame (graph : Graph) (number : Nat) : Nat :=
  match graph.actions[number]? with
  | some action => (graph.actions.findIdx? fun other => other.Same action).getD number
  | none => number

section Kept

variable (before after : Graph)

/-- The lists are the same, but for actions that the first of their kind stands for. -/
def KeepsList : Option Nat → Option Nat → Prop :=
  Option.Rel fun old new => ∃ list merged, before.lists[old]? = some list ∧
    after.lists[new]? = some merged ∧ merged.actions = list.actions.map before.firstSame

def KeepsCondition (old new : Nat) : Prop :=
  ∃ condition merged, before.conditions[old]? = some condition ∧
    after.conditions[new]? = some merged ∧ merged.target = condition.target ∧
    KeepsList before after condition.actions merged.actions

def KeepsTransition (old new : Nat) : Prop :=
  ∃ transition merged, before.transitions[old]? = some transition ∧
    after.transitions[new]? = some merged ∧ merged.space = transition.space ∧
    ∀ value, Option.Rel (KeepsCondition before after) (transition.lookup value)
      (merged.lookup value)

def KeepsAlternate (old new : Alternate) : Prop :=
  new.target = old.target ∧ KeepsList before after old.push new.push ∧
    KeepsList before after old.popTest new.popTest

structure KeepsState (old new : State) : Prop where
  name : new.name = old.name
  final : new.final = old.final
  isError : new.isError = old.isError
  toState : KeepsList before after old.toState new.toState
  fromState : KeepsList before after old.fromState new.fromState
  eofActions : KeepsList before after old.eofActions new.eofActions
  eofGuard : new.eofGuard = old.eofGuard
  eofValues : new.eofValues = old.eofValues
  eofTransition : Option.Rel (KeepsTransition before after) old.eofTransition new.eofTransition
  alternates : List.Forall₂ (KeepsAlternate before after) old.alternates new.alternates

/-- The graphs mean the same. -/
structure KeepsMeaning : Prop where
  alphabet : after.alphabet = before.alphabet
  start : after.start = before.start
  error : after.error = before.error
  firstFinal : after.firstFinal = before.firstFinal
  actions : after.actions = before.actions
  spaces : after.spaces = before.spaces
  keys : ∀ state key, Option.Rel (KeepsTransition before after) (before.locate state key)
    (after.locate state key)
  states : List.Forall₂ (KeepsState before after) before.states.toList after.states.toList
  errorTransition : Option.Rel (KeepsTransition before after) before.errorTransition
    after.errorTransition
  errorCondition : Option.Rel (KeepsCondition before after) before.errorCondition
    after.errorCondition

end Kept

variable {graph : Graph}

/-- Fingerprints tell actions apart, so the first with a fingerprint is the first that does the
same. -/
theorem canonicalAction_eq_firstSame (apart : graph.TellsApart) (number : Nat) :
    graph.canonicalAction number = graph.firstSame number := by
  unfold canonicalAction firstSame
  cases stored : graph.actions[number]? with
  | none => rfl
  | some action =>
      have member := Array.mem_of_getElem? stored
      have predicates : (graph.actions.findIdx? fun other => fingerprint other = fingerprint action)
          = graph.actions.findIdx? fun other => other.Same action := by
        cases first : graph.actions.findIdx? fun other =>
            fingerprint other = fingerprint action with
        | none =>
            have unequal := Array.findIdx?_eq_none_iff.mp first action member
            simp at unequal
        | some position =>
            rcases Array.findIdx?_eq_some_iff_getElem.mp first with ⟨inside, same, earlier⟩
            symm
            refine Array.findIdx?_eq_some_iff_getElem.mpr ⟨inside, ?_, fun index before alike => ?_⟩
            · simpa using apart _ (Array.getElem_mem inside) _ member (by simpa using same)
            · exact earlier index before (by simpa using (of_decide_eq_true alike).fingerprint_eq)
      dsimp only
      rw [predicates]

theorem rel_map_of_forall {α : Type} {relates : α → α → Prop} {change : α → α} {value : Option α}
    (each : ∀ inner, value = some inner → relates inner (change inner)) :
    Option.Rel relates value (value.map change) := by
  cases value with
  | none => exact .none
  | some inner => exact .some (each inner rfl)

section Merging

variable (linked : graph.Linked) (apart : graph.TellsApart)
include apart

theorem keepsList {reference : Option Nat}
    (inside : ∀ number, reference = some number → number < graph.lists.size) :
    KeepsList graph graph.mergeDuplicates reference
      (reference.map (renumber graph.listNumbers)) := by
  apply rel_map_of_forall
  intro number referred
  have stored := Array.getElem?_eq_getElem (inside number referred)
  rcases exists_merged_list stored with ⟨merged, found, actions⟩
  refine ⟨_, merged, stored, found, actions.trans ?_⟩
  rw [funext (canonicalAction_eq_firstSame apart)]

include linked

theorem keepsCondition {number : Nat} (inside : number < graph.conditions.size) :
    KeepsCondition graph graph.mergeDuplicates number
      (renumber graph.conditionNumbers number) := by
  have stored := Array.getElem?_eq_getElem inside
  refine ⟨_, _, stored, getElem?_merged_condition stored, rfl, ?_⟩
  exact keepsList apart (linked.conditionLists _ (Array.mem_of_getElem? stored))

theorem keepsTransition {number : Nat} (inside : number < graph.transitions.size) :
    KeepsTransition graph graph.mergeDuplicates number
      (renumber graph.transitionNumbers number) := by
  have stored := Array.getElem?_eq_getElem inside
  refine ⟨_, _, stored, getElem?_merged_transition stored, rfl, fun value => ?_⟩
  rw [Transition.lookup_map]
  apply rel_map_of_forall
  intro condition looked
  rcases Option.bind_eq_some_iff.mp looked with ⟨index, _, found⟩
  rcases Option.map_eq_some_iff.mp found with ⟨outcome, position, rfl⟩
  exact keepsCondition linked apart (linked.outcomes _ (Array.mem_of_getElem? stored) outcome
    (Array.mem_of_getElem? position))

theorem keepsState {state : State} (member : state ∈ graph.states) :
    KeepsState graph graph.mergeDuplicates state
      (mergeState graph.listNumbers graph.transitionNumbers state) := by
  have own := linked.states state member
  exact {
    name := rfl
    final := rfl
    isError := rfl
    toState := keepsList apart own.toState
    fromState := keepsList apart own.fromState
    eofActions := keepsList apart own.eofActions
    eofGuard := rfl
    eofValues := rfl
    eofTransition := rel_map_of_forall fun number found =>
      keepsTransition linked apart (own.eofTransition number found)
    alternates := by
      refine List.forall₂_map_right_iff.mpr (List.forall₂_same.mpr fun alternate inside => ?_)
      exact ⟨rfl, keepsList apart (own.pushes alternate inside),
        keepsList apart (own.popTests alternate inside)⟩ }

theorem keepsTransition_locate (state : Nat) (key : Key) :
    Option.Rel (KeepsTransition graph graph.mergeDuplicates) (graph.locate state key)
      (graph.mergeDuplicates.locate state key) := by
  unfold locate
  rw [mergeDuplicates_eq, Array.getElem?_map]
  cases stored : graph.states[state]? with
  | none => exact .none
  | some own =>
      dsimp only [Option.map_some]
      rw [locate_mergeState]
      apply rel_map_of_forall
      intro number located
      have inside := (linked.states own (Array.mem_of_getElem? stored)).locate_lt located
      exact keepsTransition linked apart inside

theorem keepsMeaning_mergeDuplicates
    (errorTransition : ∀ number, graph.errorTransition = some number →
      number < graph.transitions.size)
    (errorCondition : ∀ number, graph.errorCondition = some number →
      number < graph.conditions.size) :
    graph.KeepsMeaning graph.mergeDuplicates where
  alphabet := rfl
  start := rfl
  error := rfl
  firstFinal := rfl
  actions := rfl
  spaces := rfl
  keys := keepsTransition_locate linked apart
  states := by
    rw [mergeDuplicates_eq, Array.toList_map]
    refine List.forall₂_map_right_iff.mpr (List.forall₂_same.mpr fun state member => ?_)
    exact keepsState linked apart (Array.mem_toList_iff.mp member)
  errorTransition := rel_map_of_forall fun number found =>
    keepsTransition linked apart (errorTransition number found)
  errorCondition := rel_map_of_forall fun number found =>
    keepsCondition linked apart (errorCondition number found)

end Merging

end Graph

namespace Draft

variable {draft : Draft}

theorem errorWay_lt (inhabited : 0 < draft.states.size) :
    (∀ number, draft.assemble.errorTransition = some number →
      number < draft.assemble.transitions.size) ∧
    ∀ number, draft.assemble.errorCondition = some number →
      number < draft.assemble.conditions.size := by
  have assembly := (shares_shareAll inhabited).2.2
  have way : ∀ way, (draft.shareAll .empty).1.1 = some way →
      way.2 < draft.assemble.transitions.size ∧ way.1 < draft.assemble.conditions.size := by
    intro way shared
    cases needed : draft.errorNumber? with
    | none => cases (assembly.unneeded needed).symm.trans shared
    | some number =>
        rcases assembly.way number needed with ⟨other, same, condition, transition⟩
        cases same.symm.trans shared
        exact ⟨(Array.getElem?_eq_some_iff.mp transition).1,
          (Array.getElem?_eq_some_iff.mp condition).1⟩
  constructor
  all_goals
    intro number found
    rcases Option.map_eq_some_iff.mp found with ⟨pair, shared, rfl⟩
  · exact (way pair shared).1
  · exact (way pair shared).2

/-- Merging keeps the meaning of every graph that was assembled from a draft, and all references of
the merged graph lead to parts it has. The draft names only condition spaces of its own. -/
theorem merging_keeps_meaning (drafted : draft.Drafted) (started : draft.start ≠ "")
    (apart : draft.assemble.TellsApart) :
    draft.assemble.KeepsMeaning draft.assemble.mergeDuplicates ∧
      draft.assemble.mergeDuplicates.Linked ∧
      (∀ number, draft.assemble.mergeDuplicates.errorTransition = some number →
        number < draft.assemble.mergeDuplicates.transitions.size) ∧
      ∀ number, draft.assemble.mergeDuplicates.errorCondition = some number →
        number < draft.assemble.mergeDuplicates.conditions.size := by
  have consistent := drafted.consistent
  have inhabited := consistent.inhabited started
  have linked := linked_assemble inhabited consistent
  rcases errorWay_lt inhabited with ⟨transition, condition⟩
  refine ⟨Graph.keepsMeaning_mergeDuplicates linked apart transition condition,
    linked.mergeDuplicates, fun _ => ?_, fun _ => ?_⟩
  · exact Graph.renumbered_lt (fun _ => Graph.renumber_transition_lt) transition
  · exact Graph.renumbered_lt (fun _ => Graph.renumber_condition_lt) condition

end Draft

namespace Sample

def doubled : Draft :=
  let operations : List DraftStep := [
    .setStart "idle",
    .markFinal ["busy"],
    .defineAction ⟨"count", .hook, "count++", ""⟩,
    .defineAction ⟨"trace", .hook, "count++", ""⟩,
    .addClaim "idle" ⟨.ofInt 1, .ofInt 1, .plain ⟨"busy", ["count"]⟩⟩,
    .addClaim "idle" ⟨.ofInt 2, .ofInt 9, .plain ⟨"busy", ["trace"]⟩⟩,
    .setToState "busy" ["trace"],
    .addAlternate "busy" ⟨"idle", ["trace"], ["count"]⟩]
  operations.foldl Draft.perform (.empty "doubled" (.full ⟨true, .one⟩))

end Sample

/-- The second list and the third transition of the sample are dropped. -/
theorem merging_keeps_meaning_sample :
    Sample.doubled.assemble.lists.size = 2 ∧
      Sample.doubled.assemble.mergeDuplicates.lists.size = 1 ∧
      Sample.doubled.assemble.locate 1 (.ofInt 5) = some 2 ∧
      Sample.doubled.assemble.mergeDuplicates.locate 1 (.ofInt 5) = some 1 ∧
      Sample.doubled.assemble.KeepsMeaning Sample.doubled.assemble.mergeDuplicates := by
  have drafted : Sample.doubled.Drafted := (Draft.Drafted.empty _ _).foldl (by decide +kernel)
  have apart : Sample.doubled.assemble.TellsApart := by
    unfold Graph.TellsApart
    decide +kernel
  have kept := Draft.merging_keeps_meaning drafted (by decide +kernel) apart
  exact ⟨by decide +kernel, by decide +kernel, by decide +kernel, by decide +kernel, kept.1⟩

end StateTables
