import Mathlib.Algebra.GroupWithZero.Nat
import Mathlib.Data.List.Nodup
import StateTables.Proofs.Merging

/-! # Merged graphs are canonical

Merging duplicates brings a graph into a canonical form: no two of its action lists, condition
targets or transitions are equal, lists refer to the first of the actions that do the same, and
they lie one behind the other in the table of actions. A graph in this form is not changed by
merging, and no other graph is left as it is.
-/

namespace StateTables

/-! ## Numbering distinct values -/

namespace Search

variable {α : Type} [DecidableEq α]

theorem intern_of_not_mem {seen : Array α} {value : α} (new : value ∉ seen) :
    intern seen value = (seen.push value, seen.size) := by
  have missing : seen.findIdx? (fun other => other = value) = none := by
    rw [Array.findIdx?_eq_none_iff]
    intro other member
    exact decide_eq_false fun same => new (same ▸ member)
  rw [intern, missing]

theorem nodup_intern {seen : Array α} (nodup : seen.toList.Nodup) (value : α) :
    (intern seen value).1.toList.Nodup := by
  by_cases known : value ∈ seen
  · unfold intern
    split
    next => exact nodup
    next missing =>
      have differs := Array.findIdx?_eq_none_iff.mp missing value known
      simp at differs
  · rw [intern_of_not_mem known, Array.toList_push]
    refine List.nodup_append.mpr ⟨nodup, List.nodup_singleton value, ?_⟩
    intro other member last isLast same
    rw [same, List.mem_singleton.mp isLast] at member
    exact known (by simpa using member)

theorem nodup_distinct (values : Array α) : (distinct values).1.toList.Nodup := by
  rw [distinct_eq_foldl]
  suffices each : ∀ (more : List α) (state : Array α × Array Nat), state.1.toList.Nodup →
      (more.foldl distinctStep state).1.toList.Nodup from each values.toList (#[], #[]) .nil
  intro more
  induction more with
  | nil => exact fun state nodup => nodup
  | cons value rest induction => exact fun state nodup => induction _ (nodup_intern nodup value)

theorem distinct_of_nodup {values : Array α} (nodup : values.toList.Nodup) :
    distinct values = (values, Array.range values.size) := by
  rw [distinct_eq_foldl]
  suffices each : ∀ (more : List α) (seen : Array α), (seen.toList ++ more).Nodup →
      more.foldl distinctStep (seen, Array.range seen.size) =
        ((seen.toList ++ more).toArray, Array.range (seen.toList ++ more).length) by
    have whole := each values.toList #[] nodup
    rwa [Array.toList_empty, List.nil_append, Array.toArray_toList, Array.length_toList] at whole
  intro more
  induction more with
  | nil => simp
  | cons value rest induction =>
      intro seen nodup
      have new : value ∉ seen := fun member =>
        List.disjoint_of_nodup_append nodup (by simpa using member) List.mem_cons_self
      rw [List.foldl_cons, distinctStep, intern_of_not_mem new]
      have further := induction (seen.push value) (by simpa using nodup)
      rw [Array.size_push, Array.range_succ] at further
      simpa using further

end Search

namespace Graph

@[simp] theorem renumber_range (count : Nat) : renumber (Array.range count) = id := by
  funext number
  rw [renumber, Array.getElem?_range]
  split <;> rfl

/-! ## Actions -/

variable {graph : Graph} {action : Nat}

/-- No action in front of this one does the same. -/
def IsFirst (graph : Graph) (action : Nat) : Prop :=
  ∀ earlier < action, ∀ subject other, graph.actions[action]? = some subject →
    graph.actions[earlier]? = some other → fingerprint other ≠ fingerprint subject

theorem canonicalAction_eq_self (first : graph.IsFirst action) :
    graph.canonicalAction action = action := by
  unfold canonicalAction
  split
  next subject found =>
    rcases Array.getElem?_eq_some_iff.mp found with ⟨inside, same⟩
    have position : graph.actions.findIdx? (fun other => fingerprint other = fingerprint subject) =
        some action := by
      refine Array.findIdx?_eq_some_iff_getElem.mpr ⟨inside, by simp [same], ?_⟩
      intro earlier before
      have inRange : earlier < graph.actions.size := Nat.lt_trans before inside
      simpa using first earlier before subject _ found (Array.getElem?_eq_getElem inRange)
    rw [position, Option.getD_some]
  next => rfl

theorem isFirst_canonicalAction (graph : Graph) (action : Nat) :
    graph.IsFirst (graph.canonicalAction action) := by
  unfold canonicalAction
  split
  next subject found =>
    cases position : graph.actions.findIdx? fun other =>
        fingerprint other = fingerprint subject with
    | none =>
        have differs := Array.findIdx?_eq_none_iff.mp position subject (Array.mem_of_getElem? found)
        simp at differs
    | some first =>
        rcases Array.findIdx?_eq_some_iff_getElem.mp position with ⟨inside, alike, before⟩
        intro earlier order firstAction other firstFound otherFound same
        rcases Array.getElem?_eq_some_iff.mp firstFound with ⟨_, rfl⟩
        rcases Array.getElem?_eq_some_iff.mp otherFound with ⟨_, rfl⟩
        exact before earlier order (by simpa using same.trans (by simpa using alike))
  next missing =>
    intro earlier _ subject _ found
    cases missing.symm.trans found

/-! ## Places of action lists -/

section Places

variable {location : UInt32} {place : Nat} {lists : List ActionList}

/-- The lists lie one behind the other, the first one at a given location. Locations are words, so
behind the last of them they start over. -/
structure Consecutive (location : UInt32) (lists : List ActionList) : Prop where
  first : ∀ list, lists[0]? = some list → list.location = location
  next : ∀ (index : Nat) (list behind : ActionList), lists[index]? = some list →
    lists[index + 1]? = some behind →
      behind.location = list.location + UInt32.ofNat (1 + list.actions.length)

theorem Consecutive.tail {list : ActionList} {rest : List ActionList}
    (consecutive : Consecutive location (list :: rest)) :
    Consecutive (location + UInt32.ofNat (1 + list.actions.length)) rest where
  first behind found := by
    rw [consecutive.next 0 list behind rfl found, consecutive.first list rfl]
  next index := consecutive.next (index + 1)

theorem consecutive_placeLists (location : UInt32) (lists : List (List Nat)) :
    Consecutive location (placeLists location lists) := by
  induction lists generalizing location with
  | nil => exact ⟨by simp [placeLists], by simp [placeLists]⟩
  | cons actions rest induction =>
      have further := induction (location + UInt32.ofNat (1 + actions.length))
      refine ⟨fun list found => ?_, fun index list behind found next => ?_⟩
      · cases found
        rfl
      · cases index with
        | zero =>
            cases found
            exact further.first behind next
        | succ index => exact further.next index list behind found next

theorem placeLists_of_consecutive (consecutive : Consecutive location lists) :
    placeLists location (lists.map ActionList.actions) = lists := by
  induction lists generalizing location with
  | nil => rfl
  | cons list rest induction =>
      have place := consecutive.first list rfl
      rw [List.map_cons, placeLists, induction consecutive.tail, ← place]

/-- The lists lie one behind the other, with their locations taken as numbers. -/
structure Contiguous (place : Nat) (lists : List ActionList) : Prop where
  first : ∀ list, lists[0]? = some list → list.location.toNat = place
  next : ∀ (index : Nat) (list behind : ActionList), lists[index]? = some list →
    lists[index + 1]? = some behind →
      behind.location.toNat = list.location.toNat + 1 + list.actions.length

theorem Contiguous.tail {list : ActionList} {rest : List ActionList}
    (contiguous : Contiguous place (list :: rest)) :
    Contiguous (place + 1 + list.actions.length) rest where
  first behind found := by
    rw [contiguous.next 0 list behind rfl found, contiguous.first list rfl]
  next index := contiguous.next (index + 1)

/-- The cells of the lists in front of one: each has a cell for its length, and one per action. -/
def cellsBefore (lists : List ActionList) (index : Nat) : Nat :=
  ((lists.take index).map fun list => 1 + list.actions.length).sum

theorem cellsBefore_succ {index : Nat} {list : ActionList} (found : lists[index]? = some list) :
    cellsBefore lists (index + 1) = cellsBefore lists index + 1 + list.actions.length := by
  unfold cellsBefore
  rw [List.take_add_one, found, List.map_append, List.sum_append, Nat.add_assoc]
  rfl

/-- A location counts the cells in front of its list, modulo the number of locations. -/
theorem Consecutive.location_eq (consecutive : Consecutive location lists) {index : Nat}
    {list : ActionList} (found : lists[index]? = some list) :
    list.location = location + UInt32.ofNat (cellsBefore lists index) := by
  induction index generalizing list with
  | zero => simpa [cellsBefore] using consecutive.first list found
  | succ index induction =>
      have inside : index < lists.length :=
        Nat.lt_of_succ_lt (List.getElem?_eq_some_iff.mp found).1
      have before := List.getElem?_eq_getElem inside
      rw [consecutive.next index _ list before found, induction before, cellsBefore_succ before,
        Nat.add_assoc, UInt32.ofNat_add (cellsBefore lists index), UInt32.add_assoc]

theorem Contiguous.toNat_eq (contiguous : Contiguous place lists) {index : Nat}
    {list : ActionList} (found : lists[index]? = some list) :
    list.location.toNat = place + cellsBefore lists index := by
  induction index generalizing list with
  | zero => simpa [cellsBefore] using contiguous.first list found
  | succ index induction =>
      have inside : index < lists.length :=
        Nat.lt_of_succ_lt (List.getElem?_eq_some_iff.mp found).1
      have before := List.getElem?_eq_getElem inside
      rw [contiguous.next index _ list before found, induction before, cellsBefore_succ before]
      omega

/-- Locations are the places of consecutive lists as long as there are enough of them. -/
theorem Consecutive.contiguous_iff (consecutive : Consecutive (UInt32.ofNat place) lists) :
    Contiguous place lists ↔
      ∀ index < lists.length, place + cellsBefore lists index < UInt32.size := by
  constructor
  · intro contiguous index inside
    rw [← contiguous.toNat_eq (List.getElem?_eq_getElem inside)]
    exact UInt32.toNat_lt_size _
  · intro enough
    have places : ∀ {index : Nat} {list : ActionList}, lists[index]? = some list →
        list.location.toNat = place + cellsBefore lists index := by
      intro index list found
      have bound := enough index (List.getElem?_eq_some_iff.mp found).1
      rw [consecutive.location_eq found, ← UInt32.ofNat_add, UInt32.toNat_ofNat']
      exact Nat.mod_eq_of_lt bound
    refine ⟨fun list found => ?_, fun index list behind found next => ?_⟩
    · simpa [cellsBefore] using places found
    · rw [places next, places found, cellsBefore_succ found]
      omega

end Places

/-- Every action list starts at a cell whose number is a location. -/
def Locatable (graph : Graph) : Prop :=
  ∀ index < graph.lists.size, 1 + cellsBefore graph.lists.toList index < UInt32.size

instance (graph : Graph) : Decidable graph.Locatable :=
  inferInstanceAs (Decidable (∀ index < graph.lists.size,
    1 + cellsBefore graph.lists.toList index < UInt32.size))

/-! ## The canonical form -/

/-- Nothing in the graph is there twice, and its action lists lie one behind the other from
location one on. -/
structure Canonical (graph : Graph) : Prop where
  actions : ∀ list ∈ graph.lists, ∀ action ∈ list.actions, graph.IsFirst action
  lists : (graph.lists.toList.map ActionList.actions).Nodup
  conditions : graph.conditions.toList.Nodup
  transitions : graph.transitions.toList.Nodup
  places : Consecutive 1 graph.lists.toList

theorem canonical_mergeDuplicates (graph : Graph) : graph.mergeDuplicates.Canonical where
  actions := by
    intro list member action listed
    have merged := mem_of_mem_distinct (Array.mem_toList_iff.mp
      (mem_placeLists (List.mem_toArray.mp member)))
    rcases Array.mem_map.mp merged with ⟨source, _, same⟩
    rw [← same] at listed
    rcases List.mem_map.mp listed with ⟨old, _, rfl⟩
    exact graph.isFirst_canonicalAction old
  lists := by
    rw [mergeDuplicates_eq, List.toList_toArray, map_actions_placeLists]
    exact Search.nodup_distinct _
  conditions := Search.nodup_distinct _
  transitions := Search.nodup_distinct _
  places := by
    rw [mergeDuplicates_eq, List.toList_toArray]
    exact consecutive_placeLists 1 _

/-! ### Merging a canonical graph -/

section Fixed

variable (canonical : graph.Canonical)
include canonical

theorem distinct_canonicalLists : Search.distinct graph.canonicalLists =
    (graph.lists.map ActionList.actions, Array.range graph.lists.size) := by
  have kept : graph.canonicalLists = graph.lists.map ActionList.actions := by
    apply Array.map_congr_left
    intro list member
    have each : list.actions.map graph.canonicalAction = list.actions.map id :=
      List.map_congr_left fun action listed =>
        canonicalAction_eq_self (canonical.actions list member action listed)
    rw [each, List.map_id]
  rw [kept, Search.distinct_of_nodup (by simpa using canonical.lists), Array.size_map]

theorem distinct_canonicalConditions : Search.distinct graph.canonicalConditions =
    (graph.conditions, Array.range graph.conditions.size) := by
  have kept : graph.canonicalConditions = graph.conditions := by
    unfold canonicalConditions listNumbers
    rw [distinct_canonicalLists canonical]
    simp
  rw [kept, Search.distinct_of_nodup canonical.conditions]

theorem distinct_canonicalTransitions : Search.distinct graph.canonicalTransitions =
    (graph.transitions, Array.range graph.transitions.size) := by
  have kept : graph.canonicalTransitions = graph.transitions := by
    unfold canonicalTransitions conditionNumbers
    rw [distinct_canonicalConditions canonical]
    simp
  rw [kept, Search.distinct_of_nodup canonical.transitions]

theorem mergeDuplicates_eq_self : graph.mergeDuplicates = graph := by
  rw [mergeDuplicates_eq]
  unfold listNumbers transitionNumbers conditionNumbers
  rw [distinct_canonicalLists canonical, distinct_canonicalConditions canonical,
    distinct_canonicalTransitions canonical]
  have lists := placeLists_of_consecutive canonical.places
  have states : mergeState (Array.range graph.lists.size) (Array.range graph.transitions.size) =
      id := by
    funext state
    simp [mergeState]
  simp [lists, states]

end Fixed

/-- In a canonical graph, each location is larger than the one before by one and the length of the
list there, unless there are more cells than locations. -/
theorem Canonical.contiguous_iff (canonical : graph.Canonical) :
    Contiguous 1 graph.lists.toList ↔ graph.Locatable := by
  unfold Locatable
  rw [← Array.length_toList]
  exact canonical.places.contiguous_iff

end Graph

end StateTables
