import StateTables.Proofs.Lookup
import StateTables.Proofs.StateColumns

/-! # States are read back from their columns

Besides the transitions on keys a state has actions, an end-of-input transition with its guard, and
alternates. The columns that all layouts share hold them through places, offsets and slots. With
all of these followed, the columns say about every state what the graph says.
-/

namespace StateTables

/-! ## What a state does besides reading keys -/

/-- What a transition does for one condition value. Without an action list there are no actions. -/
structure Effect where
  value : ConditionValue
  target : Nat
  actions : Option (List Nat)
deriving DecidableEq, Repr

/-- A state that may be tried instead, with the actions on the way there and back. -/
structure Detour where
  target : Nat
  push : Option (List Nat)
  popTest : Option (List Nat)
deriving DecidableEq, Repr

/-- What a state does besides reading keys, with all references followed. -/
structure Conduct where
  toState : Option (List Nat)
  fromState : Option (List Nat)
  eofActions : Option (List Nat)
  /-- The condition space and the effects of the end-of-input transition. -/
  eofTransition : Option (Option Nat × List Effect)
  eofGuard : Option Nat
  eofValues : List ConditionValue
  alternates : List Detour
deriving DecidableEq, Repr

namespace Graph

variable (graph : Graph)

def actions? : Option Nat → Option (Option (List Nat))
  | none => some none
  | some number => do
    let list ← graph.lists[number]?
    return some list.actions

def effect? (outcome : Outcome) : Option Effect := do
  let condition ← graph.conditions[outcome.condition]?
  let actions ← graph.actions? condition.actions
  return ⟨outcome.value, condition.target, actions⟩

def effects? : Option Nat → Option (Option (Option Nat × List Effect))
  | none => some none
  | some number => do
    let transition ← graph.transitions[number]?
    let effects ← transition.outcomes.toList.mapM graph.effect?
    return some (transition.space, effects)

def detour? (alternate : Alternate) : Option Detour := do
  let push ← graph.actions? alternate.push
  let popTest ← graph.actions? alternate.popTest
  return ⟨alternate.target, push, popTest⟩

def conduct? (state : State) : Option Conduct := do
  let toState ← graph.actions? state.toState
  let fromState ← graph.actions? state.fromState
  let eofActions ← graph.actions? state.eofActions
  let eofTransition ← graph.effects? state.eofTransition
  let alternates ← state.alternates.mapM graph.detour?
  return ⟨toState, fromState, eofActions, eofTransition, state.eofGuard, state.eofValues,
    alternates⟩

end Graph

namespace Encoding

variable (encoding : Encoding)

def actions? (location : Nat) : Except Fault (Option (List Nat)) :=
  if location = 0 then return none else some <$> encoding.actionsAt location

def effectOf (entry : Entry) : Except Fault Effect := do
  let actions ← encoding.actions? entry.actions
  return ⟨entry.value, entry.target, actions⟩

def effectsAt : Option Nat → Except Fault (Option (Option Nat × List Effect))
  | none => return none
  | some slot => do
    let space ← encoding.spaceOf slot
    let entries ← encoding.entriesAt slot
    let effects ← entries.mapM encoding.effectOf
    return some (space, effects)

def detourOf (pending : PendingMove) : Except Fault Detour := do
  let push ← encoding.actions? pending.push
  let popTest ← encoding.actions? pending.popTest
  return ⟨pending.target, push, popTest⟩

def conductOf (state : Nat) : Except Fault Conduct := do
  let toState ← encoding.program.toState state >>= encoding.actions?
  let fromState ← encoding.program.fromState state >>= encoding.actions?
  let eofActions ← encoding.program.eofActions state >>= encoding.actions?
  let eofTransition ← encoding.program.eofTransition state >>= encoding.effectsAt
  let guard ← encoding.program.eofGuard state
  let pending ← encoding.program.alternates state
  let alternates ← pending.mapM encoding.detourOf
  return ⟨toState, fromState, eofActions, eofTransition, guard.map Prod.fst,
    (guard.map Prod.snd).getD [], alternates⟩

end Encoding

/-! ## What is read is what is said -/

/-- Something is said, and it is what is read. -/
def ReadsBack {α : Type} (said : Option α) (read : Except Fault α) : Prop :=
  ∃ value, said = some value ∧ read = .ok value

namespace ReadsBack

variable {α β : Type} {said : Option α} {read : Except Fault α}

theorem pure (value : α) : ReadsBack (some value) (.ok value) :=
  ⟨value, rfl, rfl⟩

theorem bind {next : α → Option β} {further : α → Except Fault β} (first : ReadsBack said read)
    (rest : ∀ value, ReadsBack (next value) (further value)) :
    ReadsBack (said >>= next) (read >>= further) := by
  rcases first with ⟨value, rfl, rfl⟩
  exact rest value

theorem mapM {parts : List α} {say : α → Option β} {reading : α → Except Fault β}
    (each : ∀ part ∈ parts, ReadsBack (say part) (reading part)) :
    ReadsBack (parts.mapM say) (parts.mapM reading) := by
  induction parts with
  | nil => exact pure []
  | cons part rest induction =>
      rw [List.mapM_cons, List.mapM_cons]
      refine (each part (by simp)).bind fun first => ?_
      refine (induction fun other member => each other (by simp [member])).bind fun others => ?_
      exact pure (first :: others)

end ReadsBack

/-! ## Reading the parts of a state -/

namespace Graph

variable {graph : Graph} {options : EncodingOptions} {encoding : Encoding}

theorem Laid.location_pos (laid : graph.Laid options encoding) {number : Nat} {list : ActionList}
    (found : graph.lists[number]? = some list) : list.location.toNat ≠ 0 := by
  have place := location_of_misplaced laid.actionTable_counts.1 (by simpa using found)
  omega

theorem Laid.readsBack_actions (laid : graph.Laid options encoding) {list : Option Nat}
    (inside : ∀ number, list = some number → number < graph.lists.size) :
    ReadsBack (graph.actions? list) (encoding.actions? (graph.location list)) := by
  cases list with
  | none => exact .pure none
  | some number =>
      have inRange := inside number rfl
      have found := Array.getElem?_eq_getElem inRange
      have place : graph.location (some number) = graph.lists[number].location.toNat := by
        simp [location, found]
      refine ⟨some graph.lists[number].actions, by simp [actions?, found], ?_⟩
      rw [Encoding.actions?, place, if_neg (laid.location_pos found),
        laid.actionsAt_list (Array.mem_of_getElem? found)]
      rfl

theorem Laid.readsBack_effect (laid : graph.Laid options encoding) (linked : graph.Linked)
    {transition : Transition} (used : transition ∈ graph.transitions) {outcome : Outcome}
    (member : outcome ∈ transition.outcomes) :
    ReadsBack (graph.effect? outcome) (encoding.effectOf (graph.entryOf outcome)) := by
  have inRange := linked.outcomes transition used outcome member
  have target := Array.getElem?_eq_getElem inRange
  have lists := linked.conditionLists _ (Array.mem_of_getElem? target)
  have condition : graph.conditionAt outcome.condition = graph.conditions[outcome.condition] := by
    rw [conditionAt, target, Option.getD_some]
  unfold effect? Encoding.effectOf entryOf
  rw [target, condition]
  exact (laid.readsBack_actions lists).bind fun actions => .pure _

theorem Laid.readsBack_eofTransition (laid : graph.Laid options encoding) (linked : graph.Linked)
    {id : Nat} {state : State} (declared : graph.states[id]? = some state) :
    ReadsBack (graph.effects? state.eofTransition)
      (encoding.eofTransition id >>= encoding.effectsAt) := by
  have slotted := laid.eofTransition declared
  cases transition : state.eofTransition with
  | none =>
      simp only [transition] at slotted
      rw [slotted]
      exact .pure none
  | some number =>
      simp only [transition] at slotted
      rcases slotted with ⟨slot, read, isSlot⟩
      have inside := (linked.states state (Array.mem_of_getElem? declared)).eofTransition number
        transition
      have found := Array.getElem?_eq_getElem inside
      have stands : Laid.At graph options slot number graph.transitions[number] := ⟨isSlot, found⟩
      rw [read]
      change ReadsBack _ (encoding.effectsAt (some slot))
      unfold effects? Encoding.effectsAt
      dsimp only
      rw [found, laid.spaceOf_slot stands, laid.entriesAt linked stands]
      change ReadsBack (_ >>= _) (List.mapM _ _ >>= _)
      rw [List.mapM_map]
      refine ReadsBack.bind (.mapM fun outcome member => ?_) fun effects => .pure _
      exact laid.readsBack_effect linked (Array.mem_of_getElem? found) (by simpa using member)

theorem Laid.readsBack_alternates (laid : graph.Laid options encoding) (linked : graph.Linked)
    {id : Nat} {state : State} (declared : graph.states[id]? = some state) :
    ReadsBack (state.alternates.mapM graph.detour?)
      ((state.alternates.map graph.pendingOf).mapM encoding.detourOf) := by
  have own := linked.states state (Array.mem_of_getElem? declared)
  rw [List.mapM_map]
  refine .mapM fun alternate member => ?_
  refine (laid.readsBack_actions (own.pushes alternate member)).bind fun push => ?_
  exact (laid.readsBack_actions (own.popTests alternate member)).bind fun popTest => .pure _

theorem Built.eofValues_eq_nil (built : graph.Built) {state : State} (member : state ∈ graph.states)
    (unguarded : state.eofGuard = none) : state.eofValues = [] := by
  rcases built with ⟨draft, after, drafted, result⟩
  rcases Draft.build_eq_ok result with ⟨_, started, _, rfl, _⟩
  rcases mem_mergeDuplicates_states member with ⟨old, inside, rfl⟩
  rcases Draft.mem_assemble_states (drafted.consistent.inhabited started) inside with
    ⟨_, way, _, rfl, _⟩ | ⟨source, _, finished⟩
  · rfl
  · change old.eofGuard = none at unguarded
    rw [finished.eofGuard, Option.map_eq_none_iff] at unguarded
    change old.eofValues = []
    rw [finished.eofValues, unguarded]
    rfl

/-- The columns of an encoding say about every state of a graph that was built what the graph says:
the actions on entering it, on leaving it and at the end of input, the end-of-input transition with
its condition space and outcomes, the guard with its values, and the alternates in order. The draft
of the graph names only condition spaces of its own. -/
theorem conduct_reads_back (built : graph.Built) (encoded : graph.encode options = .ok encoding)
    {id : Nat} {state : State} (declared : graph.states[id]? = some state) :
    ∃ conduct, graph.conduct? state = some conduct ∧ encoding.conductOf id = .ok conduct := by
  have laid := laid_of_encode encoded
  have linked := built.wired.linked
  have member := Array.mem_of_getElem? declared
  have own := linked.states state member
  unfold Encoding.conductOf
  rw [show encoding.program.toState id = _ from stateActions_eq_ok laid.toState declared,
    show encoding.program.fromState id = _ from stateActions_eq_ok laid.fromState declared,
    show encoding.program.eofActions id = _ from laid.eofActions declared,
    show encoding.program.eofGuard id = _ from laid.eofGuard declared,
    laid.alternatesOf declared]
  refine (laid.readsBack_actions own.toState).bind fun toState => ?_
  refine (laid.readsBack_actions own.fromState).bind fun fromState => ?_
  refine (laid.readsBack_actions own.eofActions).bind fun eofActions => ?_
  refine (laid.readsBack_eofTransition linked declared).bind fun eofTransition => ?_
  refine (laid.readsBack_alternates linked declared).bind fun alternates => ?_
  cases guard : state.eofGuard with
  | none =>
      -- The runtime does not ask for values without a guard, and the graph has none.
      rw [built.eofValues_eq_nil member guard]
      exact .pure _
  | some space => exact .pure _

end Graph

/-! ## A small graph with all parts -/

namespace Sample

def fullDraft : Draft :=
  let even : ConditionSpace := ⟨0, ["even"]⟩
  let operations : List DraftStep := [
    .internSpace even.conditions,
    .setStart "open",
    .markFinal ["closed"],
    .addClaim "open" ⟨.ofInt 10, .ofInt 20, .plain ⟨"closed", ["note"]⟩⟩,
    .setFallback "open" (.plain ⟨"open", []⟩),
    .setToState "open" ["enter", "note"],
    .setFromState "open" ["leave"],
    .setEofActions "closed" ["note"],
    .setEofTransition "open" ⟨"closed", ["leave", "note"]⟩,
    .guardEof "open" even [1],
    .addAlternate "open" ⟨"aside", ["note"], ["leave"]⟩,
    .addAlternate "open" ⟨"closed", [], []⟩]
  operations.foldl Draft.perform (.empty "full" (.full ⟨true, .one⟩))

def fullGraph : Graph :=
  fullDraft.assemble.mergeDuplicates

theorem built_fullGraph : fullGraph.Built := by
  have drafted : fullDraft.Drafted := (Draft.Drafted.empty _ _).foldl (by decide +kernel)
  exact Graph.built_of_checks drafted (by decide +kernel)

def directOptions : EncodingOptions where
  kind := .binary
  indices := .never
  classMap := false
  maxSpan := 0
  alternates := true
  endOfInput := true

theorem exists_directEncoding : ∃ encoding, fullGraph.encode directOptions = .ok encoding :=
  exists_of_isOk (by decide +kernel)

end Sample

/-- The conduct of the starting state of the sample is read back from sorted rows. -/
theorem conduct_reads_back_sample : ∃ encoding,
    Sample.fullGraph.encode Sample.directOptions = .ok encoding ∧
    ∃ conduct, (Sample.fullGraph.states[1]?.bind Sample.fullGraph.conduct?) = some conduct ∧
      encoding.conductOf 1 = .ok conduct := by
  rcases Sample.exists_directEncoding with ⟨encoding, encoded⟩
  have inside : 1 < Sample.fullGraph.states.size := by decide +kernel
  have declared := Array.getElem?_eq_getElem inside
  refine ⟨encoding, encoded, ?_⟩
  rw [declared]
  exact Graph.conduct_reads_back Sample.built_fullGraph encoded declared

end StateTables
