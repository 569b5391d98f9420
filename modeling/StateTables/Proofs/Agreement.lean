import StateTables.Proofs.Lookup
import StateTables.Proofs.StateColumns
import StateTables.Proofs.Steps

/-! # Programs that agree

Two programs agree if they give the same answers to all questions a machine asks.
They may number transitions in their own ways. An encoding agrees with its graph:
the slots of the one stand for transitions of the other.
-/

namespace StateTables

open Step (Answers Both)

/-- What a machine may come across: the states there are, and the places of actions. -/
structure Bounds where
  states : Nat
  IsPlace : Nat → Prop

namespace Bounds

def Contains (bounds : Bounds) (move : Move) : Prop :=
  move.target < bounds.states ∧ bounds.IsPlace move.actions

def ContainsAll (bounds : Bounds) (pending : List PendingMove) : Prop :=
  ∀ move ∈ pending, move.target < bounds.states ∧ bounds.IsPlace move.push ∧
    bounds.IsPlace move.popTest

end Bounds

/-- Two programs answer alike within bounds, and the answers stay within them. -/
structure Program.Agrees (bounds : Bounds) (related : Nat → Nat → Prop)
    (left right : Program) : Prop where
  alphabet : left.alphabet = right.alphabet
  start : left.start = right.start
  firstFinal : left.firstFinal = right.firstFinal
  error : left.error = right.error
  actions : left.actions = right.actions
  spaces : left.spaces = right.spaces
  usesControl : left.usesControl = right.usesControl
  startInside : left.start < bounds.states
  errorInside : ∀ state, left.error = some state → state < bounds.states
  targetsInside : ∀ action ∈ left.actions, ∀ target, action.target = some target →
    target < bounds.states
  spacesSmall : ∀ space ∈ left.spaces, space.size ≤ 32
  locate : ∀ state < bounds.states, ∀ key, left.alphabet.contains key = true →
    Answers related (left.locate state key) (right.locate state key)
  spaceOf : ∀ transition other, related transition other →
    Answers Eq (left.spaceOf transition) (right.spaceOf other)
  plainMove : ∀ transition other, related transition other →
    left.spaceOf transition = .ok none →
      Answers (Both bounds.Contains) (left.plainMove transition) (right.plainMove other)
  guardedMove : ∀ transition other, related transition other → ∀ value : ConditionValue,
    value.toNat < 2 ^ 32 →
      Answers (Both bounds.Contains) (left.guardedMove transition value)
        (right.guardedMove other value)
  actionsAt : ∀ location, bounds.IsPlace location → location ≠ 0 →
    Answers Eq (left.actionsAt location) (right.actionsAt location)
  toState : ∀ state < bounds.states,
    Answers (Both bounds.IsPlace) (left.toState state) (right.toState state)
  fromState : ∀ state < bounds.states,
    Answers (Both bounds.IsPlace) (left.fromState state) (right.fromState state)
  eofActions : ∀ state < bounds.states,
    Answers (Both bounds.IsPlace) (left.eofActions state) (right.eofActions state)
  eofTransition : ∀ state < bounds.states,
    Answers (Option.Rel related) (left.eofTransition state) (right.eofTransition state)
  eofGuard : ∀ state < bounds.states, Answers Eq (left.eofGuard state) (right.eofGuard state)
  alternates : ∀ state < bounds.states,
    Answers (Both bounds.ContainsAll) (left.alternates state) (right.alternates state)

/-! ## Condition values -/

theorem toInt_toInt64 {value : UInt64} (small : value.toNat < 2 ^ 32) :
    value.toInt64.toInt = value.toNat := by
  rw [← Int64.toInt_toBitVec, UInt64.toBitVec_toInt64, BitVec.toInt_eq_toNat_of_lt]
  · rfl
  · change 2 * value.toNat < 2 ^ 64
    omega

theorem compare_toInt64 {value other : UInt64} (small : value.toNat < 2 ^ 32)
    (otherSmall : other.toNat < 2 ^ 32) :
    compare value.toInt64 other.toInt64 = compare value other := by
  have first := toInt_toInt64 small
  have second := toInt_toInt64 otherSmall
  rcases Nat.lt_trichotomy value.toNat other.toNat with less | same | greater
  · rw [Std.compare_eq_lt.mpr (UInt64.lt_iff_toNat_lt.mpr less), Std.compare_eq_lt,
      Int64.lt_iff_toInt_lt]
    omega
  · rw [UInt64.toNat_inj.mp same]
    simp
  · rw [Std.compare_eq_gt.mpr (UInt64.lt_iff_toNat_lt.mpr greater), Std.compare_eq_gt,
      Int64.lt_iff_toInt_lt]
    omega

namespace Transition

variable {spaces : Array ConditionSpace} {transition : Transition}

theorem Ordered.value_lt (ordered : transition.Ordered spaces)
    (small : ∀ space ∈ spaces, space.size ≤ 32) {outcome : Outcome}
    (member : outcome ∈ transition.outcomes) : outcome.value.toNat < 2 ^ 32 := by
  cases ordered with
  | plain condition _ outcomes =>
      rw [outcomes] at member
      have same : outcome = ⟨0, condition⟩ := by simpa using member
      rw [same]
      change (0 : Nat) < 2 ^ 32
      decide
  | guarded _ space _ found _ within =>
      have below := within outcome member
      have few := small space (Array.mem_of_getElem? found)
      rw [UInt64.lt_iff_toNat_lt, ConditionSpace.toNat_combinations few] at below
      have power : 2 ^ space.size ≤ 2 ^ 32 := Nat.pow_le_pow_right (by omega) few
      omega

end Transition

namespace Graph

def bounds (graph : Graph) : Bounds where
  states := graph.states.size
  IsPlace := graph.IsPlace

variable {graph : Graph} {options : EncodingOptions} {encoding : Encoding}

/-! ## Moves -/

theorem Linked.move (linked : graph.Linked) {transition : Transition}
    (used : transition ∈ graph.transitions) {outcome : Outcome}
    (member : outcome ∈ transition.outcomes) :
    ∃ condition, graph.conditions[outcome.condition]? = some condition ∧
      graph.bounds.Contains ⟨condition.target, graph.location condition.actions⟩ := by
  have found := Array.getElem?_eq_getElem (linked.outcomes transition used outcome member)
  exact ⟨_, found, linked.targets _ (Array.mem_of_getElem? found), graph.isPlace_location _⟩

theorem moveOf_eq_ok {condition : ConditionTarget} {number : Nat}
    (found : graph.conditions[number]? = some condition) :
    graph.moveOf number = .ok ⟨condition.target, graph.location condition.actions⟩ := by
  unfold moveOf part
  rw [found]
  rfl

section Slot

variable {slot number : Nat} {transition : Transition}

theorem Laid.plainMove (laid : graph.Laid options encoding) (wired : graph.Wired)
    (valid : graph.Valid) (stands : Laid.At graph options slot number transition)
    (unguarded : transition.space = none) :
    Answers (Both graph.bounds.Contains) (encoding.program.plainMove slot)
      (graph.program.plainMove number) := by
  have used := Array.mem_of_getElem? stands.transition
  cases valid.transitions transition used with
  | guarded _ _ numbered => cases unguarded.symm.trans numbered
  | plain condition _ outcomes =>
      have first : transition.outcomes[0]? = some ⟨0, condition⟩ := by rw [outcomes]; rfl
      rcases wired.linked.move used (Array.mem_of_getElem? first) with ⟨target, found, inside⟩
      refine ⟨_, _, ?_, ?_, rfl, inside⟩
      · change (encoding.transitions.offsets.readIndex slot >>= _) = _
        rw [(laid.bounds_slot stands).1]
        exact (laid.condition_entry (Laid.getElem?_entries stands first) found).2
      · change (part "transitions" graph.transitions number >>= _) = _
        unfold part
        rw [stands.transition]
        change (part "outcomes" transition.outcomes 0 >>= _) = _
        unfold part
        rw [first]
        exact moveOf_eq_ok found

def sideOf (encoding : Encoding) (value : ConditionValue) (entry : Nat) :
    Except Fault Ordering := do
  return Ord.compare value.toInt64 (← encoding.conditions.keys.read entry)

/-- The entry for a condition value is that of the outcome with the value, or the error
entry. -/
theorem Laid.entryFor (laid : graph.Laid options encoding) (wired : graph.Wired)
    (valid : graph.Valid) (stands : Laid.At graph options slot number transition)
    {value : ConditionValue} (small : value.toNat < 2 ^ 32) :
    encoding.entryFor slot value = .ok (((Search.position
      (Search.among (fun outcome => compare value outcome.value) transition.outcomes)
      transition.outcomes.size).map (startOf graph options slot + ·)).getD encoding.errorEntry) := by
  have used := Array.mem_of_getElem? stands.transition
  rcases laid.bounds_slot stands with ⟨start, count⟩
  have reads : ∀ index, 0 ≤ index → index < transition.outcomes.size →
      sideOf encoding value (startOf graph options slot + index) =
        pure (Search.among (fun outcome => compare value outcome.value) transition.outcomes
          index) := by
    intro index _ inside
    have found := Array.getElem?_eq_getElem inside
    have member := Array.mem_of_getElem? found
    rcases wired.linked.move used member with ⟨target, stored, _⟩
    have otherSmall := (valid.transitions transition used).value_lt
      (fun space member => (wired.exhaustive.small space member).2) member
    unfold sideOf
    rw [(laid.condition_entry (Laid.getElem?_entries stands found) stored).1,
      Search.among_of_getElem? found, ← compare_toInt64 small otherSmall]
    rfl
  have searched := Search.bisect_eq_pure reads
  unfold Encoding.entryFor
  rw [start, count]
  change (Search.bisect (sideOf encoding value) (startOf graph options slot + 0) _ >>= _) = _
  rw [searched]
  rfl

theorem Laid.guardedMove (laid : graph.Laid options encoding) (wired : graph.Wired)
    (valid : graph.Valid) (stands : Laid.At graph options slot number transition)
    {value : ConditionValue} (small : value.toNat < 2 ^ 32) :
    Answers (Both graph.bounds.Contains) (encoding.program.guardedMove slot value)
      (graph.program.guardedMove number value) := by
  have used := Array.mem_of_getElem? stands.transition
  have left : ∀ entry, encoding.entryFor slot value = .ok entry →
      encoding.program.guardedMove slot value = encoding.moveAt entry := by
    intro entry found
    change (encoding.entryFor slot value >>= _) = _
    rw [found]
    rfl
  rw [left _ (laid.entryFor wired valid stands small),
    program_guardedMove_eq stands.transition, Transition.lookup_eq]
  cases searched : Search.position (Search.among (fun outcome => compare value outcome.value)
      transition.outcomes) transition.outcomes.size with
  | none => exact ⟨_, _, laid.moveAt_errorEntry, rfl, rfl, wired.getD_error_lt, .inl rfl⟩
  | some index =>
      rw [Search.position_eq_between] at searched
      rcases Search.between_eq_some searched with ⟨_, inside, _⟩
      have found := Array.getElem?_eq_getElem inside
      rcases wired.linked.move used (Array.mem_of_getElem? found) with ⟨target, stored, contained⟩
      refine ⟨_, _, (laid.condition_entry (Laid.getElem?_entries stands found) stored).2, ?_, rfl,
        contained⟩
      rw [Option.bind_some, found]
      exact moveOf_eq_ok stored

end Slot

/-! ## States -/

section States

theorem getElem?_states {id : Nat} (inside : id < graph.bounds.states) :
    ∃ state ∈ graph.states, graph.states[id]? = some state := by
  have found := Array.getElem?_eq_getElem inside
  exact ⟨_, Array.mem_of_getElem? found, found⟩

theorem Laid.stateActions {name : String} {list : State → Option Nat} {column : Option Column}
    (made : graph.stateActions name list = .ok column) {id : Nat}
    (inside : id < graph.bounds.states) :
    Answers (Both graph.IsPlace) (Encoding.stateActions column id)
      ((fun state => graph.location (list state)) <$> part "states" graph.states id) := by
  rcases getElem?_states inside with ⟨state, _, declared⟩
  exact ⟨_, _, stateActions_eq_ok made declared, map_part_eq_ok "states" _ declared, rfl,
    graph.isPlace_location _⟩

end States

/-! ## Encodings -/

/-- A slot stands for a transition with a number. -/
def StandsFor (graph : Graph) (options : EncodingOptions) (slot number : Nat) : Prop :=
  ∃ transition, Laid.At graph options slot number transition

/-- An encoding agrees with the graph it was made from. -/
theorem Laid.agrees (laid : graph.Laid options encoding) (wired : graph.Wired)
    (valid : graph.Valid) :
    Program.Agrees graph.bounds (graph.StandsFor options) encoding.program graph.program where
  alphabet := laid.alphabet
  start := laid.start
  firstFinal := laid.firstFinal
  error := laid.error
  actions := laid.actions
  spaces := laid.spaces
  usesControl := laid.usesControl
  startInside := Nat.lt_of_le_of_lt (Nat.le_of_eq laid.start) wired.linked.start
  errorInside state isError := wired.error_lt (laid.error.symm.trans isError)
  targetsInside action member := wired.linked.actionTargets action (laid.actions ▸ member)
  spacesSmall space member := (wired.exhaustive.small space (laid.spaces ▸ member)).2
  locate id inside key contained := by
    have contained : graph.alphabet.contains key = true := laid.alphabet ▸ contained
    rcases laid.exists_slot wired valid inside contained with
      ⟨slot, number, transition, found, located, stands⟩
    exact ⟨slot, number, found, program_locate_eq_ok.mpr located, transition, stands⟩
  spaceOf slot number := by
    intro paired
    rcases paired with ⟨transition, stands⟩
    exact ⟨_, _, laid.spaceOf_slot stands,
      map_part_eq_ok "transitions" Transition.space stands.transition, rfl⟩
  plainMove slot number := by
    intro paired unguarded
    rcases paired with ⟨transition, stands⟩
    have space : Except.ok transition.space = Except.ok none :=
      (laid.spaceOf_slot stands).symm.trans unguarded
    exact laid.plainMove wired valid stands (Except.ok.inj space)
  guardedMove slot number := by
    intro paired value small
    rcases paired with ⟨transition, stands⟩
    exact laid.guardedMove wired valid stands small
  actionsAt location place used := by
    rcases laid.actionsAt_place wired.linked place used with ⟨actions, left, right, _⟩
    exact ⟨actions, actions, left, right, rfl⟩
  toState _ inside := Laid.stateActions laid.toState inside
  fromState _ inside := Laid.stateActions laid.fromState inside
  eofActions id inside := by
    rcases getElem?_states inside with ⟨state, _, declared⟩
    exact ⟨_, _, laid.eofActions declared, map_part_eq_ok "states" _ declared, rfl,
      graph.isPlace_location _⟩
  eofTransition id inside := by
    rcases getElem?_states inside with ⟨state, member, declared⟩
    have right : graph.program.eofTransition id = .ok state.eofTransition :=
      map_part_eq_ok "states" State.eofTransition declared
    have left := laid.eofTransition declared
    cases transition : state.eofTransition with
    | none =>
        rw [transition] at left right
        exact ⟨_, _, left, right, .none⟩
    | some number =>
        rw [transition] at left right
        rcases left with ⟨slot, found, isSlot⟩
        have used := (wired.linked.states state member).eofTransition number transition
        exact ⟨_, _, found, right, .some ⟨_, isSlot, Array.getElem?_eq_getElem used⟩⟩
  eofGuard id inside := by
    rcases getElem?_states inside with ⟨state, _, declared⟩
    exact ⟨_, _, laid.eofGuard declared, map_part_eq_ok "states" _ declared, rfl⟩
  alternates id inside := by
    rcases getElem?_states inside with ⟨state, member, declared⟩
    refine ⟨_, _, laid.alternatesOf declared, map_part_eq_ok "states" _ declared, rfl, ?_⟩
    intro pending isPending
    rcases List.mem_map.mp isPending with ⟨alternate, own, rfl⟩
    exact ⟨(wired.linked.states state member).targets alternate own, graph.isPlace_location _,
      graph.isPlace_location _⟩

theorem Built.agrees (built : graph.Built) (encoded : graph.encode options = .ok encoding) :
    Program.Agrees graph.bounds (graph.StandsFor options) encoding.program graph.program :=
  (laid_of_encode encoded).agrees built.wired built.valid

end Graph

end StateTables
