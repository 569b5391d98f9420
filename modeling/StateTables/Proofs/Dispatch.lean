import Mathlib.Data.Nat.Bitwise
import StateTables.Proofs.Backtracking

/-! # Dispatch on conditions

The conditions of a space are evaluated in order, and their answers are the bits of a value. A slot
has one entry for each value that its transition lists; all others share the error entry behind the
entries of all slots. It is used only if there is an error state, since otherwise every value is
listed.
-/

namespace StateTables

/-! ## Answers as bits -/

namespace ConditionValue

theorem has_eq_testBit (value : ConditionValue) (index : Nat) :
    value.has index = value.toNat.testBit index := by
  unfold has
  by_cases small : index < 64
  · have same : (value &&& bit index != 0) = ((value &&& bit index).toNat != 0) := by
      rw [Bool.eq_iff_iff]
      simp [← UInt64.toNat_inj]
    rw [same, UInt64.toNat_and, toNat_bit small, Nat.and_two_pow]
    cases value.toNat.testBit index <;> simp
  · have beyond : value.toNat < 2 ^ index :=
      Nat.lt_of_lt_of_le value.toNat_lt (Nat.pow_le_pow_right (by omega) (by omega))
    rw [bit, if_neg small, Nat.testBit_lt_two_pow beyond]
    simp

/-- The bits of a value are some answers, the first one being bit zero. -/
def Packs (value : ConditionValue) (answers : List Bool) : Prop :=
  ∀ index, value.has index = answers.getD index false

theorem Packs.lt {value : ConditionValue} {answers : List Bool} (packs : value.Packs answers) :
    value.toNat < 2 ^ answers.length := by
  apply Nat.lt_pow_two_of_testBit
  intro index beyond
  rw [← has_eq_testBit, packs index, List.getD_eq_default _ _ beyond]

def ofAnswers (index : Nat) : List Bool → ConditionValue
  | [] => 0
  | holds :: rest =>
    if holds then bit index ||| ofAnswers (index + 1) rest else ofAnswers (index + 1) rest

theorem testBit_ofAnswers {index : Nat} {answers : List Bool}
    (few : index + answers.length ≤ 64) (position : Nat) :
    (ofAnswers index answers).toNat.testBit position =
      (decide (index ≤ position) && answers.getD (position - index) false) := by
  induction answers generalizing index with
  | nil => simp [ofAnswers]
  | cons holds rest induction =>
      rw [List.length_cons] at few
      have later := induction (by omega : index + 1 + rest.length ≤ 64)
      have own : (bit index).toNat.testBit position = decide (index = position) := by
        rw [toNat_bit (by omega), Nat.testBit_two_pow]
      have here : (ofAnswers index (holds :: rest)).toNat.testBit position =
          (holds && decide (index = position) ||
            (ofAnswers (index + 1) rest).toNat.testBit position) := by
        cases holds <;> simp [ofAnswers, own]
      rw [here, later]
      rcases Nat.lt_trichotomy position index with before | same | behind
      · simp [Nat.not_le_of_lt before, Nat.ne_of_gt before,
          Nat.not_le_of_lt (Nat.lt_succ_of_lt before)]
      · simp [same]
      · have next : position - index = position - (index + 1) + 1 := by omega
        simp [next, Nat.ne_of_lt behind, Nat.le_of_lt behind, Nat.succ_le_of_lt behind]

theorem packs_ofAnswers {answers : List Bool} (few : answers.length ≤ 64) :
    (ofAnswers 0 answers).Packs answers := by
  intro index
  rw [has_eq_testBit, testBit_ofAnswers (by omega)]
  simp

end ConditionValue

/-! ## Evaluation -/

variable {World : Type}

/-- What conditions answer that are evaluated one after the other, each in the world that the one
before leaves. -/
inductive Bindings.Answer (bindings : Bindings World) :
    List String → Scan World → List Bool → Scan World → Prop
  | nil (scan : Scan World) : Answer bindings [] scan [] scan
  | cons {name : String} {rest : List String} {callback : Callback World Bool} {scan : Scan World}
      {holds : Bool} {world : World} {answers : List Bool} {after : Scan World} :
      bindings.condition? name = some callback →
        callback scan.view scan.world = .ok (holds, world) →
          Answer bindings rest { scan with world := world } answers after →
            Answer bindings (name :: rest) scan (holds :: answers) after

namespace Machine

theorem evaluate_of_answer {bindings : Bindings World} {names : List String}
    {callbacks : List (Callback World Bool)} {scan after : Scan World} {answers : List Bool}
    (bound : List.Forall₂ (fun name callback => bindings.condition? name = some callback) names
      callbacks)
    (answer : bindings.Answer names scan answers after) (index : Nat) :
    evaluate index callbacks scan = .ok (.ok (.ofAnswers index answers), after) := by
  induction answer generalizing callbacks index with
  | nil scan =>
      cases bound
      rfl
  | @cons _ _ callback scan holds world answers after isBound called _ induction =>
      rcases List.forall₂_cons_left_iff.mp bound with ⟨own, others, isOwn, boundOthers, rfl⟩
      cases isBound.symm.trans isOwn
      have call : Step.call callback scan = .ok (.ok holds, { scan with world := world }) := by
        unfold Step.call
        rw [called]
      rw [evaluate, Step.bind_apply, call]
      dsimp only
      rw [Step.bind_apply, induction boundOthers]
      rfl

theorem Created.conditionValue {machine : Machine World} {program : Program}
    {bindings : Bindings World} (created : Created program bindings machine) {number : Nat}
    {space : ConditionSpace} (found : program.spaces[number]? = some space)
    {scan after : Scan World} {answers : List Bool}
    (answer : bindings.Answer space.conditions scan answers after) :
    machine.conditionValue number scan = .ok (.ok (.ofAnswers 0 answers), after) := by
  rcases created.callbacks found with ⟨callbacks, stored, bound⟩
  unfold Machine.conditionValue
  rw [Graph.part_eq_ok "spaces" stored]
  exact evaluate_of_answer bound answer 0

def follow (machine : Machine World) (move : Move) : Step World Control := do
  modify fun scan => { scan with state := move.target }
  machine.record .transition move.target move.actions
  machine.runList move.actions

theorem take_eq_follow {machine : Machine World} {encoding : Encoding}
    (runs : machine.program = encoding.program) {slot guard entry : Nat} {move : Move}
    {value : ConditionValue} {scan after : Scan World}
    (guarded : encoding.spaceOf slot = .ok (some guard))
    (evaluated : machine.conditionValue guard scan = .ok (.ok value, after))
    (found : encoding.entryFor slot value = .ok entry) (leads : encoding.moveAt entry = .ok move) :
    machine.take slot scan = machine.follow move after := by
  have chosen : machine.choose slot scan = .ok (.ok move, after) := by
    unfold choose
    rw [runs]
    change (Step.ask (encoding.spaceOf slot) >>= _) scan = _
    rw [guarded]
    change (machine.conditionValue guard >>= _) scan = _
    rw [Step.bind_apply, evaluated]
    change Step.ask (encoding.entryFor slot value >>= encoding.moveAt) after = _
    rw [found]
    change Step.ask (encoding.moveAt entry) after = _
    rw [leads]
    rfl
  unfold take
  rw [Step.bind_apply, chosen]
  rfl

end Machine

/-! ## Slots -/

namespace Graph

variable {graph : Graph}

theorem Linked.lt_of_mem_row (linked : graph.Linked) {state : State}
    (declared : state ∈ graph.states) {number : Nat} (member : number ∈ row state) :
    number < graph.transitions.size := by
  have own := linked.states state declared
  simp only [row, List.mem_append, List.mem_map, Option.mem_toList] at member
  rcases member with (⟨single, isSingle, rfl⟩ | ⟨range, isRange, rfl⟩) | fallback
  · exact own.singles single (by simpa using isSingle)
  · exact own.ranges range (by simpa using isRange)
  · exact own.fallback number fallback

theorem Linked.lt_of_mem_keySlots (linked : graph.Linked) {direct : Bool} {number : Nat}
    (member : number ∈ graph.keySlots direct) : number < graph.transitions.size := by
  unfold keySlots at member
  split at member
  next =>
    rcases List.mem_flatMap.mp member with ⟨state, declared, inRow⟩
    exact linked.lt_of_mem_row (by simpa using declared) inRow
  next => exact List.mem_range.mp member

theorem mem_addEofSlot {keys : List Nat} {direct : Bool} {slots : Slots} {state : State}
    {number : Nat} (member : number ∈ (addEofSlot keys direct slots state).transitions) :
    number ∈ slots.transitions ∨ state.eofTransition = some number := by
  unfold addEofSlot at member
  split at member
  next => exact .inl member
  next transition own =>
    split at member
    next => exact .inl member
    next =>
      rcases Array.mem_push.mp member with earlier | rfl
      · exact .inl earlier
      · exact .inr own

theorem Linked.lt_of_mem_slots (linked : graph.Linked) {direct : Bool} {number : Nat}
    (member : number ∈ (graph.slots direct).transitions) : number < graph.transitions.size := by
  have all : ∀ (states : List State), (∀ state ∈ states, state ∈ graph.states) →
      ∀ slots : Slots, (∀ number ∈ slots.transitions, number < graph.transitions.size) →
        ∀ number ∈ (states.foldl (addEofSlot (graph.keySlots direct) direct) slots).transitions,
          number < graph.transitions.size := by
    intro states
    induction states with
    | nil => exact fun _ slots inside => inside
    | cons state rest induction =>
        intro declared slots inside
        refine induction (fun other isOther => declared other (by simp [isOther])) _ ?_
        intro number isNumber
        rcases mem_addEofSlot isNumber with earlier | own
        · exact inside number earlier
        · exact (linked.states state (declared state (by simp))).eofTransition number own
  unfold slots at member
  rw [← Array.foldl_toList] at member
  exact all graph.states.toList (by simp) ⟨_, []⟩
    (fun number isKey => linked.lt_of_mem_keySlots (by simpa using isKey)) number member

variable {options : EncodingOptions} {encoding : Encoding}

theorem Laid.at_of_spaceOf (laid : graph.Laid options encoding) (linked : graph.Linked) {slot : Nat}
    {space : Option Nat} (read : encoding.spaceOf slot = .ok space) :
    ∃ number transition, Laid.At graph options slot number transition := by
  have columns := laid.transitions
  unfold transitionColumns at columns
  simp only [bind_eq_ok, pure_eq_ok] at columns
  rcases columns with ⟨spaces, spacesBuilt, _, _, _, _, same⟩
  have inside := Laid.lt_size_of_spaceOf read
  rw [← same, (spaces_of_spaceColumn spacesBuilt).1] at inside
  have inside : slot < (graph.slots (graph.isDirect options)).transitions.size := by
    simpa using inside
  have found := Array.getElem?_eq_getElem inside
  exact ⟨_, _, found, Array.getElem?_eq_getElem
    (linked.lt_of_mem_slots (Array.mem_of_getElem? found))⟩

end Graph

/-! ## Entries -/

theorem Transition.Ordered.index_eq {spaces : Array ConditionSpace} {transition : Transition}
    (ordered : transition.Ordered spaces) {first second : Nat} {outcome other : Outcome}
    (found : transition.outcomes[first]? = some outcome)
    (otherFound : transition.outcomes[second]? = some other) (same : outcome.value = other.value) :
    first = second := by
  have ascending := List.pairwise_iff_getElem.mp ordered.ascending
  rcases Array.getElem?_eq_some_iff.mp found with ⟨firstInside, rfl⟩
  rcases Array.getElem?_eq_some_iff.mp otherFound with ⟨secondInside, rfl⟩
  rcases Nat.lt_trichotomy first second with before | equal | behind
  · have less := ascending first second (by simpa) (by simpa) before
    simp [same] at less
  · exact equal
  · have less := ascending second first (by simpa) (by simpa) behind
    simp [same] at less

namespace Graph

variable {graph : Graph} {options : EncodingOptions} {encoding : Encoding}

/-- The entry that a slot, which stands for a transition, has for a condition value, and what the
entry says. -/
inductive Dispatched (graph : Graph) (encoding : Encoding) (slot : Nat) (transition : Transition)
    (value : ConditionValue) : Nat → Move → Prop
  | listed {condition : Nat} {target : ConditionTarget} {start count entry : Nat}
      (listed : ⟨value, condition⟩ ∈ transition.outcomes)
      (found : transition.lookup value = some condition)
      (stored : graph.conditions[condition]? = some target)
      (starts : encoding.transitions.offsets.readIndex slot = .ok start)
      (counts : encoding.transitions.lengths.readIndex slot = .ok count)
      (inside : start ≤ entry ∧ entry < start + count)
      (only : ∀ other, start ≤ other → other < start + count →
        (encoding.conditions.keys.read other = .ok value.toInt64 ↔ other = entry))
      (before : entry < encoding.errorEntry) :
      Dispatched graph encoding slot transition value entry
        ⟨target.target, graph.location target.actions⟩
  | unlisted {error : Nat} (unlisted : ∀ outcome ∈ transition.outcomes, outcome.value ≠ value)
      (missed : transition.lookup value = none) (isError : graph.error = some error) :
      Dispatched graph encoding slot transition value encoding.errorEntry ⟨error, 0⟩

section Entries

variable {slot number : Nat} {transition : Transition}

theorem Laid.read_key (laid : graph.Laid options encoding) (linked : graph.Linked)
    (stands : Laid.At graph options slot number transition) {index : Nat} {outcome : Outcome}
    (found : transition.outcomes[index]? = some outcome) :
    encoding.conditions.keys.read (startOf graph options slot + index) =
      .ok outcome.value.toInt64 := by
  rcases linked.move (Array.mem_of_getElem? stands.transition) (Array.mem_of_getElem? found) with
    ⟨target, stored, _⟩
  exact (laid.condition_entry (Laid.getElem?_entries stands found) stored).1

/-- In the row of a slot a listed value is the key of one entry. -/
theorem Laid.read_key_iff (laid : graph.Laid options encoding) (wired : graph.Wired)
    (valid : graph.Valid) (stands : Laid.At graph options slot number transition) {index : Nat}
    {outcome : Outcome} (found : transition.outcomes[index]? = some outcome) {other : Nat}
    (above : startOf graph options slot ≤ other)
    (below : other < startOf graph options slot + transition.outcomes.size) :
    encoding.conditions.keys.read other = .ok outcome.value.toInt64 ↔
      other = startOf graph options slot + index := by
  have used := Array.mem_of_getElem? stands.transition
  constructor
  · intro read
    have inside : other - startOf graph options slot < transition.outcomes.size := by omega
    have here := laid.read_key wired.linked stands (Array.getElem?_eq_getElem inside)
    rw [Nat.add_sub_cancel' above, read] at here
    have same : outcome.value = transition.outcomes[other - startOf graph options slot].value := by
      simpa using congrArg Int64.toUInt64 (Except.ok.inj here)
    have position := (valid.transitions transition used).index_eq found
      (Array.getElem?_eq_getElem inside) same
    omega
  · intro same
    rw [same]
    exact laid.read_key wired.linked stands found

/-- Every value of the space of a slot has an entry. -/
theorem Laid.dispatched (laid : graph.Laid options encoding) (wired : graph.Wired)
    (valid : graph.Valid) (stands : Laid.At graph options slot number transition) {guard : Nat}
    {space : ConditionSpace} (guarded : transition.space = some guard)
    (known : graph.spaces[guard]? = some space) {value : ConditionValue}
    (within : value.toNat < 2 ^ space.size) :
    ∃ entry move, encoding.entryFor slot value = .ok entry ∧ encoding.moveAt entry = .ok move ∧
      graph.Dispatched encoding slot transition value entry move := by
  have used := Array.mem_of_getElem? stands.transition
  have ordered := valid.transitions transition used
  have few := (wired.exhaustive.small space (Array.mem_of_getElem? known)).2
  have small : value.toNat < 2 ^ 32 :=
    Nat.lt_of_lt_of_le within (Nat.pow_le_pow_right (by omega) few)
  rcases laid.bounds_slot stands with ⟨start, count⟩
  rw [laid.entryFor wired valid stands small]
  -- The row of the slot and the outcomes of the transition are searched in the same way.
  cases searched : Search.position (Search.among (fun outcome => compare value outcome.value)
      transition.outcomes) transition.outcomes.size with
  | none =>
      have missed : transition.lookup value = none := by
        rw [Transition.lookup_eq, searched]
        rfl
      rcases exists_error_of_unlisted wired valid used guarded known within missed with
        ⟨error, isError⟩
      have target := laid.moveAt_errorEntry
      rw [isError] at target
      refine ⟨_, _, rfl, target, .unlisted ?_ missed isError⟩
      intro outcome member same
      have listed := (Transition.lookup_iff ordered).mpr ⟨outcome, member, same, rfl⟩
      cases missed.symm.trans listed
  | some index =>
      rw [Search.position_eq_between] at searched
      rcases Search.between_eq_some searched with ⟨_, inside, agrees⟩
      have found := Array.getElem?_eq_getElem inside
      have member := Array.mem_of_getElem? found
      rw [Search.among_of_getElem? found, Std.compare_eq_iff_eq] at agrees
      rcases wired.linked.move used member with ⟨target, stored, _⟩
      have entry := Laid.getElem?_entries stands found
      have outcome : (⟨value, transition.outcomes[index].condition⟩ : Outcome) =
          transition.outcomes[index] := by rw [agrees]
      refine ⟨_, _, rfl, (laid.condition_entry entry stored).2,
        .listed (outcome ▸ member) ?_ stored start count ?_ ?_ ?_⟩
      · exact (Transition.lookup_iff ordered).mpr ⟨_, member, agrees.symm, rfl⟩
      · exact ⟨Nat.le_add_right _ _, Nat.add_lt_add_left inside _⟩
      · intro other above below
        rw [agrees]
        exact laid.read_key_iff wired valid stands found above below
      · rw [laid.errorEntry]
        exact (List.getElem?_eq_some_iff.mp entry).1

end Entries

/-- Dispatch on conditions is total and exact. A slot of an encoding with a condition space stands
for a transition with that space. Whatever the conditions of the space answer, the value with the
answers as its bits is dispatched to its entry in the row of the slot or, if the transition does not
list it, to the error state. This is what a machine does that evaluates the conditions. The draft of
the graph names only condition spaces of its own. -/
theorem dispatch_total_and_exact (built : graph.Built)
    (encoded : graph.encode options = .ok encoding) {slot guard : Nat}
    (guarded : encoding.spaceOf slot = .ok (some guard)) :
    ∃ number transition space,
      (graph.slots (graph.isDirect options)).transitions[slot]? = some number ∧
      graph.transitions[number]? = some transition ∧ transition.space = some guard ∧
      graph.spaces[guard]? = some space ∧
      ∀ answers : List Bool, answers.length = space.size → ∃ value entry move,
        ConditionValue.Packs value answers ∧ encoding.entryFor slot value = .ok entry ∧
        encoding.moveAt entry = .ok move ∧
        graph.Dispatched encoding slot transition value entry move ∧
        ∀ (World : Type) (machineOptions : MachineOptions) (bindings : Bindings World)
          (machine : Machine World),
          Machine.create encoding.program machineOptions bindings = .ok machine →
            ∀ scan after, bindings.Answer space.conditions scan answers after →
              machine.conditionValue guard scan = .ok (.ok value, after) ∧
                machine.take slot scan = machine.follow move after := by
  have laid := laid_of_encode encoded
  have wired := built.wired
  rcases laid.at_of_spaceOf wired.linked guarded with ⟨number, transition, stands⟩
  have own : transition.space = some guard :=
    Except.ok.inj ((laid.spaceOf_slot stands).symm.trans guarded)
  have declared : guard < graph.spaces.size :=
    wired.linked.spaces transition (Array.mem_of_getElem? stands.transition) guard own
  have known := Array.getElem?_eq_getElem declared
  generalize graph.spaces[guard] = space at known
  refine ⟨number, transition, space, stands.slot, stands.transition, own, known, ?_⟩
  intro answers length
  have few := (wired.exhaustive.small _ (Array.mem_of_getElem? known)).2
  have packs := ConditionValue.packs_ofAnswers (by omega : answers.length ≤ 64)
  have within := packs.lt
  rw [length] at within
  rcases laid.dispatched wired built.valid stands own known within with
    ⟨entry, move, found, leads, dispatched⟩
  refine ⟨_, entry, move, packs, found, leads, dispatched, ?_⟩
  intro World machineOptions bindings machine created scan after answer
  have setUp := Machine.created_of_create created
  have evaluated := setUp.conditionValue (laid.spaces ▸ known) answer
  exact ⟨evaluated, Machine.take_eq_follow setUp.runs guarded evaluated found leads⟩

end Graph

namespace Sample

def before (machine : Machine Nat) (key : Key) : Scan Nat :=
  { machine.start 0 with state := 1, chunk := #[key] }

theorem answer_before (machine : Machine Nat) (key : Key) :
    bindings.Answer ["even"] (before machine key) [key.signedValue % 2 == 0] (before machine key) :=
  .cons (by rfl) (by rfl) (.nil _)

end Sample

/-- A key for which the condition of the sample holds, and one for which it does not. -/
theorem dispatch_total_and_exact_sample : ∃ encoding machine,
    Sample.graph.encode Sample.options = .ok encoding ∧
    Machine.create encoding.program Sample.machineOptions Sample.bindings = .ok machine ∧
    encoding.spaceOf 2 = .ok (some 0) ∧
    ∀ key ∈ [Key.ofInt 12, Key.ofInt 13], ∃ transition value entry move,
      ConditionValue.Packs value [key.signedValue % 2 == 0] ∧
      encoding.entryFor 2 value = .ok entry ∧
      Sample.graph.Dispatched encoding 2 transition value entry move ∧
      machine.take 2 (Sample.before machine key) =
        machine.follow move (Sample.before machine key) := by
  rcases Sample.exists_scan with ⟨encoding, machine, _, _, encoded, created, _⟩
  have guarded : encoding.spaceOf 2 = .ok (some 0) := by
    have read : (Sample.graph.encode Sample.options >>= fun encoding => .ok (encoding.spaceOf 2)) =
        .ok (.ok (some 0)) := by decide +kernel
    rw [encoded] at read
    exact Except.ok.inj read
  refine ⟨encoding, machine, encoded, created, guarded, ?_⟩
  intro key _
  rcases Graph.dispatch_total_and_exact Sample.built_graph encoded guarded with
    ⟨number, transition, space, _, _, _, known, dispatch⟩
  have isSpace : Sample.graph.spaces[0]? = some ⟨0, ["even"]⟩ := by decide +kernel
  cases known.symm.trans isSpace
  rcases dispatch [key.signedValue % 2 == 0] rfl with
    ⟨value, entry, move, packs, found, _, dispatched, machines⟩
  exact ⟨transition, value, entry, move, packs, found, dispatched,
    (machines Nat _ _ machine created _ _ (Sample.answer_before machine key)).2⟩

end StateTables
