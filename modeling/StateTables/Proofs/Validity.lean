import StateTables.Proofs.Columns
import StateTables.Proofs.Merging

/-! # What valid graphs promise

In a valid graph the singles of a state ascend, and so do its ranges, which do not
overlap and contain no single. The outcomes of a guarded transition ascend within
their space. So each of the searches finds exactly what is there.
-/

namespace StateTables

/-- Singles and ranges of a state are in order and do not overlap. -/
structure State.Ordered (alphabet : Alphabet) (state : State) : Prop where
  singles : state.singles.toList.Pairwise fun first second =>
    alphabet.value first.key < alphabet.value second.key
  ranges : state.ranges.toList.Pairwise fun first second =>
    alphabet.value first.high < alphabet.value second.low
  upright : ∀ range ∈ state.ranges, alphabet.value range.low ≤ alphabet.value range.high
  apart : ∀ single ∈ state.singles, ∀ range ∈ state.ranges,
    ¬(alphabet.value range.low ≤ alphabet.value single.key ∧
      alphabet.value single.key ≤ alphabet.value range.high)

/-- The outcomes of a transition are in order: there is one for value zero, or they
ascend within a space. -/
inductive Transition.Ordered (spaces : Array ConditionSpace) (transition : Transition) : Prop
  | plain (condition : Nat) (unguarded : (transition.space.bind fun space => spaces[space]?) = none)
      (outcomes : transition.outcomes = #[⟨0, condition⟩])
  | guarded (number : Nat) (space : ConditionSpace) (numbered : transition.space = some number)
      (found : spaces[number]? = some space)
      (ascending : transition.outcomes.toList.Pairwise fun first second =>
        first.value < second.value)
      (within : ∀ outcome ∈ transition.outcomes, outcome.value < space.combinations)

namespace Graph

/-! ## What the checks find out -/

theorem pairwise_of_firstDisorder {α : Type} {ordered : α → α → Bool}
    (transitive : ∀ first second third, ordered first second = true →
      ordered second third = true → ordered first third = true) {index : Nat} {row : List α}
    (fine : firstDisorder ordered index row = none) :
    row.Pairwise fun first second => ordered first second = true := by
  induction row generalizing index with
  | nil => exact .nil
  | cons first rest induction =>
      cases rest with
      | nil => exact .cons (by simp) .nil
      | cons second rest =>
          unfold firstDisorder at fine
          split at fine
          next before =>
            have later := induction fine
            refine .cons ?_ later
            intro other member
            rcases List.mem_cons.mp member with same | behind
            · exact same ▸ before
            · exact transitive first second other before
                (List.rel_of_pairwise_cons later behind)
          next => cases fine

theorem ranges_of_checkRanges {alphabet : Alphabet} {state : String} {index : Nat}
    {previous : Option Range} {ranges : List Range}
    (fine : checkRanges alphabet state index previous ranges = .ok ()) :
    (∀ range ∈ ranges, alphabet.value range.low ≤ alphabet.value range.high) ∧
      (∀ before, previous = some before → ∀ range ∈ ranges,
        alphabet.value before.high < alphabet.value range.low) ∧
      ranges.Pairwise fun first second =>
        alphabet.value first.high < alphabet.value second.low := by
  induction ranges generalizing index previous with
  | nil => exact ⟨by simp, by simp, .nil⟩
  | cons range rest induction =>
      unfold checkRanges at fine
      split at fine
      next => cases fine
      next notInverted =>
        have upright : alphabet.value range.low ≤ alphabet.value range.high := by
          simpa using notInverted
        have continued : checkRanges alphabet state (index + 1) (some range) rest = .ok () ∧
            ∀ before, previous = some before →
              alphabet.value before.high < alphabet.value range.low := by
          cases previous with
          | none => exact ⟨fine, by simp⟩
          | some before =>
              dsimp only at fine
              split at fine
              next apart => exact ⟨fine, fun other same => by cases same; simpa using apart⟩
              next => cases fine
        rcases induction continued.1 with ⟨restUpright, restBehind, restApart⟩
        refine ⟨?_, ?_, .cons (restBehind range rfl) restApart⟩
        · intro other member
          rcases List.mem_cons.mp member with same | later
          · exact same ▸ upright
          · exact restUpright other later
        · intro before isPrevious other member
          have first := continued.2 before isPrevious
          rcases List.mem_cons.mp member with same | later
          · exact same ▸ first
          · have second := restBehind range rfl other later
            omega

theorem outcomes_of_checkOutcomes {id : Nat} {space : ConditionSpace}
    {previous : Option ConditionValue} {outcomes : List Outcome}
    (fine : checkOutcomes id space previous outcomes = .ok ()) :
    (∀ outcome ∈ outcomes, outcome.value < space.combinations) ∧
      (∀ value, previous = some value → ∀ outcome ∈ outcomes, value < outcome.value) ∧
      outcomes.Pairwise fun first second => first.value < second.value := by
  induction outcomes generalizing previous with
  | nil => exact ⟨by simp, by simp, .nil⟩
  | cons outcome rest induction =>
      unfold checkOutcomes at fine
      split at fine
      next => cases fine
      next inside =>
        have within : outcome.value < space.combinations := by
          simpa [UInt64.not_le] using inside
        have continued : checkOutcomes id space (some outcome.value) rest = .ok () ∧
            ∀ value, previous = some value → value < outcome.value := by
          cases previous with
          | none => exact ⟨fine, by simp⟩
          | some value =>
              dsimp only at fine
              split at fine
              next => cases fine
              next behind =>
                refine ⟨fine, fun other same => ?_⟩
                cases same
                simpa [UInt64.not_le] using behind
        rcases induction continued.1 with ⟨restWithin, restBehind, restAscending⟩
        refine ⟨?_, ?_, .cons (restBehind outcome.value rfl) restAscending⟩
        · intro other member
          rcases List.mem_cons.mp member with same | later
          · exact same ▸ within
          · exact restWithin other later
        · intro value isPrevious other member
          have first := continued.2 value isPrevious
          rcases List.mem_cons.mp member with same | later
          · exact same ▸ first
          · exact UInt64.lt_trans first (restBehind outcome.value rfl other later)

theorem checked_of_checkEach {α : Type} {check : Nat → α → Except GraphError Unit} {start : Nat}
    {parts : List α} (fine : checkEach check start parts = .ok ()) {index : Nat} {part : α}
    (found : parts[index]? = some part) : check (start + index) part = .ok () := by
  induction parts generalizing start index with
  | nil => simp at found
  | cons first rest induction =>
      unfold checkEach at fine
      split at fine
      next => cases fine
      next passed =>
        cases index with
        | zero =>
            cases (by simpa using found : first = part)
            exact passed
        | succ index =>
            have later := induction fine (by simpa using found : rest[index]? = some part)
            rwa [Nat.add_assoc, Nat.add_comm 1] at later

theorem ordered_of_checkState {graph : Graph} {id : Nat} {state : State}
    (fine : graph.checkState id state = .ok ()) :
    state.final = decide (graph.firstFinal ≤ id) ∧ state.Ordered graph.alphabet := by
  unfold checkState at fine
  dsimp only at fine
  by_cases final : (state.final != decide (graph.firstFinal ≤ (id : Int))) = true
  · rw [if_pos final] at fine
    cases fine
  rw [if_neg final] at fine
  cases disorder : firstDisorder (fun first second =>
      graph.alphabet.below first.key second.key) 1 state.singles.toList with
  | some index =>
      rw [disorder] at fine
      cases fine
  | none =>
      rw [disorder] at fine
      rcases bind_eq_ok.mp fine with ⟨_, ranges, fine⟩
      rcases ranges_of_checkRanges ranges with ⟨upright, _, apart⟩
      cases within : state.singles.find? fun single =>
          state.ranges.any fun range => inRange graph.alphabet range single.key with
      | some single =>
          rw [within] at fine
          cases fine
      | none =>
          refine ⟨by simpa using final, ?_, apart, fun range member => upright range (by simpa), ?_⟩
          · have ascending := pairwise_of_firstDisorder (by
              intro first second third
              simp only [Alphabet.below_iff]
              exact Int.lt_trans) disorder
            exact ascending.imp (by simp)
          · intro single member range rangeMember contains
            have outside := Array.find?_eq_none.mp within single member
            refine outside (Array.any_eq_true'.mpr ⟨range, rangeMember, ?_⟩)
            simp [inRange, contains.1, contains.2]

theorem ordered_of_checkTransition {graph : Graph} {id : Nat} {transition : Transition}
    (fine : graph.checkTransition id transition = .ok ()) :
    transition.Ordered graph.spaces := by
  unfold checkTransition at fine
  split at fine
  next unguarded =>
    split at fine
    next condition outcomes =>
      exact .plain condition unguarded (Array.toList_inj.mp outcomes)
    next => cases fine
  next space guarded =>
    rcases Option.bind_eq_some_iff.mp guarded with ⟨number, numbered, found⟩
    rcases outcomes_of_checkOutcomes fine with ⟨within, _, ascending⟩
    exact .guarded number space numbered found ascending fun outcome member =>
      within outcome (by simpa using member)

structure Valid (graph : Graph) : Prop where
  final : ∀ (id : Nat) (state : State), graph.states[id]? = some state →
    state.final = decide (graph.firstFinal ≤ id)
  states : ∀ state ∈ graph.states, state.Ordered graph.alphabet
  transitions : ∀ transition ∈ graph.transitions, transition.Ordered graph.spaces

theorem valid_of_validate {graph : Graph} (fine : graph.validate = .ok ()) : graph.Valid := by
  unfold validate at fine
  rcases bind_eq_ok.mp fine with ⟨_, states, fine⟩
  dsimp only at fine
  cases cycle : graph.eofCycle with
  | some state =>
      rw [cycle] at fine
      cases fine
  | none =>
      rw [cycle] at fine
      have checked : ∀ (id : Nat) (state : State), graph.states[id]? = some state →
          state.final = decide (graph.firstFinal ≤ id) ∧ state.Ordered graph.alphabet := by
        intro id state found
        have passed := checked_of_checkEach states (by simpa using found)
        rw [Nat.zero_add] at passed
        exact ordered_of_checkState passed
      refine ⟨fun id state found => (checked id state found).1, ?_, ?_⟩
      · intro state member
        rcases Array.mem_iff_getElem?.mp member with ⟨id, found⟩
        exact (checked id state found).2
      · intro transition member
        rcases Array.mem_iff_getElem?.mp member with ⟨id, found⟩
        exact ordered_of_checkTransition (checked_of_checkEach fine (by simpa using found))

end Graph

/-! ## What the searches find -/

namespace State

variable {alphabet : Alphabet} {state : State}

def rangeSide (alphabet : Alphabet) (key low high : Key) : Ordering :=
  if alphabet.below key low then .lt else if alphabet.above key high then .gt else .eq

theorem rangeSide_eq_lt {key low high : Key} (side : alphabet.value key < alphabet.value low) :
    rangeSide alphabet key low high = .lt := by
  simp [rangeSide, side]

theorem rangeSide_eq_gt {key low high : Key} (upright : alphabet.value low ≤ alphabet.value high)
    (side : alphabet.value high < alphabet.value key) : rangeSide alphabet key low high = .gt := by
  have notBelow : ¬alphabet.value key < alphabet.value low := by omega
  simp [rangeSide, side, notBelow]

theorem rangeSide_eq_eq_iff {key low high : Key} :
    rangeSide alphabet key low high = .eq ↔
      alphabet.value low ≤ alphabet.value key ∧ alphabet.value key ≤ alphabet.value high := by
  unfold rangeSide
  split
  next below =>
    have below := (alphabet.below_iff key low).mp below
    constructor
    · intro impossible
      cases impossible
    · omega
  next notBelow =>
    have notBelow : ¬alphabet.value key < alphabet.value low := by simpa using notBelow
    split
    next above =>
      have above := (alphabet.above_iff key high).mp above
      constructor
      · intro impossible
        cases impossible
      · omega
    next notAbove =>
      have notAbove : ¬alphabet.value high < alphabet.value key := by simpa using notAbove
      exact ⟨fun _ => by omega, fun _ => rfl⟩

/-- Ranges that ascend lie on different sides of a key, except for at most one. -/
theorem rangeSides {α : Type} (low high : α → Key) {ranges : List α}
    (upright : ∀ range ∈ ranges, alphabet.value (low range) ≤ alphabet.value (high range))
    (ascending : ranges.Pairwise fun first second =>
      alphabet.value (high first) < alphabet.value (low second)) (key : Key) :
    ranges.Pairwise fun first second =>
      rangeSide alphabet key (low first) (high first) = .gt ∨
        rangeSide alphabet key (low second) (high second) = .lt := by
  refine ascending.imp_of_mem ?_
  intro first second firstMember _ before
  by_cases behind : alphabet.value (high first) < alphabet.value key
  · exact .inl (rangeSide_eq_gt (upright first firstMember) behind)
  · exact .inr (rangeSide_eq_lt (by omega))

theorem locateSingle_eq (key : Key) : state.locateSingle alphabet key =
    (Search.position (Search.among (fun single => alphabet.compare key single.key) state.singles)
      state.singles.size).bind fun index => state.singles[index]?.map Single.transition := by
  unfold locateSingle
  dsimp only
  congr 2
  funext index
  unfold Search.among
  cases state.singles[index]? <;> rfl

theorem locateRange_eq (key : Key) : state.locateRange alphabet key =
    (Search.position
      (Search.among (fun range => rangeSide alphabet key range.low range.high) state.ranges)
      state.ranges.size).bind fun index => state.ranges[index]?.map Range.transition := by
  unfold locateRange
  dsimp only
  congr 2
  funext index
  unfold Search.among
  cases state.ranges[index]? <;> rfl

theorem locateSingle_iff (ordered : state.Ordered alphabet) {key : Key} {transition : Nat} :
    state.locateSingle alphabet key = some transition ↔
      ∃ single ∈ state.singles, single.key = key ∧ single.transition = transition := by
  have apart : state.singles.toList.Pairwise fun first second =>
      alphabet.compare key first.key = .gt ∨ alphabet.compare key second.key = .lt := by
    refine ordered.singles.imp ?_
    intro first second before
    simp only [Alphabet.compare_eq_gt_iff, Alphabet.compare_eq_lt_iff]
    omega
  rw [locateSingle_eq, Search.find_among_iff apart]
  simp only [Alphabet.compare_eq_eq_iff, eq_comm (a := key)]

theorem locateRange_iff (ordered : state.Ordered alphabet) {key : Key} {transition : Nat} :
    state.locateRange alphabet key = some transition ↔
      ∃ range ∈ state.ranges, (alphabet.value range.low ≤ alphabet.value key ∧
        alphabet.value key ≤ alphabet.value range.high) ∧ range.transition = transition := by
  have apart := rangeSides Range.low Range.high
    (fun range member => ordered.upright range (by simpa using member)) ordered.ranges key
  rw [locateRange_eq, Search.find_among_iff apart]
  simp only [rangeSide_eq_eq_iff]

theorem locate_of_single (ordered : state.Ordered alphabet) {single : Single}
    (member : single ∈ state.singles) :
    state.locate alphabet single.key = some single.transition := by
  unfold locate
  rw [(locateSingle_iff ordered).mpr ⟨single, member, rfl, rfl⟩, Option.some_or]

theorem locateSingle_eq_none (ordered : state.Ordered alphabet) {key : Key}
    (outside : ∀ single ∈ state.singles, single.key ≠ key) :
    state.locateSingle alphabet key = none := by
  cases located : state.locateSingle alphabet key with
  | none => rfl
  | some transition =>
      rcases (locateSingle_iff ordered).mp located with ⟨single, member, same, _⟩
      exact absurd same (outside single member)

theorem locate_of_range (ordered : state.Ordered alphabet) {range : Range}
    (member : range ∈ state.ranges) {key : Key}
    (contains : alphabet.value range.low ≤ alphabet.value key ∧
      alphabet.value key ≤ alphabet.value range.high) :
    state.locate alphabet key = some range.transition := by
  have noSingle : state.locateSingle alphabet key = none := by
    apply locateSingle_eq_none ordered
    rintro single inside rfl
    exact ordered.apart single inside range member contains
  unfold locate
  rw [noSingle, (locateRange_iff ordered).mpr ⟨range, member, contains, rfl⟩, Option.none_or,
    Option.some_or]

theorem locate_of_outside (ordered : state.Ordered alphabet) {key : Key}
    (noSingle : ∀ single ∈ state.singles, single.key ≠ key)
    (noRange : ∀ range ∈ state.ranges, ¬(alphabet.value range.low ≤ alphabet.value key ∧
      alphabet.value key ≤ alphabet.value range.high)) :
    state.locate alphabet key = state.fallback := by
  have unclaimed : state.locateRange alphabet key = none := by
    cases located : state.locateRange alphabet key with
    | none => rfl
    | some transition =>
        rcases (locateRange_iff ordered).mp located with ⟨range, member, contains, _⟩
        exact absurd contains (noRange range member)
  unfold locate
  rw [locateSingle_eq_none ordered noSingle, unclaimed, Option.none_or, Option.none_or]

/-- Every key of the alphabet has a transition, if the state covers the alphabet. -/
theorem exists_locate (ordered : state.Ordered alphabet) (covers : Graph.Covers alphabet state)
    {key : Key} (contained : alphabet.contains key = true) :
    ∃ transition, state.locate alphabet key = some transition := by
  cases located : state.locate alphabet key with
  | some transition => exact ⟨transition, rfl⟩
  | none =>
      have fallback : state.fallback = none := by
        unfold locate at located
        simp only [Option.or_eq_none_iff] at located
        exact located.2.2
      rcases covers fallback key contained with ⟨found, member, rfl⟩ | ⟨found, member, contains⟩
      · cases located.symm.trans (locate_of_single ordered member)
      · cases located.symm.trans (locate_of_range ordered member contains)

theorem locate_lt {transitions lists states : Nat} (linked : state.Linked transitions lists states)
    (ordered : state.Ordered alphabet) {key : Key} {transition : Nat}
    (found : state.locate alphabet key = some transition) : transition < transitions := by
  unfold locate at found
  rw [Option.or_eq_some_iff, Option.or_eq_some_iff] at found
  rcases found with onSingle | ⟨_, onRange | ⟨_, fallback⟩⟩
  · rcases (locateSingle_iff ordered).mp onSingle with ⟨single, member, _, rfl⟩
    exact linked.singles single member
  · rcases (locateRange_iff ordered).mp onRange with ⟨range, member, _, rfl⟩
    exact linked.ranges range member
  · exact linked.fallback transition fallback

end State

namespace Transition

variable {spaces : Array ConditionSpace} {transition : Transition}

theorem lookup_eq (value : ConditionValue) : transition.lookup value =
    (Search.position
      (Search.among (fun outcome => compare value outcome.value) transition.outcomes)
      transition.outcomes.size).bind fun index =>
        transition.outcomes[index]?.map Outcome.condition := by
  unfold lookup
  dsimp only
  congr 2
  funext index
  unfold Search.among
  cases transition.outcomes[index]? <;> rfl

theorem Ordered.ascending (ordered : transition.Ordered spaces) :
    transition.outcomes.toList.Pairwise fun first second => first.value < second.value := by
  cases ordered with
  | plain condition _ outcomes =>
      rw [outcomes]
      exact .cons (by simp) .nil
  | guarded _ _ _ _ ascending _ => exact ascending

theorem lookup_iff (ordered : transition.Ordered spaces) {value : ConditionValue}
    {condition : Nat} :
    transition.lookup value = some condition ↔
      ∃ outcome ∈ transition.outcomes, outcome.value = value ∧ outcome.condition = condition := by
  have apart : transition.outcomes.toList.Pairwise fun first second =>
      compare value first.value = .gt ∨ compare value second.value = .lt := by
    refine ordered.ascending.imp ?_
    intro first second before
    simp only [Std.compare_eq_gt, Std.compare_eq_lt]
    by_cases behind : first.value < value
    · exact .inl behind
    · exact .inr (UInt64.lt_of_le_of_lt (UInt64.not_lt.mp behind) before)
  rw [lookup_eq, Search.find_among_iff apart]
  simp only [Std.compare_eq_iff_eq, eq_comm (a := value)]

end Transition

theorem Draft.build_of_checks {draft : Draft}
    (checked : draft.errors = [] ∧ draft.start.isEmpty = false ∧ draft.unknownTargets = [] ∧
      draft.assemble.mergeDuplicates.validate.isOk = true) :
    draft.build = (draft, .ok draft.assemble.mergeDuplicates) := by
  rcases checked with ⟨noErrors, started, known, valid⟩
  rcases exists_of_isOk valid with ⟨_, valid⟩
  exact build_of_validate noErrors started known valid

namespace Graph

theorem Built.valid {graph : Graph} (built : graph.Built) : graph.Valid :=
  valid_of_validate built.validated

theorem built_of_checks {draft : Draft} (drafted : draft.Drafted)
    (checked : draft.errors = [] ∧ draft.start.isEmpty = false ∧ draft.unknownTargets = [] ∧
      draft.assemble.mergeDuplicates.validate.isOk = true) :
    draft.assemble.mergeDuplicates.Built :=
  ⟨draft, draft, drafted, Draft.build_of_checks checked⟩

end Graph

end StateTables
