import Mathlib
import StateTables.Proofs.Acceptance

/-! # What counting keys finds out

Whether a state without a fallback has a transition for every key is found out by counting the keys
of its singles and ranges, without a look at where they lie. That is exact if these are keys of the
alphabet and the alphabet has fewer than 2^64 of them: different keys are then as many as there are
if and only if they are all there are. Keys outside of the alphabet make up for missing ones, and
make too many out of all.
-/

namespace StateTables

theorem Alphabet.toNat_span_eq_card (alphabet : Alphabet) (few : alphabet.keyCount < 2 ^ 64) :
    (alphabet.span alphabet.low alphabet.high).toNat =
      (Finset.Icc (alphabet.value alphabet.low) (alphabet.value alphabet.high)).card := by
  have span := alphabet.toNat_span_eq_ite alphabet.low alphabet.high
  rw [Int.card_Icc]
  unfold keyCount at few
  split at span <;> omega

/-! ## Keys of intervals -/

namespace KeyInterval

variable {alphabet : Alphabet} {intervals : List KeyInterval}

noncomputable def values (alphabet : Alphabet) : List KeyInterval → Finset Int
  | [] => ∅
  | interval :: rest =>
    Finset.Icc (alphabet.value interval.low) (alphabet.value interval.high) ∪ values alphabet rest

theorem mem_values {number : Int} : number ∈ values alphabet intervals ↔
    ∃ interval ∈ intervals, alphabet.value interval.low ≤ number ∧
      number ≤ alphabet.value interval.high := by
  induction intervals with
  | nil => simp [values]
  | cons interval rest induction => simp [values, induction]

/-- Intervals have keys, and of any two of them one ends before the other begins. -/
structure Separate (alphabet : Alphabet) (intervals : List KeyInterval) : Prop where
  upright : ∀ interval ∈ intervals, alphabet.value interval.low ≤ alphabet.value interval.high
  disjoint : intervals.Pairwise fun first second =>
    alphabet.value first.high < alphabet.value second.low ∨
      alphabet.value second.high < alphabet.value first.low

/-- Intervals with bounds in an alphabet. -/
def Within (alphabet : Alphabet) (intervals : List KeyInterval) : Prop :=
  ∀ interval ∈ intervals, alphabet.contains interval.low = true ∧
    alphabet.contains interval.high = true

theorem values_subset (within : Within alphabet intervals) :
    values alphabet intervals ⊆
      Finset.Icc (alphabet.value alphabet.low) (alphabet.value alphabet.high) := by
  intro number member
  rcases mem_values.mp member with ⟨interval, isInterval, above, below⟩
  rcases within interval isInterval with ⟨low, high⟩
  rw [Alphabet.contains_iff] at low high
  exact Finset.mem_Icc.mpr ⟨by omega, by omega⟩

theorem card_values (separate : Separate alphabet intervals) (within : Within alphabet intervals)
    (few : alphabet.keyCount < 2 ^ 64) : (values alphabet intervals).card =
      (intervals.map fun interval => (alphabet.span interval.low interval.high).toNat).sum := by
  induction intervals with
  | nil => rfl
  | cons interval rest induction =>
      rcases List.pairwise_cons.mp separate.disjoint with ⟨apart, disjoint⟩
      have upright := separate.upright interval (by simp)
      have others := induction
        ⟨fun other member => separate.upright other (by simp [member]), disjoint⟩
        fun other member => within other (by simp [member])
      have own : Disjoint
          (Finset.Icc (alphabet.value interval.low) (alphabet.value interval.high))
          (values alphabet rest) := by
        rw [Finset.disjoint_left]
        intro number inside outside
        rcases mem_values.mp outside with ⟨other, member, _, _⟩
        have sides := apart other member
        rw [Finset.mem_Icc] at inside
        omega
      have counts := alphabet.toNat_span upright
      rcases within interval (by simp) with ⟨low, high⟩
      rw [Alphabet.contains_iff] at low high
      unfold Alphabet.keyCount at few
      rw [values, Finset.card_union_of_disjoint own, others, Int.card_Icc, List.map_cons,
        List.sum_cons]
      omega

end KeyInterval

namespace State

variable {alphabet : Alphabet} {state : State}

theorem separate_intervals (ordered : state.Ordered alphabet) :
    KeyInterval.Separate alphabet state.intervals where
  upright := by
    intro interval member
    rcases List.mem_append.mp member with first | second
    · rcases List.mem_map.mp first with ⟨single, _, rfl⟩
      exact Int.le_refl _
    · rcases List.mem_map.mp second with ⟨range, isRange, rfl⟩
      exact ordered.upright range (by simpa using isRange)
  disjoint := by
    rw [intervals, List.pairwise_append, List.pairwise_map, List.pairwise_map]
    refine ⟨ordered.singles.imp .inl, ordered.ranges.imp .inl, ?_⟩
    intro first isFirst second isSecond
    rcases List.mem_map.mp isFirst with ⟨single, isSingle, rfl⟩
    rcases List.mem_map.mp isSecond with ⟨range, isRange, rfl⟩
    have apart := ordered.apart single (by simpa using isSingle) range (by simpa using isRange)
    dsimp only
    omega

theorem toNat_coveredKeys_intervals (alphabet : Alphabet) (state : State) :
    (Graph.coveredKeys alphabet state).toNat = (state.intervals.map fun interval =>
      (alphabet.span interval.low interval.high).toNat).sum % 2 ^ 64 := by
  rw [Graph.coveredKeys_eq_foldl, Graph.toNat_foldl_span, intervals, List.map_append,
    List.sum_append]
  simp [Function.comp_def, Graph.toNat_span_self]

theorem value_mem_values_iff {key : Key} :
    alphabet.value key ∈ KeyInterval.values alphabet state.intervals ↔
      (∃ single ∈ state.singles, single.key = key) ∨
        ∃ range ∈ state.ranges, alphabet.value range.low ≤ alphabet.value key ∧
          alphabet.value key ≤ alphabet.value range.high := by
  have same : ∀ single : Single, alphabet.value single.key ≤ alphabet.value key ∧
      alphabet.value key ≤ alphabet.value single.key ↔ single.key = key := by
    intro single
    rw [← Int.le_antisymm_iff, alphabet.value_inj]
  simp [KeyInterval.mem_values, intervals, or_and_right, exists_or, same]

/-- Among keys of an alphabet of fewer than 2^64 keys, counting tells whether all are claimed. -/
theorem counts_iff_covers (ordered : state.Ordered alphabet)
    (within : state.fallback = none → KeyInterval.Within alphabet state.intervals)
    (few : alphabet.keyCount < 2 ^ 64) :
    Graph.Counts alphabet state ↔ Graph.Covers alphabet state := by
  refine forall_congr' fun missing => ?_
  have inside := KeyInterval.values_subset (within missing)
  have same : Graph.coveredKeys alphabet state = alphabet.span alphabet.low alphabet.high ↔
      KeyInterval.values alphabet state.intervals =
        Finset.Icc (alphabet.value alphabet.low) (alphabet.value alphabet.high) := by
    have fits := Finset.card_le_card inside
    have total := alphabet.toNat_span_eq_card few
    have bound := (alphabet.span alphabet.low alphabet.high).toNat_lt
    rw [← UInt64.toNat_inj, toNat_coveredKeys_intervals,
      ← KeyInterval.card_values (separate_intervals ordered) (within missing) few, total,
      Nat.mod_eq_of_lt (by omega)]
    exact ⟨fun equal => Finset.eq_of_subset_of_card_le inside (Nat.le_of_eq equal.symm),
      congrArg Finset.card⟩
  rw [same]
  constructor
  · intro all key contained
    rw [← value_mem_values_iff, all, Finset.mem_Icc]
    exact (alphabet.contains_iff key).mp contained
  · intro covers
    refine Finset.Subset.antisymm inside fun number isNumber => ?_
    rcases Finset.mem_Icc.mp isNumber with ⟨above, below⟩
    rcases alphabet.exists_key_of_value above below with ⟨key, rfl⟩
    exact value_mem_values_iff.mpr (covers key ((alphabet.contains_iff key).mpr ⟨above, below⟩))

/-- A state that does not cover the alphabet has no transition for some key. -/
theorem exists_unlocated (ordered : state.Ordered alphabet) (gap : ¬Graph.Covers alphabet state) :
    ∃ key, alphabet.contains key = true ∧ state.locate alphabet key = none := by
  simp only [Graph.Covers, not_forall, not_or, not_exists, not_and] at gap
  rcases gap with ⟨missing, key, contained, noSingle, noRange⟩
  refine ⟨key, contained, ?_⟩
  rw [locate_of_outside ordered noSingle fun range member inside =>
    noRange range member inside.1 inside.2, missing]

end State

/-! ## Reports of missing keys -/

namespace Graph

variable {graph : Graph} {text : String}

theorem checkRanges_ne_uncovered {alphabet : Alphabet} {state : String} {index : Nat}
    {previous : Option Range} (ranges : List Range) :
    checkRanges alphabet state index previous ranges ≠ .error (.uncovered text) := by
  intro reported
  induction ranges generalizing index previous with
  | nil => cases reported
  | cons range rest induction =>
      unfold checkRanges at reported
      split at reported
      next => cases reported
      next =>
        split at reported
        next =>
          split at reported
          next => exact induction reported
          next => cases reported
        next => exact induction reported

theorem checkOutcomes_ne_uncovered {id : Nat} {space : ConditionSpace}
    {previous : Option ConditionValue} (outcomes : List Outcome) :
    checkOutcomes id space previous outcomes ≠ .error (.uncovered text) := by
  intro reported
  induction outcomes generalizing previous with
  | nil => cases reported
  | cons outcome rest induction =>
      unfold checkOutcomes at reported
      split at reported
      next => cases reported
      next =>
        split at reported
        next =>
          split at reported
          next => cases reported
          next => exact induction reported
        next => exact induction reported

theorem checkTransition_ne_uncovered (id : Nat) (transition : Transition) :
    graph.checkTransition id transition ≠ .error (.uncovered text) := by
  intro reported
  unfold checkTransition at reported
  split at reported
  next =>
    split at reported
    next => cases reported
    next => cases reported
  next => exact checkOutcomes_ne_uncovered _ reported

theorem exists_of_checkEach {α : Type} {check : Nat → α → Except GraphError Unit} {start : Nat}
    {parts : List α} {problem : GraphError}
    (reported : checkEach check start parts = .error problem) :
    ∃ index part, parts[index]? = some part ∧ check (start + index) part = .error problem := by
  induction parts generalizing start with
  | nil => cases reported
  | cons first rest induction =>
      unfold checkEach at reported
      split at reported
      next found =>
        cases reported
        exact ⟨0, first, rfl, found⟩
      next =>
        rcases induction reported with ⟨index, part, found, failed⟩
        refine ⟨index + 1, part, found, ?_⟩
        rwa [Nat.add_assoc, Nat.add_comm 1] at failed

theorem not_counts_of_checkState {id : Nat} {state : State}
    (reported : graph.checkState id state = .error (.uncovered text)) :
    text = state.text id ∧ ¬Counts graph.alphabet state := by
  unfold checkState at reported
  dsimp only at reported
  split at reported
  next => cases reported
  split at reported
  next => cases reported
  rcases bind_eq_error.mp reported with ranges | ⟨_, _, reported⟩
  · exact absurd ranges (checkRanges_ne_uncovered _)
  split at reported
  next => cases reported
  split at reported
  next uncovered =>
    cases reported
    exact ⟨rfl, by simpa [Counts] using uncovered⟩
  next =>
    split at reported
    next => cases reported
    next => cases reported

theorem exists_state_of_uncovered (reported : graph.validate = .error (.uncovered text)) :
    ∃ id state, graph.states[id]? = some state ∧ text = state.text id ∧
      ¬Counts graph.alphabet state := by
  unfold validate at reported
  rcases bind_eq_error.mp reported with states | ⟨_, _, reported⟩
  · rcases exists_of_checkEach states with ⟨id, state, found, failed⟩
    rw [Nat.zero_add] at failed
    exact ⟨id, state, by simpa using found, not_counts_of_checkState failed⟩
  · dsimp only at reported
    split at reported
    next => cases reported
    next =>
      rcases exists_of_checkEach reported with ⟨id, transition, _, failed⟩
      exact absurd failed (checkTransition_ne_uncovered _ _)

/-- If the keys that states without a fallback claim are keys of the alphabet, and it has fewer than
2^64 of them, then a valid graph has a transition for every key in every state, and a state that is
reported to miss a key has none for some key. -/
theorem coverage_check_exact
    (ordered : ∀ state ∈ graph.states, state.Ordered graph.alphabet)
    (within : ∀ state ∈ graph.states, state.fallback = none →
      KeyInterval.Within graph.alphabet state.intervals)
    (few : graph.alphabet.keyCount < 2 ^ 64) :
    (graph.validate = .ok () → ∀ id < graph.states.size, ∀ key,
      graph.alphabet.contains key = true → graph.locate id key ≠ none) ∧
    ∀ text, graph.validate = .error (.uncovered text) →
      ∃ id state, graph.states[id]? = some state ∧ text = state.text id ∧
        ∃ key, graph.alphabet.contains key = true ∧ graph.locate id key = none := by
  constructor
  · intro fine id declared key contained
    have found := Array.getElem?_eq_getElem declared
    have member := Array.mem_of_getElem? found
    have covers := (State.counts_iff_covers (ordered _ member) (within _ member) few).mp
      (counts_of_validate fine member)
    rcases State.exists_locate (ordered _ member) covers contained with ⟨transition, located⟩
    rw [locate, found]
    simp [located]
  · intro text reported
    rcases exists_state_of_uncovered reported with ⟨id, state, found, isText, miscounts⟩
    have member := Array.mem_of_getElem? found
    have gap : ¬Covers graph.alphabet state := fun covers =>
      miscounts ((State.counts_iff_covers (ordered _ member) (within _ member) few).mpr covers)
    rcases State.exists_unlocated (ordered _ member) gap with ⟨key, contained, unlocated⟩
    refine ⟨id, state, found, isText, key, contained, ?_⟩
    rw [locate, found]
    exact unlocated

end Graph

namespace Sample

def narrowDraft : Draft :=
  let alphabet : Alphabet :=
    { Alphabet.full ⟨true, .one⟩ with low := .ofInt 97, high := .ofInt 99, narrowed := true }
  let operations : List DraftStep := [
    .setStart "only",
    .addClaim "only" ⟨.ofInt 97, .ofInt 99, .plain ⟨"only", []⟩⟩]
  operations.foldl Draft.perform (.empty "narrow" alphabet)

def narrow : Graph :=
  narrowDraft.assemble.mergeDuplicates

def narrowClaiming (low high : Int) : Graph :=
  { narrow with states := narrow.states.map fun state =>
      { state with ranges := #[⟨.ofInt low, .ofInt high, 0⟩] } }

theorem built_narrow : narrow.Built ∧ narrow = narrowClaiming 97 99 := by
  have drafted : narrowDraft.Drafted := (Draft.Drafted.empty _ _).foldl (by decide +kernel)
  exact ⟨Graph.built_of_checks drafted (by decide +kernel), by decide +kernel⟩

theorem ordered_narrowClaiming {low high : Int}
    (upright : narrow.alphabet.value (.ofInt low) ≤ narrow.alphabet.value (.ofInt high)) :
    ∀ state ∈ (narrowClaiming low high).states,
      state.Ordered (narrowClaiming low high).alphabet := by
  intro state member
  rcases Array.mem_map.mp member with ⟨own, isOwn, rfl⟩
  have unclaimed : ∀ state ∈ narrow.states, state.singles = #[] := by decide +kernel
  constructor
  · simp [unclaimed own isOwn]
  · simp
  · intro range isRange
    cases (by simpa using isRange : range = ⟨.ofInt low, .ofInt high, 0⟩)
    exact upright
  · simp [unclaimed own isOwn]

theorem locate_narrowClaiming {low high : Int}
    (upright : narrow.alphabet.value (.ofInt low) ≤ narrow.alphabet.value (.ofInt high)) {key : Key}
    (inside : narrow.alphabet.value (.ofInt low) ≤ narrow.alphabet.value key ∧
      narrow.alphabet.value key ≤ narrow.alphabet.value (.ofInt high)) :
    (narrowClaiming low high).locate 0 key = some 0 := by
  have declared : 0 < (narrowClaiming low high).states.size := by
    rw [narrowClaiming, Array.size_map]
    decide +kernel
  have found := Array.getElem?_eq_getElem declared
  rw [Graph.locate, found]
  exact State.locate_of_range (ordered_narrowClaiming upright _ (Array.mem_of_getElem? found))
    (by simp [narrowClaiming] :
      (⟨.ofInt low, .ofInt high, 0⟩ : Range) ∈ (narrowClaiming low high).states[0].ranges) inside

end Sample

/-- A state that claims two of three keys is reported, and it has no transition for the third. -/
theorem coverage_check_exact_sample :
    (Sample.narrowClaiming 98 99).validate = .error (.uncovered "(state 0 'only')") ∧
      ∃ id state, (Sample.narrowClaiming 98 99).states[id]? = some state ∧
        "(state 0 'only')" = state.text id ∧
        ∃ key, (Sample.narrowClaiming 98 99).alphabet.contains key = true ∧
          (Sample.narrowClaiming 98 99).locate id key = none := by
  have reported : (Sample.narrowClaiming 98 99).validate =
      .error (.uncovered "(state 0 'only')") := by decide +kernel
  have within : ∀ state ∈ (Sample.narrowClaiming 98 99).states, state.fallback = none →
      KeyInterval.Within (Sample.narrowClaiming 98 99).alphabet state.intervals := by
    unfold KeyInterval.Within
    decide +kernel
  have exact := Graph.coverage_check_exact (Sample.ordered_narrowClaiming (by decide +kernel))
    within (by decide +kernel)
  exact ⟨reported, exact.2 _ reported⟩

/-- An interval that reaches beyond the alphabet makes up for a missing key, and makes too many out
of all keys. -/
theorem coverage_miscounted_sample :
    (Sample.narrow.Built ∧ Sample.narrow = Sample.narrowClaiming 97 99) ∧
    ((∀ state ∈ (Sample.narrowClaiming 98 100).states,
        state.Ordered (Sample.narrowClaiming 98 100).alphabet) ∧
      (Sample.narrowClaiming 98 100).validate = .ok () ∧
      (Sample.narrowClaiming 98 100).alphabet.contains (.ofInt 97) = true ∧
      (Sample.narrowClaiming 98 100).locate 0 (.ofInt 97) = none) ∧
    (∀ state ∈ (Sample.narrowClaiming 97 100).states,
        state.Ordered (Sample.narrowClaiming 97 100).alphabet) ∧
      (Sample.narrowClaiming 97 100).validate = .error (.uncovered "(state 0 'only')") ∧
      ∀ key, (Sample.narrowClaiming 97 100).alphabet.contains key = true →
        (Sample.narrowClaiming 97 100).locate 0 key ≠ none := by
  refine ⟨Sample.built_narrow, ⟨Sample.ordered_narrowClaiming (by decide +kernel),
    by decide +kernel⟩, Sample.ordered_narrowClaiming (by decide +kernel), by decide +kernel, ?_⟩
  intro key contained
  have upright : Sample.narrow.alphabet.value (.ofInt 97) ≤
      Sample.narrow.alphabet.value (.ofInt 100) := by decide +kernel
  have bounds : Sample.narrow.alphabet.value Sample.narrow.alphabet.low =
        Sample.narrow.alphabet.value (.ofInt 97) ∧
      Sample.narrow.alphabet.value Sample.narrow.alphabet.high <
        Sample.narrow.alphabet.value (.ofInt 100) := by decide +kernel
  rcases (Alphabet.contains_iff _ key).mp contained with ⟨above, below⟩
  have inside : Sample.narrow.alphabet.value (.ofInt 97) ≤ Sample.narrow.alphabet.value key ∧
      Sample.narrow.alphabet.value key ≤ Sample.narrow.alphabet.value (.ofInt 100) :=
    ⟨bounds.1 ▸ above, Int.le_of_lt (Int.lt_of_le_of_lt below bounds.2)⟩
  rw [Sample.locate_narrowClaiming upright inside]
  simp

end StateTables
