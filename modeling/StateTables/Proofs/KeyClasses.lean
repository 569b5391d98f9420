import StateTables.Proofs.DenseLookup

/-! # Classes of keys

The classes of a graph cut the envelope of all states into intervals. The table of
classes has the number of the class at the place of every key. A class has no start
or end of a single or range inside, so all its keys are treated alike by all states.
-/

namespace StateTables

namespace Graph

section Starts

variable {alphabet : Alphabet}

def Ascending (alphabet : Alphabet) (keys : List Key) : Prop :=
  keys.Pairwise fun first second => alphabet.value first < alphabet.value second

theorem mem_insertBoundary {key other : Key} {keys : List Key} :
    other ∈ insertBoundary alphabet key keys ↔ other = key ∨ other ∈ keys := by
  induction keys with
  | nil => simp [insertBoundary]
  | cons head tail induction =>
      unfold insertBoundary
      split
      next => simp
      next same =>
        have same := (alphabet.compare_eq_eq_iff key head).mp same
        simp [same]
      next =>
        simp only [List.mem_cons, induction]
        exact or_left_comm

theorem Ascending.insertBoundary {keys : List Key} (ascending : Ascending alphabet keys)
    (key : Key) : Ascending alphabet (insertBoundary alphabet key keys) := by
  induction keys with
  | nil => exact .cons (by simp) .nil
  | cons head tail induction =>
      rcases List.pairwise_cons.mp ascending with ⟨headFirst, tailAscending⟩
      unfold Graph.insertBoundary
      split
      next below =>
        have below := (alphabet.compare_eq_lt_iff key head).mp below
        refine .cons ?_ ascending
        intro other member
        rcases List.mem_cons.mp member with rfl | later
        · exact below
        · exact Int.lt_trans below (headFirst other later)
      next => exact ascending
      next above =>
        have above := (alphabet.compare_eq_gt_iff key head).mp above
        refine .cons ?_ (induction tailAscending)
        intro other member
        rcases mem_insertBoundary.mp member with rfl | later
        · exact above
        · exact headFirst other later

theorem foldl_insertBoundary (keys : List Key) {starts : List Key}
    (ascending : Ascending alphabet starts) :
    Ascending alphabet (keys.foldl (fun starts key => Graph.insertBoundary alphabet key starts)
        starts) ∧
      ∀ other, other ∈ keys.foldl (fun starts key => Graph.insertBoundary alphabet key starts)
        starts ↔ other ∈ keys ∨ other ∈ starts := by
  induction keys generalizing starts with
  | nil => simpa using ascending
  | cons key rest induction =>
      rcases induction (ascending.insertBoundary key) with ⟨ordered, members⟩
      refine ⟨ordered, fun other => ?_⟩
      rw [List.foldl_cons, members, mem_insertBoundary, List.mem_cons, or_assoc]
      exact or_left_comm

end Starts

/-! ## Intervals between starts -/

section Classes

variable {alphabet : Alphabet} {highest : Key}

def classNumbers (first : Nat) (classes : List KeyInterval) : List Nat :=
  (classes.zipIdx first).flatMap fun (interval, number) => interval.keys.map fun _ => number

theorem classNumbers_cons (first : Nat) (interval : KeyInterval) (rest : List KeyInterval) :
    classNumbers first (interval :: rest) =
      interval.keys.map (fun _ => first) ++ classNumbers (first + 1) rest := by
  simp [classNumbers, List.zipIdx_cons]

theorem length_keys_between {start next : Key}
    (before : alphabet.value start < alphabet.value next) :
    ((KeyInterval.keys ⟨start, next.predecessor⟩).length : Int) =
      alphabet.value next - alphabet.value start := by
  have last := alphabet.value_predecessor before
  have ordered : alphabet.value start ≤ alphabet.value next.predecessor := by omega
  have length := KeyInterval.length_keys ⟨start, next.predecessor⟩ ordered
  dsimp only at length
  omega

theorem upright_classesFrom {starts : List Key} (ascending : Ascending alphabet starts)
    (inside : ∀ start ∈ starts, alphabet.value start ≤ alphabet.value highest)
    {interval : KeyInterval} (member : interval ∈ classesFrom highest starts) :
    interval.low ∈ starts ∧ alphabet.value interval.low ≤ alphabet.value interval.high := by
  induction starts with
  | nil => simp [classesFrom] at member
  | cons start rest induction =>
      cases rest with
      | nil =>
          have same : interval = ⟨start, highest⟩ := by simpa [classesFrom] using member
          subst same
          exact ⟨by simp, inside start (by simp)⟩
      | cons next rest =>
          rcases List.pairwise_cons.mp ascending with ⟨startFirst, later⟩
          rcases List.mem_cons.mp member with rfl | behind
          · have last := alphabet.value_predecessor (startFirst next (by simp))
            have before := startFirst next (by simp)
            exact ⟨by simp, by dsimp only; omega⟩
          · rcases induction later (fun other found => inside other (by simp [found])) behind with
              ⟨found, upright⟩
            exact ⟨List.mem_cons_of_mem _ found, upright⟩

theorem pairwise_classesFrom {starts : List Key} (ascending : Ascending alphabet starts)
    (inside : ∀ start ∈ starts, alphabet.value start ≤ alphabet.value highest) :
    (classesFrom highest starts).Pairwise fun first second =>
      alphabet.value first.high < alphabet.value second.low := by
  induction starts with
  | nil => exact .nil
  | cons start rest induction =>
      cases rest with
      | nil => exact .cons (by simp) .nil
      | cons next rest =>
          rcases List.pairwise_cons.mp ascending with ⟨startFirst, later⟩
          have laterInside : ∀ other ∈ next :: rest,
              alphabet.value other ≤ alphabet.value highest :=
            fun other found => inside other (by simp [found])
          refine .cons ?_ (induction later laterInside)
          intro interval member
          have last := alphabet.value_predecessor (startFirst next (by simp))
          rcases List.mem_cons.mp (upright_classesFrom later laterInside member).1 with first | behind
          · rw [first]
            dsimp only
            omega
          · have order := List.rel_of_pairwise_cons later behind
            dsimp only
            omega

/-- No start lies within a class, except where the class itself starts. -/
theorem start_outside_class {starts : List Key} (ascending : Ascending alphabet starts)
    (inside : ∀ start ∈ starts, alphabet.value start ≤ alphabet.value highest)
    {interval : KeyInterval} (member : interval ∈ classesFrom highest starts) {start : Key}
    (isStart : start ∈ starts) (behind : alphabet.value interval.low < alphabet.value start) :
    alphabet.value interval.high < alphabet.value start := by
  induction starts with
  | nil => cases isStart
  | cons first rest induction =>
      cases rest with
      | nil =>
          have same : interval = ⟨first, highest⟩ := by simpa [classesFrom] using member
          have only : start = first := by simpa using isStart
          subst same only
          exact absurd behind (Int.lt_irrefl _)
      | cons next rest =>
          rcases List.pairwise_cons.mp ascending with ⟨firstFirst, later⟩
          have laterInside : ∀ other ∈ next :: rest,
              alphabet.value other ≤ alphabet.value highest :=
            fun other found => inside other (by simp [found])
          have last := alphabet.value_predecessor (firstFirst next (by simp))
          rcases List.mem_cons.mp member with rfl | classLater
          · rcases List.mem_cons.mp isStart with rfl | startLater
            · exact absurd behind (Int.lt_irrefl _)
            · rcases List.mem_cons.mp startLater with rfl | startBehind
              · dsimp only
                omega
              · have order := List.rel_of_pairwise_cons later startBehind
                dsimp only
                omega
          · rcases List.mem_cons.mp isStart with rfl | startLater
            · have classStart := (upright_classesFrom later laterInside classLater).1
              have order := firstFirst interval.low classStart
              omega
            · exact induction later laterInside classLater startLater

/-- At the place of a key stands the number of the class that contains it. -/
theorem getElem?_classNumbers {start : Key} {rest : List Key} (number : Nat)
    (ascending : Ascending alphabet (start :: rest)) {key : Key}
    (above : alphabet.value start ≤ alphabet.value key)
    (below : alphabet.value key ≤ alphabet.value highest) :
    ∃ index interval, (classesFrom highest (start :: rest))[index]? = some interval ∧
      interval.Contains alphabet key ∧
      (classNumbers number (classesFrom highest (start :: rest)))[
        (start.distance key).toNat]? = some (number + index) := by
  induction rest generalizing start number with
  | nil =>
      have contains : KeyInterval.Contains alphabet ⟨start, highest⟩ key := ⟨above, below⟩
      have stands := KeyInterval.getElem?_keys contains
      have inside := (List.getElem?_eq_some_iff.mp stands).1
      refine ⟨0, ⟨start, highest⟩, rfl, contains, ?_⟩
      simp only [classesFrom, classNumbers_cons]
      rw [List.getElem?_append_left (by simpa using inside), List.getElem?_map, stands]
      rfl
  | cons next rest induction =>
      rcases List.pairwise_cons.mp ascending with ⟨startFirst, later⟩
      have before := startFirst next (by simp)
      have last := alphabet.value_predecessor before
      have length := length_keys_between before
      have distance := alphabet.toNat_distance above
      simp only [classesFrom, classNumbers_cons]
      by_cases first : alphabet.value key < alphabet.value next
      · refine ⟨0, ⟨start, next.predecessor⟩, rfl, ⟨above, by dsimp only; omega⟩, ?_⟩
        have inside : (start.distance key).toNat <
            (KeyInterval.keys ⟨start, next.predecessor⟩).length := by omega
        rw [List.getElem?_append_left (by simpa using inside), List.getElem?_map,
          List.getElem?_eq_getElem inside]
        rfl
      · have nextAbove : alphabet.value next ≤ alphabet.value key := by omega
        rcases induction (number + 1) later nextAbove with
          ⟨index, interval, found, contains, stored⟩
        refine ⟨index + 1, interval, found, contains, ?_⟩
        have nextDistance := alphabet.toNat_distance nextAbove
        rw [List.getElem?_append_right (by simp; omega), List.length_map]
        have place : (start.distance key).toNat -
            (KeyInterval.keys ⟨start, next.predecessor⟩).length =
              (next.distance key).toNat := by omega
        rw [place, stored, Nat.add_right_comm, Nat.add_assoc]

end Classes

/-! ## The classes of a graph -/

section Envelope

variable {graph : Graph} {envelope : KeyInterval}

def classStarts (graph : Graph) (envelope : KeyInterval) : List Key :=
  ((graph.states.toList.flatMap State.intervals).flatMap
    (boundaries graph.alphabet envelope.high)).foldl
      (fun starts key => insertBoundary graph.alphabet key starts) [envelope.low]

theorem keyClasses_eq (graph : Graph) (envelope : KeyInterval) :
    graph.keyClasses envelope = (classesFrom envelope.high (graph.classStarts envelope)).toArray :=
  rfl

theorem ascending_classStarts (graph : Graph) (envelope : KeyInterval) :
    Ascending graph.alphabet (graph.classStarts envelope) :=
  (foldl_insertBoundary _ (.cons (by simp) .nil)).1

theorem mem_classStarts {key : Key} : key ∈ graph.classStarts envelope ↔
    (∃ state ∈ graph.states, ∃ interval ∈ state.intervals,
      key ∈ boundaries graph.alphabet envelope.high interval) ∨ key = envelope.low := by
  unfold classStarts
  rw [(foldl_insertBoundary _ (.cons (by simp) .nil)).2]
  simp only [List.mem_flatMap, Array.mem_toList_iff, List.mem_singleton]
  constructor
  · intro start
    rcases start with ⟨interval, ⟨state, declared, member⟩, boundary⟩ | first
    · exact .inl ⟨state, declared, interval, member, boundary⟩
    · exact .inr first
  · intro start
    rcases start with ⟨state, declared, interval, member, boundary⟩ | first
    · exact .inl ⟨interval, ⟨state, declared, member⟩, boundary⟩
    · exact .inr first

theorem mem_boundaries {alphabet : Alphabet} {highest key : Key} {interval : KeyInterval} :
    key ∈ boundaries alphabet highest interval ↔ key = interval.low ∨
      (interval.high ≠ alphabet.high ∧ alphabet.value interval.high < alphabet.value highest ∧
        key = interval.high.successor) := by
  unfold boundaries
  split
  next further =>
    simp only [Bool.and_eq_true, bne_iff_ne, Alphabet.below_iff] at further
    simp [further]
  next nothing =>
    simp only [Bool.and_eq_true, bne_iff_ne, Alphabet.below_iff] at nothing
    simp only [List.mem_singleton, iff_self_or]
    intro further
    rcases further with ⟨notLast, below, _⟩
    exact absurd ⟨notLast, below⟩ nothing

theorem low_mem_classStarts (envelope : KeyInterval) {state : State}
    (declared : state ∈ graph.states) {interval : KeyInterval}
    (member : interval ∈ state.intervals) : interval.low ∈ graph.classStarts envelope :=
  mem_classStarts.mpr (.inl ⟨state, declared, interval, member, mem_boundaries.mpr (.inl rfl)⟩)

theorem successor_mem_classStarts {state : State} (declared : state ∈ graph.states)
    {interval : KeyInterval} (member : interval ∈ state.intervals) {key : Key}
    (contained : graph.alphabet.contains key = true)
    (early : graph.alphabet.value interval.high < graph.alphabet.value key)
    (within : graph.alphabet.value key ≤ graph.alphabet.value envelope.high) :
    interval.high.successor ∈ graph.classStarts envelope := by
  have last := ((graph.alphabet.contains_iff key).mp contained).2
  have notLast : interval.high ≠ graph.alphabet.high := by
    intro same
    rw [same] at early
    omega
  exact mem_classStarts.mpr (.inl ⟨state, declared, interval, member,
    mem_boundaries.mpr (.inr ⟨notLast, by omega, rfl⟩)⟩)

theorem state_envelope_within (whole : graph.envelope = some envelope) {state : State}
    (declared : state ∈ graph.states) {inner : KeyInterval}
    (own : state.envelope graph.alphabet = some inner) :
    graph.alphabet.value envelope.low ≤ graph.alphabet.value inner.low ∧
      graph.alphabet.value inner.high ≤ graph.alphabet.value envelope.high := by
  have listed : inner ∈ graph.states.toList.filterMap (State.envelope graph.alphabet) :=
    List.mem_filterMap.mpr ⟨state, by simpa using declared, own⟩
  exact KeyInterval.within_envelope whole listed

theorem within_graph_envelope (whole : graph.envelope = some envelope) {state : State}
    (declared : state ∈ graph.states) {interval : KeyInterval}
    (member : interval ∈ state.intervals) :
    graph.alphabet.value envelope.low ≤ graph.alphabet.value interval.low ∧
      graph.alphabet.value interval.high ≤ graph.alphabet.value envelope.high := by
  cases own : state.envelope graph.alphabet with
  | none =>
      rw [KeyInterval.envelope_eq_none own] at member
      cases member
  | some inner =>
      have outer := state_envelope_within whole declared own
      have inside := KeyInterval.within_envelope own member
      omega

variable (ordered : ∀ state ∈ graph.states, state.Ordered graph.alphabet)
  (whole : graph.envelope = some envelope)
include ordered whole

theorem upright_graph_envelope :
    graph.alphabet.value envelope.low ≤ graph.alphabet.value envelope.high := by
  refine KeyInterval.upright_envelope ?_ whole
  intro inner member
  rcases List.mem_filterMap.mp member with ⟨state, declared, own⟩
  exact KeyInterval.upright_envelope (fun interval inside =>
    State.upright_intervals (ordered state (by simpa using declared)) inside) own

theorem classStarts_within {key : Key} (member : key ∈ graph.classStarts envelope) :
    graph.alphabet.value envelope.low ≤ graph.alphabet.value key ∧
      graph.alphabet.value key ≤ graph.alphabet.value envelope.high := by
  have upright := upright_graph_envelope ordered whole
  rcases mem_classStarts.mp member with ⟨state, declared, interval, inside, boundary⟩ | rfl
  · have within := within_graph_envelope whole declared inside
    have order := State.upright_intervals (ordered state declared) inside
    rcases mem_boundaries.mp boundary with rfl | ⟨_, below, rfl⟩
    · omega
    · have next := graph.alphabet.value_successor below
      omega
  · exact ⟨Int.le_refl _, upright⟩

theorem classStarts_eq_cons : ∃ rest, graph.classStarts envelope = envelope.low :: rest := by
  have first : envelope.low ∈ graph.classStarts envelope := mem_classStarts.mpr (.inr rfl)
  have ascending := ascending_classStarts graph envelope
  cases starts : graph.classStarts envelope with
  | nil =>
      rw [starts] at first
      cases first
  | cons head rest =>
      have isStart : head ∈ graph.classStarts envelope := by simp [starts]
      have lowest := (classStarts_within ordered whole isStart).1
      rw [starts] at first ascending
      rcases List.mem_cons.mp first with same | later
      · exact ⟨rest, by rw [same]⟩
      · have order := List.rel_of_pairwise_cons ascending later
        omega

theorem start_le_high : ∀ start ∈ graph.classStarts envelope,
    graph.alphabet.value start ≤ graph.alphabet.value envelope.high :=
  fun _ isStart => (classStarts_within ordered whole isStart).2

variable {group : KeyInterval} (isClass : group ∈ graph.keyClasses envelope)
include isClass

theorem upright_keyClass : group.low ∈ graph.classStarts envelope ∧
    graph.alphabet.value group.low ≤ graph.alphabet.value group.high := by
  rw [keyClasses_eq, List.mem_toArray] at isClass
  exact upright_classesFrom (ascending_classStarts graph envelope) (start_le_high ordered whole)
    isClass

theorem start_outside_keyClass {start : Key} (isStart : start ∈ graph.classStarts envelope)
    (behind : graph.alphabet.value group.low < graph.alphabet.value start) :
    graph.alphabet.value group.high < graph.alphabet.value start := by
  rw [keyClasses_eq, List.mem_toArray] at isClass
  exact start_outside_class (ascending_classStarts graph envelope) (start_le_high ordered whole)
    isClass isStart behind

/-- All keys of a class lie in the same intervals of a state. -/
theorem contains_iff_of_class {state : State} (declared : state ∈ graph.states)
    {interval : KeyInterval} (member : interval ∈ state.intervals) {key : Key}
    (contained : graph.alphabet.contains key = true)
    (within : graph.alphabet.value key ≤ graph.alphabet.value envelope.high)
    (inside : group.Contains graph.alphabet key) :
    interval.Contains graph.alphabet key ↔ interval.Contains graph.alphabet group.low := by
  unfold KeyInterval.Contains at inside ⊢
  constructor
  · intro contains
    rcases contains with ⟨above, below⟩
    by_cases late : graph.alphabet.value group.low < graph.alphabet.value interval.low
    · have isStart := low_mem_classStarts envelope declared member
      have outside := start_outside_keyClass ordered whole isClass isStart late
      omega
    · omega
  · intro contains
    rcases contains with ⟨above, below⟩
    by_cases early : graph.alphabet.value interval.high < graph.alphabet.value key
    · -- The key behind the interval would be a start within the class.
      have next := graph.alphabet.value_successor early
      have isStart := successor_mem_classStarts declared member contained early within
      have outside := start_outside_keyClass ordered whole isClass isStart (by omega)
      omega
    · omega

end Envelope

end Graph

/-- Two keys that lie in the same intervals of a state have the same transition. -/
theorem State.locate_congr {alphabet : Alphabet} {state : State}
    (ordered : state.Ordered alphabet) {key other : Key}
    (same : ∀ interval ∈ state.intervals,
      interval.Contains alphabet key ↔ interval.Contains alphabet other) :
    state.locate alphabet key = state.locate alphabet other := by
  have singles : state.locateSingle alphabet key = state.locateSingle alphabet other := by
    apply Option.ext
    intro transition
    rw [locateSingle_iff ordered, locateSingle_iff ordered]
    have keys : ∀ single ∈ state.singles, single.key = key ↔ single.key = other := by
      intro single member
      have contains := same ⟨single.key, single.key⟩ (mem_intervals.mpr (.inl ⟨single, member, rfl⟩))
      rw [← alphabet.value_inj, ← alphabet.value_inj]
      unfold KeyInterval.Contains at contains
      dsimp only at contains
      omega
    constructor
    · intro located
      rcases located with ⟨single, member, isKey, found⟩
      exact ⟨single, member, (keys single member).mp isKey, found⟩
    · intro located
      rcases located with ⟨single, member, isOther, found⟩
      exact ⟨single, member, (keys single member).mpr isOther, found⟩
  have ranges : state.locateRange alphabet key = state.locateRange alphabet other := by
    apply Option.ext
    intro transition
    rw [locateRange_iff ordered, locateRange_iff ordered]
    constructor
    · intro located
      rcases located with ⟨range, member, contains, found⟩
      exact ⟨range, member, (same ⟨range.low, range.high⟩
        (mem_intervals.mpr (.inr ⟨range, member, rfl⟩))).mp contains, found⟩
    · intro located
      rcases located with ⟨range, member, contains, found⟩
      exact ⟨range, member, (same ⟨range.low, range.high⟩
        (mem_intervals.mpr (.inr ⟨range, member, rfl⟩))).mpr contains, found⟩
  rw [locate, locate, singles, ranges]

end StateTables
