import StateTables.Proofs.Slots

/-! # Lookup in dense rows

A dense row has an entry for every key between the lowest and the highest key of its
state. Keys outside take the default of the state, which is its fallback.
-/

namespace StateTables

/-! ## Intervals of keys -/

namespace KeyInterval

variable {alphabet : Alphabet}

def Contains (alphabet : Alphabet) (interval : KeyInterval) (key : Key) : Prop :=
  alphabet.value interval.low ≤ alphabet.value key ∧
    alphabet.value key ≤ alphabet.value interval.high

theorem outside_iff {interval : KeyInterval} {key : Key} :
    (alphabet.below key interval.low || alphabet.above key interval.high) = true ↔
      ¬interval.Contains alphabet key := by
  simp only [Bool.or_eq_true, Alphabet.below_iff, Alphabet.above_iff, Contains]
  omega

theorem length_keys (interval : KeyInterval)
    (upright : alphabet.value interval.low ≤ alphabet.value interval.high) :
    (interval.keys.length : Int) =
      alphabet.value interval.high - alphabet.value interval.low + 1 := by
  have distance := alphabet.toNat_distance upright
  rw [keys, List.length_map, List.length_range]
  omega

/-- A key of the interval stands at the place that its distance to the low key says. -/
theorem getElem?_keys {interval : KeyInterval} {key : Key}
    (contains : interval.Contains alphabet key) :
    interval.keys[(interval.low.distance key).toNat]? = some key := by
  have distance := alphabet.toNat_distance contains.1
  have whole := alphabet.toNat_distance (Int.le_trans contains.1 contains.2)
  have upper := contains.2
  rw [keys, List.getElem?_map, List.getElem?_range (by omega), Option.map_some,
    ← Alphabet.eq_add_distance]

/-- An interval whose keys can be addressed has a span, which is their number. -/
theorem toNat_span_eq_length {interval : KeyInterval}
    (upright : alphabet.value interval.low ≤ alphabet.value interval.high)
    (addressable : interval.keys.length < Graph.cellBound) :
    (alphabet.span interval.low interval.high).toNat = interval.keys.length := by
  have span := alphabet.toNat_span upright
  have length := interval.length_keys upright
  rw [Graph.cellBound_eq] at addressable
  omega

theorem low_widen_le (alphabet : Alphabet) (interval other : KeyInterval) :
    alphabet.value (interval.widen alphabet other).low ≤ alphabet.value interval.low ∧
      alphabet.value (interval.widen alphabet other).low ≤ alphabet.value other.low := by
  unfold widen
  dsimp only
  split
  next below =>
    have below := (alphabet.below_iff _ _).mp below
    omega
  next notBelow =>
    have notBelow : ¬alphabet.value other.low < alphabet.value interval.low := by
      simpa using notBelow
    omega

theorem le_high_widen (alphabet : Alphabet) (interval other : KeyInterval) :
    alphabet.value interval.high ≤ alphabet.value (interval.widen alphabet other).high ∧
      alphabet.value other.high ≤ alphabet.value (interval.widen alphabet other).high := by
  unfold widen
  dsimp only
  split
  next above =>
    have above := (alphabet.above_iff _ _).mp above
    omega
  next notAbove =>
    have notAbove : ¬alphabet.value interval.high < alphabet.value other.high := by
      simpa using notAbove
    omega

theorem within_foldl_widen (first : KeyInterval) (rest : List KeyInterval) :
    ∀ interval, interval = first ∨ interval ∈ rest →
      alphabet.value (rest.foldl (widen alphabet) first).low ≤ alphabet.value interval.low ∧
        alphabet.value interval.high ≤ alphabet.value (rest.foldl (widen alphabet) first).high := by
  induction rest generalizing first with
  | nil =>
      intro interval among
      rcases among with rfl | member
      · exact ⟨Int.le_refl _, Int.le_refl _⟩
      · cases member
  | cons next rest induction =>
      intro interval member
      have widened := induction (first.widen alphabet next) _ (.inl rfl)
      have low := low_widen_le alphabet first next
      have high := le_high_widen alphabet first next
      rw [List.foldl_cons]
      rcases member with rfl | member
      · omega
      · rcases List.mem_cons.mp member with rfl | later
        · omega
        · exact induction _ interval (.inr later)

theorem within_envelope {intervals : List KeyInterval} {whole : KeyInterval}
    (found : envelope alphabet intervals = some whole) {interval : KeyInterval}
    (member : interval ∈ intervals) :
    alphabet.value whole.low ≤ alphabet.value interval.low ∧
      alphabet.value interval.high ≤ alphabet.value whole.high := by
  cases intervals with
  | nil => cases member
  | cons first rest =>
      cases found
      exact within_foldl_widen first rest interval (List.mem_cons.mp member)

theorem upright_envelope {intervals : List KeyInterval} {whole : KeyInterval}
    (upright : ∀ interval ∈ intervals,
      alphabet.value interval.low ≤ alphabet.value interval.high)
    (found : envelope alphabet intervals = some whole) :
    alphabet.value whole.low ≤ alphabet.value whole.high := by
  cases intervals with
  | nil => cases found
  | cons first rest =>
      have inside := within_envelope found (List.mem_cons_self)
      have order := upright first List.mem_cons_self
      omega

theorem envelope_eq_none {intervals : List KeyInterval}
    (missing : envelope alphabet intervals = none) : intervals = [] := by
  cases intervals with
  | nil => rfl
  | cons first rest => cases missing

end KeyInterval

/-! ## Keys that a state does not claim -/

namespace State

variable {alphabet : Alphabet} {state : State}

theorem mem_intervals {interval : KeyInterval} : interval ∈ state.intervals ↔
    (∃ single ∈ state.singles, interval = ⟨single.key, single.key⟩) ∨
      ∃ range ∈ state.ranges, interval = ⟨range.low, range.high⟩ := by
  simp [intervals, eq_comm]

theorem upright_intervals (ordered : state.Ordered alphabet) {interval : KeyInterval}
    (member : interval ∈ state.intervals) :
    alphabet.value interval.low ≤ alphabet.value interval.high := by
  rcases mem_intervals.mp member with ⟨single, _, rfl⟩ | ⟨range, inside, rfl⟩
  · exact Int.le_refl _
  · exact ordered.upright range inside

theorem locate_eq_fallback (ordered : state.Ordered alphabet) {key : Key}
    (unclaimed : ∀ interval ∈ state.intervals, ¬interval.Contains alphabet key) :
    state.locate alphabet key = state.fallback := by
  have noSingle : state.locateSingle alphabet key = none := by
    cases located : state.locateSingle alphabet key with
    | none => rfl
    | some transition =>
        rcases (locateSingle_iff ordered).mp located with ⟨single, member, rfl, _⟩
        have claimed : ⟨single.key, single.key⟩ ∈ state.intervals :=
          mem_intervals.mpr (.inl ⟨single, member, rfl⟩)
        exact (unclaimed _ claimed ⟨Int.le_refl _, Int.le_refl _⟩).elim
  have noRange : state.locateRange alphabet key = none := by
    cases located : state.locateRange alphabet key with
    | none => rfl
    | some transition =>
        rcases (locateRange_iff ordered).mp located with ⟨range, member, contains, _⟩
        have claimed : ⟨range.low, range.high⟩ ∈ state.intervals :=
          mem_intervals.mpr (.inr ⟨range, member, rfl⟩)
        exact (unclaimed _ claimed contains).elim
  rw [locate, noSingle, noRange, Option.none_or, Option.none_or]

theorem locate_outside_envelope (ordered : state.Ordered alphabet) {key : Key}
    {envelope : KeyInterval} (found : state.envelope alphabet = some envelope)
    (outside : ¬envelope.Contains alphabet key) :
    state.locate alphabet key = state.fallback := by
  apply locate_eq_fallback ordered
  intro interval member contains
  have within := KeyInterval.within_envelope found member
  unfold KeyInterval.Contains at contains outside
  omega

theorem locate_without_envelope (ordered : state.Ordered alphabet) (key : Key)
    (missing : state.envelope alphabet = none) :
    state.locate alphabet key = state.fallback := by
  apply locate_eq_fallback ordered
  rw [KeyInterval.envelope_eq_none missing]
  simp

end State

/-! ## Columns of dense rows -/

namespace Graph

theorem getElem?_of_denseSlot {slots : List Nat} {transition slot : Nat}
    (found : denseSlot slots (some transition) = .ok slot) :
    slots[slot]? = some transition := by
  rcases map_eq_ok.mp found with ⟨_, inner, rfl⟩
  rcases map_eq_ok.mp inner with ⟨slot, isSlot, rfl⟩
  exact getElem?_of_slotOf isSlot

structure Dense (graph : Graph) (options : EncodingOptions) (slots : List Nat)
    (classes : Array KeyInterval) (rows : List (Option DenseRow)) (keys : FlatKeys) : Prop where
  classesMade : graph.classesFor options = .ok classes
  classMap : graph.classMapFor options classes = .ok keys.classMap
  row : ∀ (id : Nat) (state : State), graph.states[id]? = some state →
    ∃ row, rows[id]? = some row ∧ graph.denseRow options slots classes id state = .ok row
  transKeys : keys.transKeys.Holds (rows.flatMap DenseRow.bounds)
  keySpans : keys.keySpans.Holds
    (rows.map fun row => ((row.map DenseRow.span).getD 0).toInt64)
  indexOffsets : keys.indexOffsets.Counts
    (offsets 0 ((rows.map fun row => (row.map DenseRow.entries).getD []).map List.length))
  indices : keys.indices.Counts (rows.map fun row => (row.map DenseRow.entries).getD []).flatten
  addressable : (rows.map fun row => (row.map DenseRow.entries).getD []).flatten.length < cellBound
  default : ∀ (id : Nat) (state : State), graph.states[id]? = some state →
    ∃ slot, keys.indexDefaults.readIndex id = .ok slot ∧
      denseSlot slots state.fallback = .ok slot

theorem dense_of_flatKeys {graph : Graph} {options : EncodingOptions} {slots : List Nat}
    {keys : FlatKeys} (built : graph.flatKeys options slots = .ok keys) :
    ∃ classes rows, Dense graph options slots classes rows keys := by
  unfold flatKeys at built
  simp only [bind_eq_ok, pure_eq_ok] at built
  rcases built with ⟨classes, classesFound, rows, rowsMade, classMap, mapMade, defaults,
    defaultsMade, _, transKeys, _, keySpans, _, indexOffsets, _, indices, _, indexDefaults, rfl⟩
  refine ⟨classes, rows, {
    classesMade := classesFound
    classMap := mapMade
    row := ?_
    transKeys := (holds_of_column transKeys).1
    keySpans := (holds_of_column keySpans).1
    indexOffsets := (counts_of_counts indexOffsets).1
    indices := (counts_of_counts indices).1
    addressable := (counts_of_counts indices).2
    default := ?_ }⟩
  · intro id state declared
    exact (mapM_eq_ok.mp rowsMade).2 id (state, id) (by simp [List.getElem?_zipIdx, declared])
  · intro id state declared
    rcases (mapM_eq_ok.mp defaultsMade).2 id state (by simpa using declared) with
      ⟨slot, stored, isSlot⟩
    exact ⟨slot, (counts_of_counts indexDefaults).1.readIndex stored, isSlot⟩

/-! ## Reading a row -/

section Rows

variable {graph : Graph} {options : EncodingOptions} {slots : List Nat}
  {classes : Array KeyInterval} {rows : List (Option DenseRow)} {keys : FlatKeys}
  {id : Nat}

theorem toInt64_eq_zero {span : UInt64} (zero : span.toInt64 = 0) : span = 0 := by
  rw [← UInt64.toUInt64_toInt64 span, zero]
  rfl

theorem bounds_eq (row : Option DenseRow) :
    DenseRow.bounds row = [(row.map DenseRow.low).getD 0, (row.map DenseRow.high).getD 0] := by
  cases row <;> rfl

theorem Dense.read_bounds (dense : Dense graph options slots classes rows keys)
    {row : Option DenseRow} (found : rows[id]? = some row) :
    keys.transKeys.read (2 * id) = .ok ((row.map DenseRow.low).getD 0) ∧
      keys.transKeys.read (2 * id + 1) = .ok ((row.map DenseRow.high).getD 0) := by
  have holds := dense.transKeys
  simp only [funext bounds_eq] at holds
  have pair := getElem?_pairs (fun row : Option DenseRow => (row.map DenseRow.low).getD 0)
    (fun row => (row.map DenseRow.high).getD 0) found
  exact ⟨holds.read pair.1, holds.read pair.2⟩

theorem Dense.read_span (dense : Dense graph options slots classes rows keys)
    {row : Option DenseRow} (found : rows[id]? = some row) :
    keys.keySpans.read id = .ok ((row.map DenseRow.span).getD 0).toInt64 :=
  dense.keySpans.read (by simp [found])

theorem Dense.entry (dense : Dense graph options slots classes rows keys) {row : DenseRow}
    (found : rows[id]? = some (some row)) {distance slot : Nat}
    (stored : row.entries[distance]? = some slot) : keys.entry id distance = .ok slot := by
  have part : (rows.map fun row => (row.map DenseRow.entries).getD [])[id]? =
      some row.entries := by
    simp [found]
  have start := dense.indexOffsets.readIndex (getElem?_offsets 0 part)
  unfold FlatKeys.entry
  rw [start, Nat.zero_add]
  exact dense.indices.readIndex (getElem?_flatten_of_getElem? part stored)

theorem Dense.length_entries (dense : Dense graph options slots classes rows keys)
    {row : DenseRow} (found : rows[id]? = some (some row)) :
    row.entries.length < cellBound := by
  have member : row.entries ∈ rows.map fun row => (row.map DenseRow.entries).getD [] :=
    List.mem_map.mpr ⟨some row, List.mem_of_getElem? found, rfl⟩
  have part := (List.sublist_flatten_of_mem member).length_le
  have whole := dense.addressable
  omega

theorem Dense.read_default (dense : Dense graph options slots classes rows keys) {state : State}
    (declared : graph.states[id]? = some state) {transition : Nat}
    (fallback : state.fallback = some transition) :
    ∃ slot, keys.indexDefaults.readIndex id = .ok slot ∧ slots[slot]? = some transition := by
  rcases dense.default id state declared with ⟨slot, stored, isSlot⟩
  rw [fallback] at isSlot
  exact ⟨slot, stored, getElem?_of_denseSlot isSlot⟩

/-! ## Rows by keys -/

theorem keyRow_eq_ok {limit : UInt64} {state : State} {envelope : KeyInterval} {row : DenseRow}
    (made : graph.keyRow limit slots id state envelope = .ok row) :
    row.low = envelope.low.pattern ∧ row.high = envelope.high.pattern ∧
      row.span = graph.alphabet.span envelope.low envelope.high ∧
      envelope.keys.mapM (graph.denseEntry slots state) = .ok row.entries := by
  unfold keyRow at made
  dsimp only at made
  split at made
  next => cases made
  next =>
    simp only [bind_eq_ok, pure_eq_ok] at made
    rcases made with ⟨entries, steps, rfl⟩
    exact ⟨rfl, rfl, rfl, steps⟩

theorem Dense.locateByKey (dense : Dense graph options slots classes rows keys)
    (noClasses : options.classMap = false) {state : State}
    (declared : graph.states[id]? = some state) (ordered : state.Ordered graph.alphabet)
    {key : Key} {transition : Nat} (found : state.locate graph.alphabet key = some transition) :
    ∃ slot, keys.locateByKey graph.alphabet id key = .ok slot ∧ slots[slot]? = some transition := by
  rcases dense.row id state declared with ⟨row, rowFound, rowMade⟩
  rcases dense.read_bounds rowFound with ⟨low, high⟩
  unfold FlatKeys.locateByKey
  rw [low, high, dense.read_span rowFound]
  simp only [bind, Except.bind]
  unfold denseRow at rowMade
  cases claimed : state.envelope graph.alphabet with
  | none =>
      rw [claimed] at rowMade
      cases rowMade
      rw [State.locate_without_envelope ordered key claimed] at found
      rw [if_pos (by rfl)]
      exact dense.read_default declared found
  | some envelope =>
      simp only [claimed, noClasses, Bool.false_eq_true, if_false, map_eq_ok] at rowMade
      rcases rowMade with ⟨row, made, rfl⟩
      rcases keyRow_eq_ok made with ⟨rowLow, rowHigh, rowSpan, entries⟩
      have upright := KeyInterval.upright_envelope
        (fun interval member => State.upright_intervals ordered member) claimed
      have filled := (mapM_eq_ok.mp entries).1
      have addressable : envelope.keys.length < cellBound := by
        rw [← filled]
        exact dense.length_entries rowFound
      simp only [Option.map_some, Option.getD_some, rowLow, rowHigh, rowSpan]
      by_cases inside : envelope.Contains graph.alphabet key
      · have span := KeyInterval.toNat_span_eq_length upright addressable
        have length := envelope.length_keys upright
        have notEmpty : ¬(graph.alphabet.span envelope.low envelope.high).toInt64 = 0 := by
          intro empty
          rw [toInt64_eq_zero empty, UInt64.toNat_zero] at span
          omega
        rcases (mapM_eq_ok.mp entries).2 _ _ (KeyInterval.getElem?_keys inside) with
          ⟨slot, stored, isSlot⟩
        rw [if_neg (by
          have notBelow := Int.not_lt.mpr inside.1
          have notAbove := Int.not_lt.mpr inside.2
          simp [notEmpty, notBelow, notAbove])]
        unfold denseEntry at isSlot
        rw [found] at isSlot
        exact ⟨slot, dense.entry rowFound stored, getElem?_of_denseSlot isSlot⟩
      · rw [State.locate_outside_envelope ordered claimed inside] at found
        rw [Bool.or_assoc, KeyInterval.outside_iff.mpr inside, Bool.or_true, if_pos rfl]
        exact dense.read_default declared found

end Rows

end Graph

end StateTables
