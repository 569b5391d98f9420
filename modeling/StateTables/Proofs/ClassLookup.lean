import StateTables.Proofs.KeyClasses

/-! # Lookup through classes

With a table of classes a dense row has an entry for every class between those of the
lowest and the highest key of its state.
-/

namespace StateTables

namespace Graph

variable {graph : Graph} {envelope : KeyInterval}

/-! ## Numbers of classes -/

theorem classOf_eq_some {classes : Array KeyInterval} {key : Key} {number : Nat}
    (found : graph.classOf classes key = some number) :
    ∃ group, classes[number]? = some group ∧ group.Contains graph.alphabet key := by
  rcases Search.between_eq_some found with ⟨_, inside, hit⟩
  have group := Array.getElem?_eq_getElem inside
  simp only [group] at hit
  exact ⟨_, group, State.rangeSide_eq_eq_iff.mp hit⟩

theorem requireClass_eq_ok {classes : Array KeyInterval} {key : Key} {number : Nat}
    (found : graph.requireClass classes key = .ok number) :
    ∃ group, classes[number]? = some group ∧ group.Contains graph.alphabet key := by
  unfold requireClass at found
  split at found
  next other isClass =>
    cases found
    exact classOf_eq_some isClass
  next => cases found

section Classes

variable (ordered : ∀ state ∈ graph.states, state.Ordered graph.alphabet)
  (whole : graph.envelope = some envelope)
include ordered whole

/-- Keys of different classes are in the order of the classes. -/
theorem value_lt_of_class_lt {first second : Nat} {firstGroup secondGroup : KeyInterval}
    {firstKey secondKey : Key} (before : first < second)
    (firstFound : (graph.keyClasses envelope)[first]? = some firstGroup)
    (secondFound : (graph.keyClasses envelope)[second]? = some secondGroup)
    (firstInside : firstGroup.Contains graph.alphabet firstKey)
    (secondInside : secondGroup.Contains graph.alphabet secondKey) :
    graph.alphabet.value firstKey < graph.alphabet.value secondKey := by
  have apart := pairwise_classesFrom (ascending_classStarts graph envelope)
    (start_le_high ordered whole)
  simp only [keyClasses_eq, List.getElem?_toArray] at firstFound secondFound
  rcases List.getElem?_eq_some_iff.mp firstFound with ⟨firstBound, rfl⟩
  rcases List.getElem?_eq_some_iff.mp secondFound with ⟨secondBound, rfl⟩
  have order := List.pairwise_iff_getElem.mp apart first second firstBound secondBound before
  have above := firstInside.2
  have below := secondInside.1
  omega

theorem class_unique {first second : Nat} {firstGroup secondGroup : KeyInterval} {key : Key}
    (firstFound : (graph.keyClasses envelope)[first]? = some firstGroup)
    (secondFound : (graph.keyClasses envelope)[second]? = some secondGroup)
    (firstInside : firstGroup.Contains graph.alphabet key)
    (secondInside : secondGroup.Contains graph.alphabet key) : first = second := by
  rcases Nat.lt_trichotomy first second with before | same | behind
  · exact absurd (value_lt_of_class_lt ordered whole before firstFound secondFound firstInside
      secondInside) (Int.lt_irrefl _)
  · exact same
  · exact absurd (value_lt_of_class_lt ordered whole behind secondFound firstFound secondInside
      firstInside) (Int.lt_irrefl _)

theorem read_class {column : Column}
    (built : classColumn (graph.keyClasses envelope) = .ok column) {key : Key}
    (inside : envelope.Contains graph.alphabet key) :
    ∃ number group, (graph.keyClasses envelope)[number]? = some group ∧
      group.Contains graph.alphabet key ∧ number < cellBound ∧
      column.readIndex (envelope.low.distance key).toNat = .ok number := by
  have counts := (counts_of_counts built).1
  rcases classStarts_eq_cons ordered whole with ⟨rest, starts⟩
  have ascending := ascending_classStarts graph envelope
  change column.Counts (classNumbers 0 (graph.keyClasses envelope).toList) at counts
  rw [keyClasses_eq, starts] at counts ⊢
  rw [starts] at ascending
  rcases getElem?_classNumbers 0 ascending inside.1 inside.2 with
    ⟨number, group, found, contains, stored⟩
  rw [Nat.zero_add] at stored
  exact ⟨number, group, by simpa using found, contains,
    counts.2 number (List.mem_of_getElem? stored), counts.readIndex stored⟩

end Classes

/-! ## Rows by classes -/

theorem classRow_eq_ok {slots : List Nat} {classes : Array KeyInterval} {state : State}
    {inner : KeyInterval} {row : DenseRow}
    (made : graph.classRow slots classes state inner = .ok row) :
    ∃ low high, graph.requireClass classes inner.low = .ok low ∧
      graph.requireClass classes inner.high = .ok high ∧
      row.low = Int64.ofNat low ∧ row.high = Int64.ofNat high ∧
      row.span = UInt64.ofNat (high + 1 - low) ∧
      (classes.extract low (high + 1)).toList.mapM (fun interval =>
        graph.denseEntry slots state interval.low) = .ok row.entries := by
  unfold classRow at made
  simp only [bind_eq_ok, pure_eq_ok] at made
  rcases made with ⟨low, lowFound, high, highFound, entries, steps, rfl⟩
  exact ⟨low, high, lowFound, highFound, rfl, rfl, rfl, steps⟩

/-- The row of a state by classes: the classes it reaches over, and what it has for each
of them. -/
structure ClassRow (graph : Graph) (envelope : KeyInterval) (slots : List Nat) (state : State)
    (inner : KeyInterval) (low high : Nat) (row : DenseRow) : Prop where
  lowFound : ∃ group, (graph.keyClasses envelope)[low]? = some group ∧
    group.Contains graph.alphabet inner.low
  highFound : ∃ group, (graph.keyClasses envelope)[high]? = some group ∧
    group.Contains graph.alphabet inner.high
  rowLow : row.low = Int64.ofNat low
  rowHigh : row.high = Int64.ofNat high
  rowSpan : row.span = UInt64.ofNat (high + 1 - low)
  length : row.entries.length = high + 1 - low
  entry : ∀ (number : Nat) (group : KeyInterval), low ≤ number → number ≤ high →
    (graph.keyClasses envelope)[number]? = some group →
      ∃ slot, row.entries[number - low]? = some slot ∧
        denseSlot slots (state.locate graph.alphabet group.low) = .ok slot

theorem classRow_of_made {slots : List Nat} {state : State} {inner : KeyInterval} {row : DenseRow}
    (made : graph.classRow slots (graph.keyClasses envelope) state inner = .ok row) :
    ∃ low high, ClassRow graph envelope slots state inner low high row := by
  rcases classRow_eq_ok made with ⟨low, high, lowFound, highFound, rowLow, rowHigh, rowSpan, steps⟩
  rcases mapM_eq_ok.mp steps with ⟨length, each⟩
  have highest := requireClass_eq_ok highFound
  rcases highest with ⟨group, found, contains⟩
  rcases Array.getElem?_eq_some_iff.mp found with ⟨inside, _⟩
  refine ⟨low, high, {
    lowFound := requireClass_eq_ok lowFound
    highFound := ⟨group, found, contains⟩
    rowLow := rowLow
    rowHigh := rowHigh
    rowSpan := rowSpan
    length := ?_
    entry := ?_ }⟩
  · rw [length, Array.length_toList, Array.size_extract]
    omega
  · intro number other above below otherFound
    apply each (number - low) other
    rw [Array.getElem?_toList, Array.getElem?_extract, if_pos (by omega)]
    rwa [Nat.add_sub_cancel' above]

section Reach

variable {slots : List Nat} {state : State} {inner : KeyInterval} {low high : Nat} {row : DenseRow}
  (ordered : ∀ state ∈ graph.states, state.Ordered graph.alphabet)
  (whole : graph.envelope = some envelope) {number : Nat} {group : KeyInterval} {key : Key}
include ordered whole

theorem class_lt_cellBound {column : Column}
    (built : classColumn (graph.keyClasses envelope) = .ok column)
    (inside : envelope.Contains graph.alphabet key)
    (found : (graph.keyClasses envelope)[number]? = some group)
    (contains : group.Contains graph.alphabet key) : number < cellBound := by
  rcases read_class ordered whole built inside with
    ⟨other, otherGroup, otherFound, otherContains, fits, _⟩
  rwa [class_unique ordered whole found otherFound contains otherContains]

theorem ClassRow.low_le_high (classRow : ClassRow graph envelope slots state inner low high row)
    (upright : graph.alphabet.value inner.low ≤ graph.alphabet.value inner.high) : low ≤ high := by
  rcases classRow.lowFound with ⟨lowGroup, lowFound, lowContains⟩
  rcases classRow.highFound with ⟨highGroup, highFound, highContains⟩
  rcases Nat.lt_or_ge high low with before | order
  · have inverted := value_lt_of_class_lt ordered whole before highFound lowFound highContains
      lowContains
    omega
  · exact order

/-- All keys of a class lead where its first key leads, which is what the row has for it. -/
theorem ClassRow.entry_of_covered
    (classRow : ClassRow graph envelope slots state inner low high row)
    (member : state ∈ graph.states) (contained : graph.alphabet.contains key = true)
    (below : graph.alphabet.value key ≤ graph.alphabet.value envelope.high)
    (found : (graph.keyClasses envelope)[number]? = some group)
    (contains : group.Contains graph.alphabet key) (covered : low ≤ number ∧ number ≤ high) :
    ∃ slot, row.entries[number - low]? = some slot ∧
      denseSlot slots (state.locate graph.alphabet key) = .ok slot := by
  have isClass := Array.mem_of_getElem? found
  have alike := State.locate_congr (ordered state member) fun interval claimed =>
    contains_iff_of_class ordered whole isClass member claimed contained below contains
  rw [alike]
  exact classRow.entry number group covered.1 covered.2 found

theorem ClassRow.outside_of_uncovered
    (classRow : ClassRow graph envelope slots state inner low high row)
    (found : (graph.keyClasses envelope)[number]? = some group)
    (contains : group.Contains graph.alphabet key) (uncovered : ¬(low ≤ number ∧ number ≤ high)) :
    ¬inner.Contains graph.alphabet key := by
  rcases classRow.lowFound with ⟨lowGroup, lowFound, lowContains⟩
  rcases classRow.highFound with ⟨highGroup, highFound, highContains⟩
  intro inside
  rcases Nat.lt_or_ge number low with before | above
  · have order := value_lt_of_class_lt ordered whole before found lowFound contains lowContains
    have lower := inside.1
    omega
  · have order := value_lt_of_class_lt ordered whole (by omega) highFound found highContains
      contains
    have upper := inside.2
    omega

end Reach

section Rows

variable {options : EncodingOptions} {slots : List Nat} {classes : Array KeyInterval}
  {rows : List (Option DenseRow)} {keys : FlatKeys} {id : Nat}

theorem Dense.read_classRow (dense : Dense graph options slots classes rows keys)
    {state : State} {inner : KeyInterval} {low high : Nat} {row : DenseRow}
    (found : rows[id]? = some (some row))
    (classRow : ClassRow graph envelope slots state inner low high row)
    (lowFits : low < cellBound) (highFits : high < cellBound) (order : low ≤ high) :
    keys.transKeys.readIndex (2 * id) = .ok low ∧
      keys.transKeys.readIndex (2 * id + 1) = .ok high ∧
      ∃ span, keys.keySpans.read id = .ok span ∧ span ≠ 0 := by
  rcases dense.read_bounds found with ⟨lowRead, highRead⟩
  have spanRead := dense.read_span found
  have length := dense.length_entries found
  rw [Option.map_some, Option.getD_some, classRow.rowLow] at lowRead
  rw [Option.map_some, Option.getD_some, classRow.rowHigh] at highRead
  refine ⟨Column.readIndex_of_read lowRead lowFits, Column.readIndex_of_read highRead highFits,
    _, spanRead, ?_⟩
  intro zero
  have empty := congrArg UInt64.toNat (toInt64_eq_zero zero)
  rw [Option.map_some, Option.getD_some, classRow.rowSpan, UInt64.toNat_ofNat'] at empty
  rw [classRow.length, cellBound_eq] at length
  rw [Nat.mod_eq_of_lt (by omega)] at empty
  have positive : high + 1 - low ≠ 0 := by omega
  exact positive empty

variable (ordered : ∀ state ∈ graph.states, state.Ordered graph.alphabet)
include ordered

theorem Dense.locateByClass (dense : Dense graph options slots (graph.keyClasses envelope) rows keys)
    (byClasses : options.classMap = true) (whole : graph.envelope = some envelope) {column : Column}
    (built : classColumn (graph.keyClasses envelope) = .ok column) {state : State}
    (declared : graph.states[id]? = some state) {key : Key}
    (contained : graph.alphabet.contains key = true) {transition : Nat}
    (found : state.locate graph.alphabet key = some transition) :
    ∃ slot, keys.locateByClass graph.alphabet column envelope id key = .ok slot ∧
      slots[slot]? = some transition := by
  have member := Array.mem_of_getElem? declared
  have stateOrdered := ordered state member
  rcases dense.row id state declared with ⟨row, rowFound, rowMade⟩
  unfold denseRow at rowMade
  unfold FlatKeys.locateByClass
  cases claimed : state.envelope graph.alphabet with
  | none =>
      rw [claimed] at rowMade
      cases rowMade
      rw [State.locate_without_envelope stateOrdered key claimed] at found
      rw [dense.read_span rowFound]
      exact dense.read_default declared found
  | some inner =>
      simp only [claimed, byClasses, if_true, map_eq_ok] at rowMade
      rcases rowMade with ⟨row, made, rfl⟩
      rcases classRow_of_made made with ⟨low, high, classRow⟩
      have within := state_envelope_within whole member claimed
      have upright := KeyInterval.upright_envelope
        (fun interval inside => State.upright_intervals stateOrdered inside) claimed
      rcases classRow.lowFound with ⟨lowGroup, lowFound, lowContains⟩
      rcases classRow.highFound with ⟨highGroup, highFound, highContains⟩
      have lowFits := class_lt_cellBound ordered whole built ⟨within.1, by omega⟩ lowFound lowContains
      have highFits := class_lt_cellBound ordered whole built ⟨by omega, within.2⟩ highFound
        highContains
      rcases dense.read_classRow rowFound classRow lowFits highFits
        (classRow.low_le_high ordered whole upright) with
        ⟨readLow, readHigh, span, readSpan, notZero⟩
      rw [readSpan, readLow, readHigh]
      simp only [bind, Except.bind]
      by_cases inside : envelope.Contains graph.alphabet key
      · rcases read_class ordered whole built inside with
          ⟨number, group, groupFound, contains, _, readNumber⟩
        have notBelow := Int.not_lt.mpr inside.1
        have notAbove := Int.not_lt.mpr inside.2
        rw [if_neg (by simp [notZero, notBelow, notAbove]), readNumber]
        dsimp only
        by_cases covered : low ≤ number ∧ number ≤ high
        · rw [if_neg (by simp [covered])]
          rcases classRow.entry_of_covered ordered whole member contained inside.2 groupFound
            contains covered with ⟨slot, stored, isSlot⟩
          rw [found] at isSlot
          exact ⟨slot, dense.entry rowFound stored, getElem?_of_denseSlot isSlot⟩
        · have outside := classRow.outside_of_uncovered ordered whole groupFound contains covered
          rw [if_pos (by simp; omega)]
          rw [State.locate_outside_envelope stateOrdered claimed outside] at found
          exact dense.read_default declared found
      · have outside : ¬inner.Contains graph.alphabet key := by
          unfold KeyInterval.Contains at inside ⊢
          omega
        rw [Bool.or_assoc, KeyInterval.outside_iff.mpr inside, Bool.or_true, if_pos rfl]
        rw [State.locate_outside_envelope stateOrdered claimed outside] at found
        exact dense.read_default declared found

/-! ## All dense rows -/

theorem Dense.locate (dense : Dense graph options slots classes rows keys) {state : State}
    (declared : graph.states[id]? = some state) {key : Key}
    (contained : graph.alphabet.contains key = true) {transition : Nat}
    (found : state.locate graph.alphabet key = some transition) :
    ∃ slot, keys.locate graph.alphabet id key = .ok slot ∧ slots[slot]? = some transition := by
  have member := Array.mem_of_getElem? declared
  have mapMade := dense.classMap
  have classesMade := dense.classesMade
  unfold classMapFor at mapMade
  unfold classesFor at classesMade
  unfold FlatKeys.locate
  cases byClasses : options.classMap with
  | false =>
      simp only [byClasses, Bool.false_eq_true, if_false, pure_eq_ok] at mapMade
      rw [← mapMade]
      exact dense.locateByKey byClasses declared (ordered state member) found
  | true =>
      simp only [byClasses, if_true, bind_eq_ok, pure_eq_ok] at mapMade
      rcases mapMade with ⟨column, built, isMap⟩
      rw [← isMap]
      cases whole : graph.envelope with
      | none =>
          have unclaimed : state.envelope graph.alphabet = none := by
            cases own : state.envelope graph.alphabet with
            | none => rfl
            | some inner =>
                have empty := KeyInterval.envelope_eq_none whole
                rw [List.filterMap_eq_nil_iff] at empty
                cases own.symm.trans (empty state (by simpa using member))
          rw [State.locate_without_envelope (ordered state member) key unclaimed] at found
          exact dense.read_default declared found
      | some envelope =>
          simp only [byClasses, whole] at classesMade
          split at classesMade
          next => cases classesMade
          next =>
            cases classesMade
            exact dense.locateByClass ordered byClasses whole built declared contained found

end Rows

end Graph

end StateTables
