import StateTables.Proofs.CoverageCheck
import StateTables.Proofs.ErrorState
import StateTables.Proofs.Refusals
import StateTables.Proofs.RoundTrip

/-! # Every column fits its type

The type of most columns is chosen by their values. Columns of keys have the type the alphabet is
declared over, whatever keys there are. They fit as well: the bounds of an alphabet are clamped to
its type, and only keys between the bounds can be claimed. So the words that are stored, extended to
64 bits, are the values a machine works with.
-/

namespace StateTables

/-! ## Claimed keys -/

namespace Graph

theorem intervals_mergeState (lists transitions : Array Nat) (state : State) :
    (mergeState lists transitions state).intervals = state.intervals := by
  simp [mergeState, State.intervals, Function.comp_def]

theorem exists_claim {draft : Draft} {way : Option Nat} {pool : Draft.Pool} {source : StateDraft}
    {state : State} (finished : draft.Finished way pool source state) {interval : KeyInterval}
    (member : interval ∈ state.intervals) :
    ∃ claim ∈ source.claims, claim.low = interval.low ∧ claim.high = interval.high := by
  rcases State.mem_intervals.mp member with ⟨single, isSingle, rfl⟩ | ⟨range, isRange, rfl⟩
  · exact finished.claimedSingles single isSingle
  · exact finished.claimedRanges range isRange

/-- Only keys of the alphabet are claimed in a graph that was built. -/
theorem Built.within {graph : Graph} (built : graph.Built) {state : State}
    (member : state ∈ graph.states) : KeyInterval.Within graph.alphabet state.intervals := by
  rcases built with ⟨draft, after, drafted, result⟩
  rcases Draft.build_eq_ok result with ⟨_, started, _, rfl, _⟩
  rcases mem_mergeDuplicates_states member with ⟨old, inside, rfl⟩
  change KeyInterval.Within draft.alphabet _
  intro interval isInterval
  rw [intervals_mergeState] at isInterval
  rcases Draft.mem_assemble_states (drafted.consistent.inhabited started) inside with
    ⟨_, way, _, rfl, _⟩ | ⟨source, declared, finished⟩
  · cases isInterval
  · have proper := (drafted.proper source declared).claims
    rcases exists_claim finished isInterval with ⟨claim, claimMember, low, high⟩
    have bounds := proper.inside claim claimMember
    have upright := proper.upright claim claimMember
    rw [low, high] at bounds upright
    rw [Alphabet.contains_iff, Alphabet.contains_iff]
    omega

/-- All claimed keys are keys of the type the alphabet is declared over. -/
def Hosted (graph : Graph) : Prop :=
  ∀ state ∈ graph.states, ∀ interval ∈ state.intervals,
    graph.alphabet.host.Represents (graph.alphabet.value interval.low) ∧
      graph.alphabet.host.Represents (graph.alphabet.value interval.high)

theorem Built.hosted {graph : Graph} (built : graph.Built) (declared : graph.alphabet.Declared) :
    graph.Hosted := by
  intro state member interval inside
  rcases declared.represents_bounds with ⟨lowest, highest⟩
  rcases built.within member interval inside with ⟨low, high⟩
  rw [Alphabet.contains_iff] at low high
  exact ⟨lowest.between highest low.1 low.2, lowest.between highest high.1 high.2⟩

end Graph

/-! ## Columns that fit -/

/-- The type of the column represents the number of every value. -/
def Column.Fits (column : Column) : Prop :=
  ∀ pattern ∈ column.values, column.type.Represents (column.type.value pattern)

namespace Graph

variable {graph : Graph} {options : EncodingOptions} {encoding : Encoding}

theorem fits_of_column {name : String} {values : List Int64} {signed : Bool} {result : Column}
    (built : column name values (.byValues signed) = .ok result) : result.Fits := by
  unfold column at built
  split at built
  next => cases built
  next =>
    rw [Column.build_eq_ok] at built
    cases built
    intro pattern member
    have someValue := Array.ne_empty_of_mem member
    have above := (Column.leastOf_mem_and_le someValue).2 pattern member
    have below := (Column.greatestOf_mem_and_le someValue).2 pattern member
    dsimp only
    rw [Column.type_analyze, IntegerType.value_select above]
    exact IntegerType.represents_select above below

theorem fits_of_fixed {name : String} {values : List Int64} {type : IntegerType} {result : Column}
    (built : column name values (.fixed type) = .ok result)
    (represented : ∀ pattern ∈ values, type.Represents (type.value pattern)) : result.Fits := by
  unfold column at built
  split at built
  next => cases built
  next =>
    rw [Column.build_eq_ok] at built
    cases built
    intro pattern member
    exact represented pattern (by simpa using member)

theorem fits_of_narrowest {name : String} {values : List Int64} {result : Column}
    (built : column name values .narrowest = .ok result) : result.Fits :=
  fits_of_column (show column name values (.byValues false) = .ok result from built)

theorem fits_of_counts {name : String} {numbers : List Nat} {result : Column}
    (built : counts name numbers = .ok result) : result.Fits := by
  unfold counts at built
  split at built
  next => exact fits_of_narrowest built
  next => cases built

theorem fits_of_spaceColumn {name : String} {spaces : List (Option Nat)} {result : Column}
    (built : spaceColumn name spaces = .ok result) : result.Fits := by
  unfold spaceColumn at built
  split at built
  next =>
    exact fits_of_column (show column name _ (.byValues true) = .ok result from built)
  next => cases built

/-! ### Columns of keys -/

/-- The bounds of rows by keys are claimed keys. States without a row have zero there. -/
theorem fits_rowBounds (hosted : graph.Hosted) (byKeys : options.classMap = false)
    {slots : List Nat} {classes : Array KeyInterval} {id : Nat} {state : State}
    (declared : state ∈ graph.states) {row : Option DenseRow}
    (made : graph.denseRow options slots classes id state = .ok row) :
    ∀ pattern ∈ DenseRow.bounds row,
      graph.alphabet.host.Represents (graph.alphabet.host.value pattern) := by
  unfold denseRow at made
  split at made
  next =>
    cases made
    intro pattern member
    have zero : pattern = 0 := by simpa [DenseRow.bounds] using member
    exact zero ▸ IntegerType.represents_zero _
  next envelope found =>
    rw [if_neg (by simp [byKeys])] at made
    rcases map_eq_ok.mp made with ⟨own, rowMade, rfl⟩
    rcases keyRow_eq_ok rowMade with ⟨low, high, _, _⟩
    rcases KeyInterval.exists_bounds_envelope found with
      ⟨⟨lowest, isLow, sameLow⟩, highest, isHigh, sameHigh⟩
    intro pattern member
    have ends : pattern = envelope.low.pattern ∨ pattern = envelope.high.pattern := by
      simpa [DenseRow.bounds, low, high] using member
    rcases ends with rfl | rfl
    · exact sameLow ▸ (hosted state declared lowest isLow).1
    · exact sameHigh ▸ (hosted state declared highest isHigh).2

theorem fits_of_classMap {classes : Array KeyInterval} {classMap : Option ClassMap}
    (made : graph.classMapFor options classes = .ok classMap) :
    ∀ column ∈ (classMap.map ClassMap.column).toList, column.Fits := by
  unfold classMapFor at made
  split at made
  next =>
    simp only [bind_eq_ok, pure_eq_ok] at made
    rcases made with ⟨own, columnMade, rfl⟩
    simpa using fits_of_counts columnMade
  next =>
    cases made
    simp

theorem fits_of_flatKeys (hosted : graph.Hosted) {slots : List Nat} {keys : FlatKeys}
    (made : graph.flatKeys options slots = .ok keys) :
    ∀ column ∈ (KeyLookup.flat keys).columns, column.Fits := by
  unfold flatKeys at made
  simp only [bind_eq_ok, pure_eq_ok] at made
  rcases made with ⟨classes, _, rows, rowsMade, classMap, mapMade, defaults, _, transKeys,
    keysMade, _, keySpans, _, indexOffsets, _, indices, _, indexDefaults, rfl⟩
  have keysFit : transKeys.Fits := by
    by_cases byClasses : options.classMap = true
    · rw [if_pos byClasses] at keysMade
      exact fits_of_narrowest keysMade
    · rw [if_neg byClasses] at keysMade
      refine fits_of_fixed keysMade fun pattern member => ?_
      rcases List.mem_flatMap.mp member with ⟨row, isRow, inside⟩
      rcases mem_of_mapM rowsMade isRow with ⟨⟨state, id⟩, numbered, rowMade⟩
      have declared : state ∈ graph.states := by
        simpa using List.mem_of_getElem? (List.mk_mem_zipIdx_iff_getElem?.mp numbered)
      exact fits_rowBounds hosted (by simpa using byClasses) declared rowMade pattern inside
  intro column member
  simp only [KeyLookup.columns, List.mem_append, List.mem_cons, List.not_mem_nil, or_false]
    at member
  rcases member with isClass | rfl | rfl | rfl | rfl | rfl
  · exact fits_of_classMap mapMade column isClass
  · exact keysFit
  · exact fits_of_narrowest keySpans
  · exact fits_of_counts indexOffsets
  · exact fits_of_counts indices
  · exact fits_of_counts indexDefaults

theorem represents_of_sortedKeys (hosted : graph.Hosted) {state : State}
    (declared : state ∈ graph.states) {key : Key} (member : key ∈ sortedKeys state) :
    graph.alphabet.host.Represents (graph.alphabet.value key) := by
  rcases List.mem_append.mp member with isSingle | isBound
  · rcases List.mem_map.mp isSingle with ⟨single, inside, rfl⟩
    exact (hosted state declared ⟨single.key, single.key⟩
      (State.mem_intervals.mpr (.inl ⟨single, by simpa using inside, rfl⟩))).1
  · rcases List.mem_flatMap.mp isBound with ⟨range, inside, isEnd⟩
    have ends := hosted state declared ⟨range.low, range.high⟩
      (State.mem_intervals.mpr (.inr ⟨range, by simpa using inside, rfl⟩))
    simp only [List.mem_cons, List.not_mem_nil, or_false] at isEnd
    rcases isEnd with rfl | rfl
    · exact ends.1
    · exact ends.2

theorem fits_of_counts? {name : String} {numbers : Option (List Nat)} {result : Option Column}
    (made : counts? name numbers = .ok result) : ∀ column ∈ result.toList, column.Fits := by
  cases numbers with
  | none =>
      cases made
      simp
  | some values =>
      rcases map_eq_ok.mp made with ⟨own, columnMade, rfl⟩
      simpa using fits_of_counts columnMade

theorem fits_of_binaryKeys (hosted : graph.Hosted) {direct : Bool} {slots : List Nat}
    {keys : BinaryKeys} (made : graph.binaryKeys direct slots = .ok keys) :
    ∀ column ∈ (KeyLookup.binary keys).columns, column.Fits := by
  unfold binaryKeys at made
  simp only [bind_eq_ok, pure_eq_ok] at made
  rcases made with ⟨indices, _, _, keyOffsets, _, singleLengths, _, rangeLengths, _, indexOffsets,
    transKeys, keysMade, _, indicesMade, rfl⟩
  have keysFit : transKeys.Fits := by
    refine fits_of_fixed keysMade fun pattern member => ?_
    rcases List.mem_map.mp member with ⟨key, isKey, rfl⟩
    rcases List.mem_flatMap.mp isKey with ⟨state, declared, inside⟩
    exact represents_of_sortedKeys hosted (by simpa using declared) inside
  intro column member
  simp only [KeyLookup.columns, List.mem_append, List.mem_cons, List.not_mem_nil, or_false]
    at member
  rcases member with (rfl | rfl | rfl | rfl | rfl) | isIndices
  · exact fits_of_counts keyOffsets
  · exact fits_of_counts singleLengths
  · exact fits_of_counts rangeLengths
  · exact fits_of_counts indexOffsets
  · exact keysFit
  · exact fits_of_counts? indicesMade column isIndices

theorem Laid.fits_lookup (laid : graph.Laid options encoding) (hosted : graph.Hosted) :
    ∀ column ∈ encoding.lookup.columns, column.Fits := by
  have made := laid.lookup
  unfold keyLookup at made
  dsimp only at made
  split at made
  next =>
    rcases map_eq_ok.mp made with ⟨keys, keysMade, same⟩
    rw [← same]
    exact fits_of_flatKeys hosted keysMade
  next =>
    rcases map_eq_ok.mp made with ⟨keys, keysMade, same⟩
    rw [← same]
    exact fits_of_binaryKeys hosted keysMade
  next =>
    rcases map_eq_ok.mp made with ⟨states, _, same⟩
    rw [← same]
    exact fun column member => nomatch member

/-! ### Columns all layouts share -/

theorem fits_of_transitionColumns {direct : Bool} {transitions : List Nat}
    {columns : TransitionColumns}
    (made : graph.transitionColumns direct transitions = .ok columns) :
    ∀ column ∈ [columns.spaces, columns.offsets, columns.lengths], column.Fits := by
  unfold transitionColumns at made
  simp only [bind_eq_ok, pure_eq_ok] at made
  rcases made with ⟨_, spaces, _, offsets, _, lengths, rfl⟩
  simp only [List.forall_mem_cons]
  exact ⟨fits_of_spaceColumn spaces, fits_of_counts offsets, fits_of_counts lengths, nofun⟩

theorem fits_of_conditionColumns {outcomes : List Outcome} {columns : ConditionColumns}
    (made : graph.conditionColumns outcomes = .ok columns) :
    ∀ column ∈ [columns.keys, columns.targets, columns.actions], column.Fits := by
  unfold conditionColumns at made
  simp only [bind_eq_ok, pure_eq_ok] at made
  rcases made with ⟨_, keys, _, targets, _, actions, rfl⟩
  simp only [List.forall_mem_cons]
  exact ⟨fits_of_narrowest keys, fits_of_counts targets, fits_of_counts actions, nofun⟩

theorem fits_of_stateActions {name : String} {list : State → Option Nat} {column? : Option Column}
    (made : graph.stateActions name list = .ok column?) :
    ∀ column ∈ column?.toList, column.Fits := by
  unfold stateActions at made
  split at made
  next =>
    rcases map_eq_ok.mp made with ⟨own, columnMade, rfl⟩
    simpa using fits_of_counts columnMade
  next =>
    cases made
    exact fun column member => nomatch member

theorem fits_of_eofGuards {guards? : Option EofGuardColumns}
    (made : graph.eofGuards = .ok guards?) :
    ∀ column ∈ (guards?.map fun guards =>
      [guards.spaces, guards.offsets, guards.lengths, guards.keys]).getD [], column.Fits := by
  unfold eofGuards at made
  split at made
  next =>
    rcases map_eq_ok.mp made with ⟨columns, columnsMade, rfl⟩
    unfold eofGuardColumns at columnsMade
    simp only [bind_eq_ok, pure_eq_ok] at columnsMade
    rcases columnsMade with ⟨_, spaces, _, offsets, _, lengths, _, keys, rfl⟩
    simp only [Option.map_some, Option.getD_some, List.forall_mem_cons]
    exact ⟨fits_of_spaceColumn spaces, fits_of_counts offsets, fits_of_counts lengths,
      fits_of_narrowest keys, nofun⟩
  next =>
    cases made
    exact fun column member => nomatch member

theorem fits_of_eofColumns {slots : List (Option Nat)} {eof? : Option EofColumns}
    (made : graph.eofColumns slots = .ok eof?) :
    ∀ column ∈ (eof?.map fun columns => [columns.actions, columns.transitions] ++
      (columns.guards.map fun guards =>
        [guards.spaces, guards.offsets, guards.lengths, guards.keys]).getD []).getD [],
      column.Fits := by
  unfold eofColumns at made
  split at made
  next =>
    simp only [bind_eq_ok, pure_eq_ok] at made
    rcases made with ⟨_, actions, _, transitions, guards, guardsMade, rfl⟩
    simp only [Option.map_some, Option.getD_some, List.forall_mem_append, List.forall_mem_cons]
    exact ⟨⟨fits_of_counts actions, fits_of_counts transitions, nofun⟩,
      fits_of_eofGuards guardsMade⟩
  next =>
    cases made
    exact fun column member => nomatch member

theorem fits_of_alternateColumns {alternates? : Option AlternateColumns}
    (made : graph.alternateColumns = .ok alternates?) :
    ∀ column ∈ (alternates?.map fun columns =>
      [columns.offsets, columns.targets, columns.pushActions, columns.popTests]).getD [],
      column.Fits := by
  unfold alternateColumns at made
  split at made
  next =>
    simp only [bind_eq_ok, pure_eq_ok] at made
    rcases made with ⟨_, offsets, _, targets, _, pushActions, _, popTests, rfl⟩
    simp only [Option.map_some, Option.getD_some, List.forall_mem_cons]
    exact ⟨fits_of_counts offsets, fits_of_counts targets, fits_of_counts pushActions,
      fits_of_counts popTests, nofun⟩
  next =>
    cases made
    exact fun column member => nomatch member

theorem fits_of_actionColumn {table : Column} (made : graph.actionColumn = .ok table) :
    table.Fits := by
  unfold actionColumn at made
  split at made
  next => cases made
  next => exact fits_of_counts made

theorem Laid.fits (laid : graph.Laid options encoding) (hosted : graph.Hosted) :
    ∀ column ∈ encoding.columns, column.Fits := by
  unfold Encoding.columns
  dsimp only
  simp only [List.forall_mem_append]
  refine ⟨⟨⟨⟨⟨⟨laid.fits_lookup hosted, ?_⟩, fits_of_stateActions laid.toState⟩,
    fits_of_stateActions laid.fromState⟩, fits_of_eofColumns laid.eof⟩, ?_⟩,
    fits_of_alternateColumns laid.alternates⟩
  · have transitions := fits_of_transitionColumns laid.transitions
    have conditions := fits_of_conditionColumns laid.conditions
    simpa [and_assoc] using And.intro transitions conditions
  · simpa using fits_of_actionColumn laid.actionTable

end Graph

/-! ## What is stored -/

/-- The words an array is made of when its literal is compiled: place by place they stand for the
numbers written there, and extended to 64 bits they are the values of the column. -/
structure Column.Stored (column : Column) (words : List (BitVec column.type.width.bits)) : Prop where
  read : readLiteral column.literal = .ok (column.type, column.values.toList)
  numbers : words.map column.type.reading = column.values.toList.map column.type.value
  patterns : words.map column.type.carried = column.values.toList

theorem Column.Fits.exists_stored {column : Column} (fits : column.Fits) :
    ∃ words, column.Stored words := by
  have word : ∀ pattern ∈ column.values.toList, ∃ word,
      column.type.reading word = column.type.value pattern :=
    fun pattern member => fits pattern (by simpa using member)
  have words : ∃ words : List (BitVec column.type.width.bits),
      words.map column.type.reading = column.values.toList.map column.type.value ∧
        words.map column.type.carried = column.values.toList := by
    generalize column.values.toList = patterns at word
    induction patterns with
    | nil => exact ⟨[], rfl, rfl⟩
    | cons pattern rest induction =>
        rcases word pattern (by simp) with ⟨first, reads⟩
        rcases induction fun other member => word other (by simp [member]) with
          ⟨others, numbers, patterns⟩
        exact ⟨first :: others, by simp [reads, numbers],
          by simp [IntegerType.carried_eq reads, patterns]⟩
  rcases words with ⟨words, numbers, patterns⟩
  exact ⟨words, column.readLiteral_literal, numbers, patterns⟩

namespace Graph

/-- In an encoding of a graph that was built, the type of every column represents every value of the
column. So the array that the literal of the column stands for has a word for each of them, and the
words, extended to 64 bits, are exactly the values. The draft of the graph names only condition
spaces of its own. -/
theorem columns_fit_their_types {graph : Graph} {options : EncodingOptions} {encoding : Encoding}
    (built : graph.Built) (declared : graph.alphabet.Declared)
    (encoded : graph.encode options = .ok encoding) {column : Column}
    (member : column ∈ encoding.columns) :
    (∀ pattern ∈ column.values, column.type.Represents (column.type.value pattern)) ∧
      ∃ words, column.Stored words := by
  have fits := (laid_of_encode encoded).fits (built.hosted declared) column member
  exact ⟨fits, fits.exists_stored⟩

end Graph

/-! ## Keys beyond the signed numbers -/

namespace Sample

def farDraft : Draft :=
  let operations : List DraftStep := [
    .setStart "near",
    .addClaim "near" ⟨.ofInt (-16), .ofInt (-1), .plain ⟨"far", []⟩⟩,
    .setFallback "near" (.plain ⟨"near", []⟩),
    .setFallback "far" (.plain ⟨"far", []⟩)]
  operations.foldl Draft.perform (.empty "far" (.full ⟨false, .eight⟩))

def farGraph : Graph :=
  farDraft.assemble.mergeDuplicates

theorem built_farGraph : farGraph.Built ∧ farGraph.alphabet.Declared := by
  have drafted : farDraft.Drafted := (Draft.Drafted.empty _ _).foldl (by decide +kernel)
  have alphabet : farGraph.alphabet = .full ⟨false, .eight⟩ := by decide +kernel
  exact ⟨Graph.built_of_checks drafted (by decide +kernel), alphabet ▸ .full _⟩

def denseOptions : EncodingOptions where
  kind := .flat
  indices := .auto
  classMap := false
  maxSpan := 0
  alternates := true
  endOfInput := true

theorem exists_farColumn : ∃ encoding, farGraph.encode denseOptions = .ok encoding ∧
    ∃ column ∈ encoding.columns, column.type = ⟨false, .eight⟩ ∧
      column.values = #[-16, -1, 0, 0] := by
  have found : ((farGraph.encode denseOptions).toOption.any fun encoding =>
      encoding.columns.any fun column =>
        column.type = ⟨false, .eight⟩ && column.values = #[-16, -1, 0, 0]) = true := by
    decide +kernel
  rcases (Option.any_eq_true _ _).mp found with ⟨encoding, encoded, shown⟩
  exact ⟨encoding, toOption_eq_some.mp encoded, by simpa using shown⟩

end Sample

theorem columns_fit_their_types_sample : ∃ encoding,
    Sample.farGraph.encode Sample.denseOptions = .ok encoding ∧
    ∃ column ∈ encoding.columns, column.type = ⟨false, .eight⟩ ∧
      column.values = #[-16, -1, 0, 0] ∧
      (∀ pattern ∈ column.values, column.type.Represents (column.type.value pattern)) ∧
      ∃ words, column.Stored words := by
  rcases Sample.exists_farColumn with ⟨encoding, encoded, column, member, type, values⟩
  exact ⟨encoding, encoded, column, member, type, values,
    Graph.columns_fit_their_types Sample.built_farGraph.1 Sample.built_farGraph.2 encoded member⟩

end StateTables
