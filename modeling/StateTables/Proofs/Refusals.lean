import Mathlib.Data.List.Nodup
import StateTables.Proofs.KeyLayouts
import StateTables.Proofs.ReadBack

/-! # Which graphs are refused

A graph is refused because of alternates, because of end-of-input activity, or because its states
claim keys that lie too far apart. All other graphs that were built are laid out, in columns with
different names.
-/

namespace StateTables

/-! ## The lowest and the highest claimed key -/

structure Spans (alphabet : Alphabet) (claimed : Key → Prop) (low high : Key) : Prop where
  lowest : claimed low
  highest : claimed high
  between : ∀ key, claimed key → KeyInterval.Contains alphabet ⟨low, high⟩ key

namespace KeyInterval

variable {alphabet : Alphabet}

theorem exists_bounds_foldl_widen (first : KeyInterval) (rest : List KeyInterval) :
    (∃ interval ∈ first :: rest, interval.low = (rest.foldl (widen alphabet) first).low) ∧
      ∃ interval ∈ first :: rest, interval.high = (rest.foldl (widen alphabet) first).high := by
  induction rest generalizing first with
  | nil => exact ⟨⟨first, by simp, rfl⟩, first, by simp, rfl⟩
  | cons next rest induction =>
      rcases induction (first.widen alphabet next) with
        ⟨⟨lowest, isLow, low⟩, highest, isHigh, high⟩
      rw [List.foldl_cons]
      constructor
      · rcases List.mem_cons.mp isLow with rfl | later
        · rw [← low]
          unfold widen
          dsimp only
          split
          · exact ⟨next, by simp, rfl⟩
          · exact ⟨first, by simp, rfl⟩
        · exact ⟨lowest, by simp [later], low⟩
      · rcases List.mem_cons.mp isHigh with rfl | later
        · rw [← high]
          unfold widen
          dsimp only
          split
          · exact ⟨next, by simp, rfl⟩
          · exact ⟨first, by simp, rfl⟩
        · exact ⟨highest, by simp [later], high⟩

theorem exists_bounds_envelope {intervals : List KeyInterval} {whole : KeyInterval}
    (found : envelope alphabet intervals = some whole) :
    (∃ interval ∈ intervals, interval.low = whole.low) ∧
      ∃ interval ∈ intervals, interval.high = whole.high := by
  cases intervals with
  | nil => cases found
  | cons first rest =>
      cases found
      exact exists_bounds_foldl_widen first rest

end KeyInterval

namespace Spans

variable {alphabet : Alphabet} {claimed : Key → Prop}

theorem unique {low high otherLow otherHigh : Key} (spans : Spans alphabet claimed low high)
    (other : Spans alphabet claimed otherLow otherHigh) : low = otherLow ∧ high = otherHigh := by
  have first := spans.between _ other.lowest
  have second := spans.between _ other.highest
  have third := other.between _ spans.lowest
  have fourth := other.between _ spans.highest
  unfold KeyInterval.Contains at first second third fourth
  dsimp only at first second third fourth
  constructor <;> apply alphabet.value_injective <;> omega

theorem iff_envelope {envelope : Option KeyInterval}
    (around : ∀ whole, envelope = some whole → Spans alphabet claimed whole.low whole.high)
    (nowhere : envelope = none → ∀ key, ¬claimed key) {low high : Key} :
    Spans alphabet claimed low high ↔ envelope = some ⟨low, high⟩ := by
  constructor
  · intro spans
    cases found : envelope with
    | none => exact absurd spans.lowest (nowhere found low)
    | some whole =>
        rcases (around whole found).unique spans with ⟨rfl, rfl⟩
        rfl
  · intro found
    exact around _ found

end Spans

namespace State

variable {alphabet : Alphabet} {state : State}

def Claims (alphabet : Alphabet) (state : State) (key : Key) : Prop :=
  (∃ single ∈ state.singles, single.key = key) ∨
    ∃ range ∈ state.ranges, alphabet.value range.low ≤ alphabet.value key ∧
      alphabet.value key ≤ alphabet.value range.high

theorem claims_iff {key : Key} : state.Claims alphabet key ↔
    ∃ interval ∈ state.intervals, interval.Contains alphabet key := by
  constructor
  · intro claims
    rcases claims with ⟨single, member, rfl⟩ | ⟨range, member, contains⟩
    · exact ⟨⟨single.key, single.key⟩, mem_intervals.mpr (.inl ⟨single, member, rfl⟩),
        Int.le_refl _, Int.le_refl _⟩
    · exact ⟨⟨range.low, range.high⟩, mem_intervals.mpr (.inr ⟨range, member, rfl⟩), contains⟩
  · intro claims
    rcases claims with ⟨interval, member, contains⟩
    rcases mem_intervals.mp member with ⟨single, isSingle, rfl⟩ | ⟨range, isRange, rfl⟩
    · exact .inl ⟨single, isSingle,
        alphabet.value_injective (Int.le_antisymm contains.1 contains.2)⟩
    · exact .inr ⟨range, isRange, contains⟩

theorem spans_iff (ordered : state.Ordered alphabet) {low high : Key} :
    Spans alphabet (state.Claims alphabet) low high ↔
      state.envelope alphabet = some ⟨low, high⟩ := by
  refine Spans.iff_envelope (fun whole found => ?_) fun missing key claims => ?_
  · rcases KeyInterval.exists_bounds_envelope found with
      ⟨⟨lowest, isLow, low⟩, highest, isHigh, high⟩
    refine ⟨claims_iff.mpr ⟨lowest, isLow, ?_⟩, claims_iff.mpr ⟨highest, isHigh, ?_⟩,
      fun key claims => ?_⟩
    · rw [← low]
      exact ⟨Int.le_refl _, upright_intervals ordered isLow⟩
    · rw [← high]
      exact ⟨upright_intervals ordered isHigh, Int.le_refl _⟩
    · rcases claims_iff.mp claims with ⟨interval, member, contains⟩
      have within := KeyInterval.within_envelope found member
      unfold KeyInterval.Contains at contains ⊢
      dsimp only
      omega
  · rcases claims_iff.mp claims with ⟨interval, member, _⟩
    rw [KeyInterval.envelope_eq_none missing] at member
    cases member

end State

namespace Graph

variable {graph : Graph} {options : EncodingOptions} {encoding : Encoding}

theorem spans_iff (ordered : ∀ state ∈ graph.states, state.Ordered graph.alphabet)
    {low high : Key} :
    Spans graph.alphabet (fun key => ∃ state ∈ graph.states, state.Claims graph.alphabet key)
        low high ↔ graph.envelope = some ⟨low, high⟩ := by
  refine Spans.iff_envelope (fun whole found => ?_) fun missing key claimed => ?_
  · rcases KeyInterval.exists_bounds_envelope found with
      ⟨⟨lowest, isLow, low⟩, highest, isHigh, high⟩
    rcases List.mem_filterMap.mp isLow with ⟨lowState, lowDeclared, lowEnvelope⟩
    rcases List.mem_filterMap.mp isHigh with ⟨highState, highDeclared, highEnvelope⟩
    have lowDeclared := Array.mem_toList_iff.mp lowDeclared
    have highDeclared := Array.mem_toList_iff.mp highDeclared
    refine ⟨⟨lowState, lowDeclared, ?_⟩, ⟨highState, highDeclared, ?_⟩, fun key claimed => ?_⟩
    · rw [← low]
      exact ((State.spans_iff (ordered _ lowDeclared)).mpr lowEnvelope).lowest
    · rw [← high]
      exact ((State.spans_iff (ordered _ highDeclared)).mpr highEnvelope).highest
    · rcases claimed with ⟨state, declared, claims⟩
      rcases State.claims_iff.mp claims with ⟨interval, member, contains⟩
      have within := within_graph_envelope found declared member
      unfold KeyInterval.Contains at contains ⊢
      dsimp only
      omega
  · rcases claimed with ⟨state, declared, claims⟩
    rcases State.claims_iff.mp claims with ⟨interval, member, _⟩
    cases own : state.envelope graph.alphabet with
    | none =>
        rw [KeyInterval.envelope_eq_none own] at member
        cases member
    | some inner =>
        rcases exists_graph_envelope declared own with ⟨whole, found⟩
        cases found.symm.trans missing

/-! ## Reasons for a refusal -/

/-- Laying out the graph fails for a reason. -/
def Refused (graph : Graph) (options : EncodingOptions) (reason : Reason) : Prop :=
  ∃ problem, graph.encode options = .error problem ∧
    (problem.failure graph.name).reasons = [reason]

def LacksAlternates (graph : Graph) (options : EncodingOptions) : Prop :=
  options.alternates = false ∧ ∃ state ∈ graph.states, state.alternates ≠ []

/-- Some state does something at the end of input, which is not supported. -/
def LacksEndOfInput (graph : Graph) (options : EncodingOptions) : Prop :=
  options.endOfInput = false ∧ ∃ state ∈ graph.states,
    state.eofActions ≠ none ∨ state.eofTransition ≠ none ∨ state.eofGuard ≠ none

/-- The keys to be listed span more of them than a row may have. With a table of classes these are
the keys claimed by any state, without one those of a single state. -/
def TooWide (graph : Graph) (options : EncodingOptions) : Prop :=
  options.kind = .flat ∧ ∃ low high, options.spanLimit < graph.alphabet.span low high ∧
    if options.classMap then
      Spans graph.alphabet (fun key => ∃ state ∈ graph.states, state.Claims graph.alphabet key)
        low high
    else ∃ state ∈ graph.states, Spans graph.alphabet (state.Claims graph.alphabet) low high

theorem lacksAlternates_iff :
    graph.LacksAlternates options ↔ (graph.hasAlternates && !options.alternates) = true := by
  rw [Bool.and_eq_true, hasAlternates, Array.any_eq_true', and_comm]
  simp [LacksAlternates]

theorem lacksEndOfInput_iff :
    graph.LacksEndOfInput options ↔ (graph.hasEof && !options.endOfInput) = true := by
  rw [Bool.and_eq_true, hasEof, Array.any_eq_true', and_comm]
  simp [LacksEndOfInput, State.hasEof, Option.isSome_iff_ne_none, or_assoc]

/-- A graph is refused for one reason. -/
theorem Refused.ne {reason other : Reason} (refused : graph.Refused options reason)
    (different : reason ≠ other) : ¬graph.Refused options other := by
  rintro ⟨problem, failed, reasons⟩
  rcases refused with ⟨first, firstFailed, firstReasons⟩
  cases failed.symm.trans firstFailed
  exact different (List.singleton_inj.mp (firstReasons.symm.trans reasons))

theorem encode_of_lacksAlternates (lacks : graph.LacksAlternates options) :
    graph.encode options = .error .alternatesDisabled := by
  unfold encode
  rw [if_pos (lacksAlternates_iff.mp lacks)]
  rfl

theorem encode_of_lacksEndOfInput (supported : ¬graph.LacksAlternates options)
    (lacks : graph.LacksEndOfInput options) :
    graph.encode options = .error .endOfInputDisabled := by
  unfold encode
  rw [if_neg (fun unsupported => supported (lacksAlternates_iff.mpr unsupported)),
    if_pos (lacksEndOfInput_iff.mp lacks)]
  rfl

/-! ## Keys too far apart -/

theorem narrow_iff (ordered : ∀ state ∈ graph.states, state.Ordered graph.alphabet)
    (flat : options.kind = .flat) : graph.Narrow options ↔ ¬graph.TooWide options := by
  constructor
  · intro narrow wide
    rcases wide with ⟨_, low, high, exceeds, spans⟩
    cases byClasses : options.classMap with
    | true =>
        rw [byClasses, if_pos rfl] at spans
        exact narrow.classes byClasses _ ((spans_iff ordered).mp spans) exceeds
    | false =>
        rw [byClasses, if_neg (by simp)] at spans
        rcases spans with ⟨state, declared, spans⟩
        exact narrow.states byClasses state declared _
          ((State.spans_iff (ordered state declared)).mp spans) exceeds
  · intro fine
    constructor
    · intro byClasses whole found exceeds
      refine fine ⟨flat, whole.low, whole.high, exceeds, ?_⟩
      rw [if_pos byClasses]
      exact (spans_iff ordered).mpr found
    · intro byKeys state declared own found exceeds
      refine fine ⟨flat, own.low, own.high, exceeds, ?_⟩
      rw [if_neg (by simp [byKeys])]
      exact ⟨state, declared, (State.spans_iff (ordered state declared)).mpr found⟩

theorem denseRow_of_exceeds (byKeys : options.classMap = false) {slots : List Nat}
    {classes : Array KeyInterval} {id : Nat} {state : State} {own : KeyInterval}
    (claimed : state.envelope graph.alphabet = some own)
    (exceeds : options.spanLimit < graph.alphabet.span own.low own.high) :
    graph.denseRow options slots classes id state =
      .error (.stateSpan id (graph.alphabet.span own.low own.high)) := by
  unfold denseRow
  simp only [claimed, byKeys, Bool.false_eq_true, if_false]
  unfold keyRow
  dsimp only
  rw [if_pos exceeds]
  rfl

/-- The only problem a row by keys can have is that it is too long. -/
theorem denseRow_eq_error (linked : graph.Linked)
    (ordered : ∀ state ∈ graph.states, state.Ordered graph.alphabet)
    (byKeys : options.classMap = false) {classes : Array KeyInterval} {id : Nat} {state : State}
    (declared : state ∈ graph.states) {problem : EncodingError}
    (failed : graph.denseRow options (graph.keySlots false) classes id state = .error problem) :
    ∃ keys, problem = .stateSpan id keys := by
  cases claimed : state.envelope graph.alphabet with
  | none =>
      rw [denseRow, claimed] at failed
      cases failed
  | some own =>
      by_cases exceeds : options.spanLimit < graph.alphabet.span own.low own.high
      · rw [denseRow_of_exceeds byKeys claimed exceeds] at failed
        cases failed
        exact ⟨_, rfl⟩
      · have completes : Completes True True (some <$> graph.keyRow options.spanLimit
            (graph.keySlots false) id state own) :=
          (completes_keyRow linked ordered declared exceeds).map _
        simp only [denseRow, claimed, byKeys, Bool.false_eq_true, if_false] at failed
        cases completes problem failed with
        | oversized lacks => exact absurd trivial lacks
        | misplaced lacks => exact absurd trivial lacks

theorem exists_flatKeys_error (linked : graph.Linked)
    (ordered : ∀ state ∈ graph.states, state.Ordered graph.alphabet)
    (wide : graph.TooWide options) : ∃ problem,
      graph.flatKeys options (graph.keySlots false) = .error problem ∧
        (problem.failure graph.name).reasons = [.spanTooLarge] := by
  rcases wide with ⟨flat, low, high, exceeds, spans⟩
  unfold flatKeys
  cases byClasses : options.classMap with
  | true =>
      rw [byClasses, if_pos rfl] at spans
      have envelope := (spans_iff ordered).mp spans
      have failed : graph.classesFor options =
          .error (.classSpan (graph.alphabet.span low high)) := by
        simp only [classesFor, byClasses, envelope, if_pos exceeds]
      exact ⟨_, bind_eq_error.mpr (.inl failed), rfl⟩
  | false =>
      rw [byClasses, if_neg (by simp)] at spans
      rcases spans with ⟨state, declared, spans⟩
      have own := (State.spans_iff (ordered state declared)).mp spans
      have noClasses : graph.classesFor options = .ok #[] := by
        simp only [classesFor, byClasses]
      cases result : graph.states.toList.zipIdx.mapM fun entry =>
          graph.denseRow options (graph.keySlots false) #[] entry.2 entry.1 with
      | ok rows =>
          rcases Array.mem_iff_getElem?.mp declared with ⟨id, found⟩
          have listed : (state, id) ∈ graph.states.toList.zipIdx :=
            List.mem_zipIdx_iff_getElem?.mpr (by simpa using found)
          rcases exists_of_mapM result listed with ⟨row, _, made⟩
          cases (denseRow_of_exceeds byClasses own exceeds).symm.trans made
      | error problem =>
          -- An earlier state may be the one that fails, but then for the same reason.
          rcases exists_of_mapM_error result with ⟨entry, member, failed⟩
          rcases denseRow_eq_error linked ordered byClasses
            (by simpa using List.fst_mem_of_mem_zipIdx member) failed with ⟨keys, rfl⟩
          exact ⟨_, bind_eq_error.mpr (.inr ⟨_, noClasses, bind_eq_error.mpr (.inl result)⟩), rfl⟩

theorem refused_of_tooWide (built : graph.Built) (alternates : ¬graph.LacksAlternates options)
    (eof : ¬graph.LacksEndOfInput options) (wide : graph.TooWide options) :
    graph.Refused options .spanTooLarge := by
  rcases exists_flatKeys_error built.wired.linked built.valid.states wide with
    ⟨problem, failed, reasons⟩
  refine ⟨problem, ?_, reasons⟩
  have lookup : graph.keyLookup options (graph.isDirect options) = .error problem := by
    rw [isDirect_eq_false (by simp [wide.1]), keyLookup, wide.1]
    dsimp only
    rw [failed]
    rfl
  unfold encode
  rw [if_neg (fun unsupported => alternates (lacksAlternates_iff.mpr unsupported)),
    if_neg (fun unsupported => eof (lacksEndOfInput_iff.mpr unsupported))]
  exact bind_eq_error.mpr (.inl lookup)

/-! ## Names of columns -/

theorem name_of_column {name : String} {values : List Int64} {storage : Column.Storage}
    {result : Column} (built : column name values storage = .ok result) : result.name = name := by
  unfold column at built
  split at built
  next => cases built
  next =>
    rw [Column.build_eq_ok] at built
    cases built
    rfl

theorem name_of_counts {name : String} {numbers : List Nat} {result : Column}
    (built : counts name numbers = .ok result) : result.name = name := by
  unfold counts at built
  split at built
  next => exact name_of_column built
  next => cases built

theorem name_of_spaceColumn {name : String} {spaces : List (Option Nat)} {result : Column}
    (built : spaceColumn name spaces = .ok result) : result.name = name := by
  unfold spaceColumn at built
  split at built
  next => exact name_of_column built
  next => cases built

def keyColumnNames : EncodingKind → List String
  | .flat => ["char_class", "trans_keys", "key_spans", "index_offsets", "indices", "index_defaults"]
  | .binary => ["key_offsets", "single_lengths", "range_lengths", "index_offsets", "trans_keys",
      "indices"]
  | .switch => []

def columnNames (kind : EncodingKind) (direct : Bool) : List String :=
  keyColumnNames kind ++
    [transitionColumnName direct "trans_cond_spaces", transitionColumnName direct "trans_offsets",
      transitionColumnName direct "trans_lengths", "cond_keys", "cond_targs", "cond_actions"] ++
    ["to_state_actions"] ++ ["from_state_actions"] ++
    ["eof_actions", "eof_trans", "eof_cond_spaces", "eof_cond_key_offs", "eof_cond_key_lens",
      "eof_cond_keys"] ++ ["actions"] ++
    ["nfa_offsets", "nfa_targs", "nfa_push_actions", "nfa_pop_trans"]

theorem nodup_columnNames (kind : EncodingKind) (direct : Bool) :
    (columnNames kind direct).Nodup := by
  cases kind <;> cases direct <;> decide +kernel

theorem sublist_of_option (name : String) {column? : Option Column}
    (named : ∀ column, column? = some column → column.name = name) :
    (column?.toList.map Column.name).Sublist [name] := by
  cases column? with
  | none => exact List.nil_sublist _
  | some column => simp [named column rfl]

theorem sublist_of_flatKeys {slots : List Nat} {keys : FlatKeys}
    (made : graph.flatKeys options slots = .ok keys) :
    ((KeyLookup.flat keys).columns.map Column.name).Sublist (keyColumnNames .flat) := by
  unfold flatKeys at made
  simp only [bind_eq_ok, pure_eq_ok] at made
  rcases made with ⟨classes, _, rows, _, classMap, mapMade, defaults, _, _, transKeys, _, keySpans,
    _, indexOffsets, _, indices, _, indexDefaults, rfl⟩
  simp only [KeyLookup.columns, List.map_append, List.map_cons, List.map_nil,
    name_of_column transKeys, name_of_column keySpans, name_of_counts indexOffsets,
    name_of_counts indices, name_of_counts indexDefaults]
  refine (sublist_of_option "char_class" fun column found => ?_).append (.refl _)
  unfold classMapFor at mapMade
  split at mapMade
  next =>
    simp only [bind_eq_ok, pure_eq_ok] at mapMade
    rcases mapMade with ⟨own, made, rfl⟩
    cases found
    exact name_of_counts made
  next =>
    cases mapMade
    cases found

theorem sublist_of_binaryKeys {direct : Bool} {slots : List Nat} {keys : BinaryKeys}
    (made : graph.binaryKeys direct slots = .ok keys) :
    ((KeyLookup.binary keys).columns.map Column.name).Sublist (keyColumnNames .binary) := by
  unfold binaryKeys at made
  simp only [bind_eq_ok, pure_eq_ok] at made
  rcases made with ⟨indices, _, _, keyOffsets, _, singleLengths, _, rangeLengths, _, indexOffsets,
    _, transKeys, _, indicesMade, rfl⟩
  simp only [KeyLookup.columns, List.map_append, List.map_cons, List.map_nil,
    name_of_counts keyOffsets, name_of_counts singleLengths, name_of_counts rangeLengths,
    name_of_counts indexOffsets, name_of_column transKeys]
  refine List.Sublist.append (.refl _) (sublist_of_option "indices" fun column found => ?_)
  cases indices with
  | none =>
      cases indicesMade
      cases found
  | some numbers =>
      rcases map_eq_ok.mp indicesMade with ⟨own, made, rfl⟩
      cases found
      exact name_of_counts made

theorem Laid.sublist_lookup (laid : graph.Laid options encoding) :
    (encoding.lookup.columns.map Column.name).Sublist (keyColumnNames options.kind) := by
  have made := laid.lookup
  unfold keyLookup at made
  dsimp only at made
  cases kind : options.kind with
  | flat =>
      simp only [kind, map_eq_ok] at made
      rcases made with ⟨keys, made, same⟩
      rw [← same]
      exact sublist_of_flatKeys made
  | binary =>
      simp only [kind, map_eq_ok] at made
      rcases made with ⟨keys, made, same⟩
      rw [← same]
      exact sublist_of_binaryKeys made
  | switch =>
      simp only [kind, map_eq_ok] at made
      rcases made with ⟨states, _, same⟩
      rw [← same]
      exact .refl _

theorem sublist_of_stateActions {name : String} {list : State → Option Nat}
    {column? : Option Column} (made : graph.stateActions name list = .ok column?) :
    (column?.toList.map Column.name).Sublist [name] := by
  refine sublist_of_option name fun column found => ?_
  unfold stateActions at made
  split at made
  next =>
    rcases map_eq_ok.mp made with ⟨own, built, rfl⟩
    cases found
    exact name_of_counts built
  next =>
    cases made
    cases found

theorem sublist_of_eofGuards {guards? : Option EofGuardColumns}
    (made : graph.eofGuards = .ok guards?) :
    (((guards?.map fun columns => [columns.spaces, columns.offsets, columns.lengths,
      columns.keys]).getD []).map Column.name).Sublist
        ["eof_cond_spaces", "eof_cond_key_offs", "eof_cond_key_lens", "eof_cond_keys"] := by
  unfold eofGuards at made
  split at made
  next =>
    rcases map_eq_ok.mp made with ⟨columns, built, rfl⟩
    unfold eofGuardColumns at built
    simp only [bind_eq_ok, pure_eq_ok] at built
    rcases built with ⟨_, spaces, _, offsets, _, lengths, _, keys, rfl⟩
    simp only [Option.map_some, Option.getD_some, List.map_cons, List.map_nil,
      name_of_spaceColumn spaces, name_of_counts offsets, name_of_counts lengths,
      name_of_column keys]
    exact .refl _
  next =>
    cases made
    exact List.nil_sublist _

theorem sublist_of_eofColumns {slots : List (Option Nat)} {eof? : Option EofColumns}
    (made : graph.eofColumns slots = .ok eof?) :
    (((eof?.map fun columns => [columns.actions, columns.transitions] ++
      (columns.guards.map fun guards => [guards.spaces, guards.offsets, guards.lengths,
        guards.keys]).getD []).getD []).map Column.name).Sublist
        ["eof_actions", "eof_trans", "eof_cond_spaces", "eof_cond_key_offs", "eof_cond_key_lens",
          "eof_cond_keys"] := by
  unfold eofColumns at made
  split at made
  next =>
    simp only [bind_eq_ok, pure_eq_ok] at made
    rcases made with ⟨_, actions, _, transitions, guards, guardsMade, rfl⟩
    simp only [Option.map_some, Option.getD_some, List.map_append, List.map_cons, List.map_nil,
      name_of_counts actions, name_of_counts transitions]
    exact List.Sublist.append (.refl _) (sublist_of_eofGuards guardsMade)
  next =>
    cases made
    exact List.nil_sublist _

theorem sublist_of_alternateColumns {alternates? : Option AlternateColumns}
    (made : graph.alternateColumns = .ok alternates?) :
    (((alternates?.map fun columns => [columns.offsets, columns.targets, columns.pushActions,
      columns.popTests]).getD []).map Column.name).Sublist
        ["nfa_offsets", "nfa_targs", "nfa_push_actions", "nfa_pop_trans"] := by
  unfold alternateColumns at made
  split at made
  next =>
    simp only [bind_eq_ok, pure_eq_ok] at made
    rcases made with ⟨_, offsets, _, targets, _, pushActions, _, popTests, rfl⟩
    simp only [Option.map_some, Option.getD_some, List.map_cons, List.map_nil,
      name_of_counts offsets, name_of_counts targets, name_of_counts pushActions,
      name_of_counts popTests]
    exact .refl _
  next =>
    cases made
    exact List.nil_sublist _

theorem name_of_actionColumn {table : Column} (made : graph.actionColumn = .ok table) :
    table.name = "actions" := by
  unfold actionColumn at made
  split at made
  next => cases made
  next => exact name_of_counts made

theorem Laid.sublist_columns (laid : graph.Laid options encoding) :
    (encoding.columns.map Column.name).Sublist
      (columnNames options.kind (graph.isDirect options)) := by
  have transitions := laid.transitions
  have conditions := laid.conditions
  unfold transitionColumns at transitions
  unfold conditionColumns at conditions
  simp only [bind_eq_ok, pure_eq_ok] at transitions conditions
  rcases transitions with ⟨_, spaces, _, offsets, _, lengths, transitions⟩
  rcases conditions with ⟨_, keys, _, targets, _, actions, conditions⟩
  simp only [Encoding.columns, List.map_append, ← transitions, ← conditions, List.map_cons,
    List.map_nil, name_of_spaceColumn spaces, name_of_counts offsets, name_of_counts lengths,
    name_of_column keys, name_of_counts targets, name_of_counts actions,
    name_of_actionColumn laid.actionTable]
  refine List.Sublist.append ?_ (sublist_of_alternateColumns laid.alternates)
  refine List.Sublist.append ?_ (.refl _)
  refine List.Sublist.append ?_ (sublist_of_eofColumns laid.eof)
  refine List.Sublist.append ?_ (sublist_of_stateActions laid.fromState)
  refine List.Sublist.append ?_ (sublist_of_stateActions laid.toState)
  exact laid.sublist_lookup.append (.refl _)

theorem Laid.columns_named (laid : graph.Laid options encoding) :
    (encoding.columns.map Column.name).Nodup ∧
      ∀ column ∈ encoding.columns, encoding.column? column.name = some column := by
  have nodup := laid.sublist_columns.nodup (nodup_columnNames _ _)
  refine ⟨nodup, fun column member => ?_⟩
  unfold Encoding.column?
  cases found : encoding.columns.find? fun other => other.name == column.name with
  | none => simpa using List.find?_eq_none.mp found column member
  | some other =>
      have isColumn := List.mem_of_find?_eq_some found
      have same : other.name = column.name := by simpa using List.find?_some found
      rw [List.inj_on_of_nodup_map nodup isColumn member same]

/-! ## The refusals -/

/-- In an encoding the action lists are where their locations say. -/
theorem locatable_of_encode (built : graph.Built) (encoded : graph.encode options = .ok encoding) :
    graph.Locatable :=
  built.canonical.contiguous_iff.mp
    (misplaced_eq_none_iff.mp (laid_of_encode encoded).actionTable_counts.1)

end Graph

end StateTables
