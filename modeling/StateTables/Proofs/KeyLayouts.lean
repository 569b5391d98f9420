import Mathlib.Algebra.Order.BigOperators.Group.List
import Mathlib.Algebra.Order.Group.Nat
import StateTables.Proofs.Addressing

/-! # Layouts of keys that cannot fail

The columns for the lookup of keys ask for the slots of transitions and, if keys are mapped to
classes, for the classes of claimed keys. A graph that was built has all of them. Rows of keys are
listed if their spans are not too large, and then there is room for them if there is room at all.
-/

namespace StateTables

namespace Graph

variable {graph : Graph} {options : EncodingOptions} {fits placed : Prop}

/-! ## Slots -/

theorem completes_slotOf {slots : List Nat} {transition : Nat} (member : transition ∈ slots) :
    Completes fits placed (slotOf slots transition) := by
  unfold slotOf
  split
  next => exact .pure _
  next missing =>
    rw [List.findIdx?_eq_none_iff] at missing
    simpa using missing transition member

theorem isDirect_eq_false (keyed : options.kind ≠ .binary) : graph.isDirect options = false := by
  simp [isDirect, keyed]

theorem mem_keySlots_of_lt {transition : Nat} (inside : transition < graph.transitions.size) :
    transition ∈ graph.keySlots false := by
  simpa [keySlots] using inside

theorem slot_lt {direct : Bool} {transition slot : Nat}
    (found : slotOf (graph.keySlots direct) transition = .ok slot) :
    slot < (graph.slots direct).transitions.size :=
  (Array.getElem?_eq_some_iff.mp (getElem?_slots (getElem?_of_slotOf found))).1

/-! ## Sorted keys -/

theorem length_row (state : State) : (row state).length =
    state.singles.size + state.ranges.size + state.fallback.toList.length := by
  simp [row, Nat.add_assoc]

theorem Roomy.sorted (roomy : graph.Roomy options) (binary : options.kind = .binary) :
    (graph.states.toList.flatMap sortedKeys).length < cellBound ∧
      (graph.states.toList.flatMap row).length < cellBound := by
  have room := roomy.keys
  rw [keyCells, binary] at room
  dsimp only at room
  omega

theorem Roomy.lt_of_mem_counts (roomy : graph.Roomy options) (binary : options.kind = .binary)
    {count : State → Nat} (within : ∀ state, count state ≤ (row state).length) {number : Nat}
    (member : number ∈ graph.states.toList.map count) : number < cellBound := by
  rcases List.mem_map.mp member with ⟨state, declared, rfl⟩
  have part := length_le_length_flatMap row declared
  have bound := within state
  have room := (roomy.sorted binary).2
  omega

theorem completes_rowSlots (linked : graph.Linked) (direct : Bool) :
    Completes fits placed (graph.rowSlots direct (graph.keySlots direct)) := by
  unfold rowSlots
  cases direct with
  | true => exact .pure none
  | false =>
      refine (Completes.mapM fun transition member => ?_).map _
      rcases List.mem_flatMap.mp member with ⟨state, declared, inRow⟩
      exact completes_slotOf
        (mem_keySlots_of_lt (linked.lt_of_mem_row (by simpa using declared) inRow))

theorem completes_indexColumn (binary : options.kind = .binary) {indices : Option (List Nat)}
    (made : graph.rowSlots (graph.isDirect options) (graph.keySlots (graph.isDirect options)) =
      .ok indices) : Completes (graph.Roomy options) placed (counts? "indices" indices) := by
  cases indices with
  | none => exact .pure none
  | some slots =>
      unfold rowSlots at made
      split at made
      next => cases made
      next =>
        rcases map_eq_ok.mp made with ⟨_, steps, same⟩
        cases same
        refine (completes_counts (fun roomy => ?_) fun roomy slot member => ?_).map _
        · rw [(mapM_eq_ok.mp steps).1]
          exact (roomy.sorted binary).2
        · rcases mem_of_mapM steps member with ⟨transition, _, found⟩
          exact Nat.lt_trans (slot_lt found) roomy.slots

theorem completes_binaryKeys (linked : graph.Linked) (binary : options.kind = .binary) :
    Completes (graph.Roomy options) placed (graph.binaryKeys (graph.isDirect options)
      (graph.keySlots (graph.isDirect options))) := by
  unfold binaryKeys
  refine (completes_rowSlots linked _).bind fun indices indicesMade => ?_
  refine (completes_offsets (fun roomy => ?_) fun roomy => ?_).bind fun keyOffsets _ => ?_
  · simpa using roomy.state
  · simpa [List.length_flatMap] using (roomy.sorted binary).1
  refine (completes_counts (fun roomy => ?_) fun roomy number member => ?_).bind
    fun singleLengths _ => ?_
  · simpa using roomy.state
  · refine roomy.lt_of_mem_counts binary (fun state => ?_) member
    have length := length_row state
    omega
  refine (completes_counts (fun roomy => ?_) fun roomy number member => ?_).bind
    fun rangeLengths _ => ?_
  · simpa using roomy.state
  · refine roomy.lt_of_mem_counts binary (fun state => ?_) member
    have length := length_row state
    omega
  refine (completes_offsets (fun roomy => ?_) fun roomy => ?_).bind fun indexOffsets _ => ?_
  · simpa using roomy.state
  · simpa [List.length_flatMap] using (roomy.sorted binary).2
  refine (completes_column fun roomy => ?_).bind fun transKeys _ => ?_
  · simpa using (roomy.sorted binary).1
  exact (completes_indexColumn binary indicesMade).bind fun indexColumn _ => .pure _

/-! ## Comparisons -/

theorem completes_switchState (linked : graph.Linked) {state : State}
    (declared : state ∈ graph.states) :
    Completes fits placed (graph.switchState (graph.keySlots false) state) := by
  have own := linked.states state declared
  unfold switchState
  refine Completes.bind (.mapM fun single member => ?_) fun singles _ => ?_
  · exact (completes_slotOf (mem_keySlots_of_lt (own.singles single (by simpa using member)))).bind
      fun slot _ => .pure _
  refine Completes.bind (.mapM fun range member => ?_) fun ranges _ => ?_
  · exact (completes_slotOf (mem_keySlots_of_lt (own.ranges range (by simpa using member)))).bind
      fun slot _ => .pure _
  refine Completes.bind ?_ fun fallback _ => .pure _
  cases found : state.fallback with
  | none => exact .pure none
  | some transition => exact (completes_slotOf (mem_keySlots_of_lt (own.fallback _ found))).map _

/-! ## Dense rows -/

/-- No envelope whose keys have to be listed has more of them than allowed. -/
structure Narrow (graph : Graph) (options : EncodingOptions) : Prop where
  classes : options.classMap = true → ∀ whole, graph.envelope = some whole →
    ¬options.spanLimit < graph.alphabet.span whole.low whole.high
  states : options.classMap = false → ∀ state ∈ graph.states, ∀ own,
    state.envelope graph.alphabet = some own →
      ¬options.spanLimit < graph.alphabet.span own.low own.high

theorem completes_denseSlot {transition? : Option Nat}
    (inside : ∀ transition, transition? = some transition → transition < graph.transitions.size) :
    Completes fits placed (denseSlot (graph.keySlots false) transition?) := by
  refine Completes.map ?_ _
  cases transition? with
  | none => exact .pure none
  | some transition => exact (completes_slotOf (mem_keySlots_of_lt (inside transition rfl))).map _

theorem Roomy.denseSlot_lt (roomy : graph.Roomy options) {transition? : Option Nat} {slot : Nat}
    (found : denseSlot (graph.keySlots (graph.isDirect options)) transition? = .ok slot) :
    slot < cellBound := by
  rcases map_eq_ok.mp found with ⟨slot?, made, rfl⟩
  cases transition? with
  | none =>
      cases made
      exact cellBound_pos
  | some transition =>
      rcases map_eq_ok.mp made with ⟨_, isSlot, rfl⟩
      exact Nat.lt_trans (slot_lt isSlot) roomy.slots

section Classes

variable {alphabet : Alphabet} {highest start : Key} {rest : List Key}

theorem exists_class (ascending : Ascending alphabet (start :: rest)) {key : Key}
    (above : alphabet.value start ≤ alphabet.value key)
    (below : alphabet.value key ≤ alphabet.value highest) :
    ∃ interval ∈ classesFrom highest (start :: rest), interval.Contains alphabet key := by
  induction rest generalizing start with
  | nil => exact ⟨⟨start, highest⟩, by simp [classesFrom], above, below⟩
  | cons next rest induction =>
      rcases List.pairwise_cons.mp ascending with ⟨startFirst, later⟩
      have last := alphabet.value_predecessor (startFirst next (by simp))
      by_cases first : alphabet.value key < alphabet.value next
      · refine ⟨⟨start, next.predecessor⟩, by simp [classesFrom], above, ?_⟩
        dsimp only
        omega
      · rcases induction later (by omega) with ⟨interval, member, contains⟩
        exact ⟨interval, by simp [classesFrom, member], contains⟩

theorem length_classNumbers (ascending : Ascending alphabet (start :: rest))
    (inside : ∀ key ∈ start :: rest, alphabet.value key ≤ alphabet.value highest) (number : Nat) :
    ((classNumbers number (classesFrom highest (start :: rest))).length : Int) =
      alphabet.value highest - alphabet.value start + 1 := by
  induction rest generalizing start number with
  | nil =>
      have only := KeyInterval.length_keys ⟨start, highest⟩ (inside start (by simp))
      simp only [classesFrom, classNumbers_cons, List.length_append, List.length_map]
      simp only [classNumbers, List.zipIdx_nil, List.flatMap_nil, List.length_nil]
      omega
  | cons next rest induction =>
      rcases List.pairwise_cons.mp ascending with ⟨startFirst, later⟩
      have first := length_keys_between (startFirst next (by simp))
      have others := induction later (fun key member => inside key (by simp [member])) (number + 1)
      simp only [classesFrom, classNumbers_cons, List.length_append, List.length_map]
      omega

theorem length_le_length_classNumbers {classes : List KeyInterval}
    (upright : ∀ interval ∈ classes, alphabet.value interval.low ≤ alphabet.value interval.high)
    (number : Nat) : classes.length ≤ (classNumbers number classes).length := by
  induction classes generalizing number with
  | nil => exact Nat.zero_le _
  | cons interval classes induction =>
      have order := upright interval (by simp)
      have own := interval.length_keys order
      have others := induction (fun other member => upright other (by simp [member])) (number + 1)
      rw [classNumbers_cons, List.length_append, List.length_map, List.length_cons]
      omega

theorem lt_of_mem_classNumbers {classes : List KeyInterval} {first number : Nat}
    (member : number ∈ classNumbers first classes) : number < first + classes.length := by
  rcases List.mem_flatMap.mp member with ⟨⟨interval, own⟩, inside, isNumber⟩
  rcases List.mem_map.mp isNumber with ⟨_, _, rfl⟩
  have bounds := List.snd_lt_add_of_mem_zipIdx inside
  omega

end Classes

theorem classOf_eq (classes : Array KeyInterval) (key : Key) : graph.classOf classes key =
    Search.position (Search.among (fun interval =>
      State.rangeSide graph.alphabet key interval.low interval.high) classes) classes.size := by
  unfold classOf
  dsimp only
  congr 1
  funext index
  unfold Search.among
  cases classes[index]? <;> rfl

theorem exists_graph_envelope {state : State} {own : KeyInterval} (declared : state ∈ graph.states)
    (claimed : state.envelope graph.alphabet = some own) :
    ∃ whole, graph.envelope = some whole := by
  cases envelope : graph.envelope with
  | some whole => exact ⟨whole, rfl⟩
  | none =>
      have empty := KeyInterval.envelope_eq_none envelope
      rw [List.filterMap_eq_nil_iff] at empty
      cases claimed.symm.trans (empty state (by simpa using declared))

theorem classesFor_eq_empty {classes : Array KeyInterval} (byClasses : options.classMap = true)
    (envelope : graph.envelope = none) (made : graph.classesFor options = .ok classes) :
    classes = #[] := by
  simp only [classesFor, byClasses, envelope] at made
  cases made
  rfl

theorem classesFor_eq_ok {whole : KeyInterval} {classes : Array KeyInterval}
    (byClasses : options.classMap = true) (envelope : graph.envelope = some whole)
    (made : graph.classesFor options = .ok classes) : classes = graph.keyClasses whole := by
  unfold classesFor at made
  simp only [byClasses, envelope] at made
  split at made
  next => cases made
  next =>
    cases made
    rfl

section Bisection

variable (ordered : ∀ state ∈ graph.states, state.Ordered graph.alphabet) {whole : KeyInterval}
  (envelope : graph.envelope = some whole) {key : Key}
include ordered envelope

theorem classOf_eq_some_iff {number : Nat} :
    graph.classOf (graph.keyClasses whole) key = some number ↔
      ∃ group, (graph.keyClasses whole)[number]? = some group ∧
        group.Contains graph.alphabet key := by
  have ascending := ascending_classStarts graph whole
  have bounded := start_le_high ordered envelope
  have apart := State.rangeSides KeyInterval.low KeyInterval.high
    (fun interval member => (upright_classesFrom ascending bounded member).2)
    (pairwise_classesFrom ascending bounded) key
  rw [classOf_eq, Search.position_among_iff (by simpa [keyClasses_eq] using apart)]
  simp only [State.rangeSide_eq_eq_iff, KeyInterval.Contains]

theorem exists_keyClass (inside : whole.Contains graph.alphabet key) :
    ∃ number : Nat, ∃ group, (graph.keyClasses whole)[number]? = some group ∧
      group.Contains graph.alphabet key := by
  rcases classStarts_eq_cons ordered envelope with ⟨rest, starts⟩
  have ascending := ascending_classStarts graph whole
  rw [starts] at ascending
  rcases exists_class ascending inside.1 inside.2 with ⟨group, member, contains⟩
  rw [← starts] at member
  rcases List.mem_iff_getElem?.mp member with ⟨number, found⟩
  exact ⟨number, group, by simpa [keyClasses_eq] using found, contains⟩

end Bisection

section Rows

variable (linked : graph.Linked) (ordered : ∀ state ∈ graph.states, state.Ordered graph.alphabet)
include linked ordered

theorem completes_denseEntry {state : State} (declared : state ∈ graph.states) (key : Key) :
    Completes fits placed (graph.denseEntry (graph.keySlots false) state key) :=
  completes_denseSlot fun _ found =>
    State.locate_lt (linked.states state declared) (ordered state declared) found

theorem completes_keyRow {id : Nat} {state : State} (declared : state ∈ graph.states)
    {own : KeyInterval}
    (narrow : ¬options.spanLimit < graph.alphabet.span own.low own.high) :
    Completes fits placed (graph.keyRow options.spanLimit (graph.keySlots false) id state own) := by
  unfold keyRow
  dsimp only
  rw [if_neg narrow]
  exact Completes.bind (.mapM fun key _ => completes_denseEntry linked ordered declared key)
    fun entries _ => .pure _

omit linked in
theorem completes_requireClass {whole : KeyInterval} (envelope : graph.envelope = some whole)
    {key : Key} (inside : whole.Contains graph.alphabet key) :
    Completes fits placed (graph.requireClass (graph.keyClasses whole) key) := by
  rcases exists_keyClass ordered envelope inside with ⟨number, group, found, contains⟩
  unfold requireClass
  rw [(classOf_eq_some_iff ordered envelope).mpr ⟨group, found, contains⟩]
  exact .pure _

theorem completes_classRow {whole own : KeyInterval} (envelope : graph.envelope = some whole)
    {state : State} (declared : state ∈ graph.states)
    (claimed : state.envelope graph.alphabet = some own) :
    Completes fits placed
      (graph.classRow (graph.keySlots false) (graph.keyClasses whole) state own) := by
  have within := state_envelope_within envelope declared claimed
  have upright := KeyInterval.upright_envelope
    (fun interval inside => State.upright_intervals (ordered state declared) inside) claimed
  unfold classRow
  refine (completes_requireClass ordered envelope ⟨within.1, by omega⟩).bind fun low _ => ?_
  refine (completes_requireClass ordered envelope ⟨by omega, within.2⟩).bind fun high _ => ?_
  exact Completes.bind (.mapM fun group _ => completes_denseEntry linked ordered declared group.low)
    fun entries _ => .pure _

theorem completes_denseRow (narrow : graph.Narrow options) {classes : Array KeyInterval}
    (classesMade : graph.classesFor options = .ok classes) {id : Nat} {state : State}
    (declared : state ∈ graph.states) :
    Completes fits placed (graph.denseRow options (graph.keySlots false) classes id state) := by
  unfold denseRow
  cases claimed : state.envelope graph.alphabet with
  | none => exact .pure none
  | some own =>
      refine Completes.map ?_ _
      cases byClasses : options.classMap with
      | false =>
          exact completes_keyRow linked ordered declared
            (narrow.states byClasses state declared own claimed)
      | true =>
          rcases exists_graph_envelope declared claimed with ⟨whole, envelope⟩
          rw [classesFor_eq_ok byClasses envelope classesMade]
          exact completes_classRow linked ordered envelope declared claimed

end Rows

/-- The entries of a row are slots, and there are no more of them than keys or classes, unless a
row by keys has too many to be addressed. -/
theorem entries_of_denseRow (ordered : ∀ state ∈ graph.states, state.Ordered graph.alphabet)
    {slots : List Nat} {classes : Array KeyInterval} {id : Nat} {state : State}
    (declared : state ∈ graph.states) {row : Option DenseRow}
    (made : graph.denseRow options slots classes id state = .ok row) :
    (∀ slot ∈ (row.map DenseRow.entries).getD [], ∃ transition?,
      denseSlot slots transition? = .ok slot) ∧
    ((options.classMap = false → graph.width (state.envelope graph.alphabet) < cellBound) →
      ((row.map DenseRow.entries).getD []).length ≤
        if options.classMap then classes.size else graph.width (state.envelope graph.alphabet)) := by
  unfold denseRow at made
  cases claimed : state.envelope graph.alphabet with
  | none =>
      rw [claimed] at made
      cases made
      exact ⟨by simp, by simp⟩
  | some own =>
      simp only [claimed, map_eq_ok] at made
      rcases made with ⟨row, made, rfl⟩
      dsimp only [Option.map_some, Option.getD_some]
      cases byClasses : options.classMap with
      | false =>
          rw [byClasses, if_neg (by simp)] at made
          rcases keyRow_eq_ok made with ⟨_, _, _, entries⟩
          refine ⟨fun slot member => ?_, fun narrow => ?_⟩
          · rcases mem_of_mapM entries member with ⟨key, _, found⟩
            exact ⟨_, found⟩
          · have upright := KeyInterval.upright_envelope
              (fun interval inside => State.upright_intervals (ordered state declared) inside) claimed
            have length := own.length_keys upright
            have span := graph.alphabet.toNat_span upright
            have room : (graph.alphabet.span own.low own.high).toNat < cellBound := narrow rfl
            change row.entries.length ≤ (graph.alphabet.span own.low own.high).toNat
            rw [cellBound_eq] at room
            rw [(mapM_eq_ok.mp entries).1]
            omega
      | true =>
          rw [byClasses, if_pos rfl] at made
          rcases classRow_eq_ok made with ⟨low, high, _, _, _, _, _, entries⟩
          refine ⟨fun slot member => ?_, fun _ => ?_⟩
          · rcases mem_of_mapM entries member with ⟨group, _, found⟩
            exact ⟨_, found⟩
          · rw [(mapM_eq_ok.mp entries).1, Array.length_toList, Array.size_extract, if_pos rfl]
            exact Nat.le_trans (Nat.sub_le _ _) (Nat.min_le_right _ _)

theorem Roomy.classes (roomy : graph.Roomy options) (flat : options.kind = .flat)
    (byClasses : options.classMap = true) : graph.width graph.envelope < cellBound ∧
      graph.states.size * graph.width graph.envelope < cellBound := by
  have room := roomy.keys
  simp only [keyCells, flat, denseCells, byClasses, if_true, Nat.add_mul, Nat.one_mul] at room
  omega

theorem Roomy.rows (roomy : graph.Roomy options) (flat : options.kind = .flat)
    (byKeys : options.classMap = false) :
    (graph.states.toList.map fun state => graph.width (state.envelope graph.alphabet)).sum <
      cellBound := by
  have room := roomy.keys
  simpa only [keyCells, flat, denseCells, byKeys, Bool.false_eq_true, if_false] using room

theorem Roomy.row (roomy : graph.Roomy options) (flat : options.kind = .flat)
    (byKeys : options.classMap = false) {state : State} (declared : state ∈ graph.states) :
    graph.width (state.envelope graph.alphabet) < cellBound := by
  refine Nat.lt_of_le_of_lt (List.le_sum_of_mem (List.mem_map.mpr ⟨state, ?_, rfl⟩))
    (roomy.rows flat byKeys)
  simpa using declared

section Flat

variable (ordered : ∀ state ∈ graph.states, state.Ordered graph.alphabet)
include ordered

theorem length_numbers {whole : KeyInterval} (envelope : graph.envelope = some whole) :
    ((classNumbers 0 (graph.keyClasses whole).toList).length : Int) =
      graph.alphabet.value whole.high - graph.alphabet.value whole.low + 1 := by
  have ascending := ascending_classStarts graph whole
  have bounded := start_le_high ordered envelope
  rcases classStarts_eq_cons ordered envelope with ⟨rest, starts⟩
  rw [starts] at ascending bounded
  rw [keyClasses_eq, starts, List.toList_toArray]
  exact length_classNumbers ascending bounded 0

/-- With room for the table there are no more classes than keys, and the table has no more cells
than its width says. -/
theorem size_classes_le {whole : KeyInterval} (envelope : graph.envelope = some whole)
    (room : graph.width graph.envelope < cellBound) :
    (graph.keyClasses whole).size ≤ graph.width graph.envelope ∧
      (classNumbers 0 (graph.keyClasses whole).toList).length ≤
        graph.width graph.envelope := by
  have ascending := ascending_classStarts graph whole
  have bounded := start_le_high ordered envelope
  have span := graph.alphabet.toNat_span (upright_graph_envelope ordered envelope)
  have each := length_le_length_classNumbers
    (fun interval member => (upright_classesFrom ascending bounded member).2) 0
  have total := length_numbers ordered envelope
  have width : graph.width graph.envelope =
      (graph.alphabet.span whole.low whole.high).toNat := by
    rw [envelope]
    rfl
  -- With room for the table its width is not cut off at 2^64 - 1.
  rw [width, cellBound_eq] at room
  rw [keyClasses_eq, List.toList_toArray] at total
  rw [width, keyClasses_eq, List.toList_toArray, List.size_toArray]
  omega

theorem completes_classMapFor (flat : options.kind = .flat) {classes : Array KeyInterval}
    (classesMade : graph.classesFor options = .ok classes) :
    Completes (graph.Roomy options) placed (graph.classMapFor options classes) := by
  unfold classMapFor
  split
  next byClasses =>
    refine Completes.bind ?_ fun column _ => .pure _
    change Completes _ _ (counts _ (classNumbers 0 classes.toList))
    cases envelope : graph.envelope with
    | none =>
        rw [classesFor_eq_empty byClasses envelope classesMade]
        exact completes_counts (fun _ => cellBound_pos) (by simp [classNumbers])
    | some whole =>
        rw [classesFor_eq_ok byClasses envelope classesMade]
        refine completes_counts (fun roomy => ?_) fun roomy number member => ?_
        · have limit := (roomy.classes flat byClasses).1
          exact Nat.lt_of_le_of_lt (size_classes_le ordered envelope limit).2 limit
        · have limit := (roomy.classes flat byClasses).1
          have sizes := size_classes_le ordered envelope limit
          have bound := lt_of_mem_classNumbers member
          rw [Array.length_toList] at bound
          omega
  next => exact .pure none

theorem length_rows_lt (roomy : graph.Roomy options) (flat : options.kind = .flat)
    {slots : List Nat} {classes : Array KeyInterval} {rows : List (Option DenseRow)}
    (classesMade : graph.classesFor options = .ok classes)
    (rowsMade : (graph.states.toList.zipIdx.mapM fun (state, id) =>
      graph.denseRow options slots classes id state) = .ok rows) :
    (rows.map fun row => (row.map DenseRow.entries).getD []).flatten.length < cellBound := by
  have total := length_flatten_of_mapM (fun row => (row.map DenseRow.entries).getD [])
    (fun entry => if options.classMap then classes.size
      else graph.width (entry.1.envelope graph.alphabet)) rowsMade
    fun entry member row made => by
      have declared : entry.1 ∈ graph.states := by simpa using List.fst_mem_of_mem_zipIdx member
      exact (entries_of_denseRow ordered declared made).2 fun byKeys =>
        roomy.row flat byKeys declared
  refine Nat.lt_of_le_of_lt total ?_
  cases byClasses : options.classMap with
  | false =>
      have room := roomy.rows flat byClasses
      rw [← List.zipIdx_map_fst 0 graph.states.toList, List.map_map] at room
      simp only [Bool.false_eq_true, if_false]
      exact room
  | true =>
      have few : classes.size ≤ graph.width graph.envelope := by
        cases envelope : graph.envelope with
        | none => simp [classesFor_eq_empty byClasses envelope classesMade]
        | some whole =>
            rw [classesFor_eq_ok byClasses envelope classesMade, ← envelope]
            exact (size_classes_le ordered envelope (roomy.classes flat byClasses).1).1
      simp only [if_true, List.map_const', List.sum_replicate_nat, List.length_zipIdx,
        Array.length_toList]
      exact Nat.lt_of_le_of_lt (Nat.mul_le_mul_left _ few) (roomy.classes flat byClasses).2

theorem completes_flatKeys (linked : graph.Linked) (flat : options.kind = .flat)
    (narrow : graph.Narrow options) : Completes (graph.Roomy options) placed
      (graph.flatKeys options (graph.keySlots (graph.isDirect options))) := by
  have direct : graph.isDirect options = false := isDirect_eq_false (by simp [flat])
  unfold flatKeys
  refine Completes.bind ?_ fun classes classesMade => ?_
  · unfold classesFor
    split
    next byClasses envelope =>
      dsimp only
      rw [if_neg (narrow.classes byClasses _ envelope)]
      exact .pure _
    next => exact .pure _
  refine Completes.bind (.mapM fun entry member => ?_) fun rows rowsMade => ?_
  · rw [direct]
    exact completes_denseRow linked ordered narrow classesMade
      (by simpa using List.fst_mem_of_mem_zipIdx member)
  have count : rows.length = graph.states.size := by
    simpa using (mapM_eq_ok.mp rowsMade).1
  refine (completes_classMapFor ordered flat classesMade).bind fun classMap _ => ?_
  refine Completes.bind (.mapM fun state member => ?_) fun defaults defaultsMade => ?_
  · rw [direct]
    exact completes_denseSlot (linked.states state (by simpa using member)).fallback
  refine (completes_column fun roomy => ?_).bind fun transKeys _ => ?_
  · have cells : (rows.flatMap DenseRow.bounds).length = graph.states.size * 2 := by
      rw [List.length_flatMap, ← count]
      simp only [bounds_eq, List.length_cons, List.length_nil, List.map_const',
        List.sum_replicate_nat]
    have room := roomy.states
    omega
  refine (completes_column fun roomy => ?_).bind fun keySpans _ => ?_
  · simpa [count] using roomy.state
  refine (completes_offsets (fun roomy => ?_) fun roomy => ?_).bind fun indexOffsets _ => ?_
  · simpa [count] using roomy.state
  · rw [← List.length_flatten]
    exact length_rows_lt ordered roomy flat classesMade rowsMade
  refine (completes_counts (fun roomy => ?_) fun roomy slot member => ?_).bind fun indices _ => ?_
  · exact length_rows_lt ordered roomy flat classesMade rowsMade
  · rcases List.mem_flatten.mp member with ⟨entries, isPart, inside⟩
    rcases List.mem_map.mp isPart with ⟨row, isRow, rfl⟩
    rcases mem_of_mapM rowsMade isRow with ⟨entry, isEntry, made⟩
    have declared : entry.1 ∈ graph.states := by simpa using List.fst_mem_of_mem_zipIdx isEntry
    rcases (entries_of_denseRow ordered declared made).1 slot inside with ⟨_, found⟩
    exact roomy.denseSlot_lt found
  refine (completes_counts (fun roomy => ?_) fun roomy slot member => ?_).bind
    fun indexDefaults _ => .pure _
  · rw [(mapM_eq_ok.mp defaultsMade).1, Array.length_toList]
    exact roomy.state
  · rcases mem_of_mapM defaultsMade member with ⟨state, _, found⟩
    exact roomy.denseSlot_lt found

end Flat

/-! ## Whole layouts -/

theorem completes_keyLookup (built : graph.Built)
    (narrow : options.kind = .flat → graph.Narrow options) :
    Completes (graph.Roomy options) placed (graph.keyLookup options (graph.isDirect options)) := by
  have linked := built.wired.linked
  unfold keyLookup
  dsimp only
  cases kind : options.kind with
  | flat => exact (completes_flatKeys built.valid.states linked kind (narrow kind)).map _
  | binary => exact (completes_binaryKeys linked kind).map _
  | switch =>
      rw [isDirect_eq_false (by simp [kind])]
      refine (Completes.mapM fun state member => ?_).map _
      exact completes_switchState linked (by simpa using member)

/-- A graph that was built and is not refused is laid out if its tables can be addressed and its
action lists located. -/
theorem completes_encode (built : graph.Built)
    (alternates : ¬(graph.hasAlternates && !options.alternates) = true)
    (eof : ¬(graph.hasEof && !options.endOfInput) = true)
    (narrow : options.kind = .flat → graph.Narrow options) :
    Completes (graph.cells options < cellBound) graph.Locatable (graph.encode options) := by
  have linked := built.wired.linked
  refine Completes.weaken ?_ roomy_of_cells
  unfold encode
  dsimp only
  rw [if_neg alternates, if_neg eof]
  refine (completes_keyLookup built narrow).bind fun lookup _ => ?_
  refine (completes_transitionColumns linked _).bind fun transitions _ => ?_
  refine (completes_conditionColumns built.wired).bind fun conditions _ => ?_
  refine (completes_stateActions State.toState).bind fun toState _ => ?_
  refine (completes_stateActions State.fromState).bind fun fromState _ => ?_
  refine (completes_eofColumns built.furnished).bind fun eof _ => ?_
  refine (completes_actionColumn built.canonical linked).bind fun actionTable _ => ?_
  exact (completes_alternateColumns linked).bind fun alternates _ => .pure _

end Graph

end StateTables
