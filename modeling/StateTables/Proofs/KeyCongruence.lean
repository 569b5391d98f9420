import StateTables.Proofs.StorageFit

/-! # Keys of one class are treated alike

The classes of a graph cut the keys from the lowest to the highest claimed one into intervals
without a gap. No claimed interval starts or ends within a class, so a class lies inside of a
claimed interval or outside of it, and one of its keys can stand for all of them in every state.
Bisection and the table of classes agree on the class of a key.
-/

namespace StateTables

namespace KeyInterval

/-- Intervals that have keys and follow each other without a gap, from a low to a high key. -/
inductive Tiles (alphabet : Alphabet) (high : Key) : Key → List KeyInterval → Prop
  | last {low : Key} (upright : alphabet.value low ≤ alphabet.value high) :
      Tiles alphabet high low [⟨low, high⟩]
  | cons {low stop next : Key} {rest : List KeyInterval}
      (upright : alphabet.value low ≤ alphabet.value stop)
      (adjacent : alphabet.value next = alphabet.value stop + 1)
      (others : Tiles alphabet high next rest) : Tiles alphabet high low (⟨low, stop⟩ :: rest)

namespace Tiles

variable {alphabet : Alphabet} {high low : Key} {parts : List KeyInterval}

theorem upright (tiles : Tiles alphabet high low parts) :
    alphabet.value low ≤ alphabet.value high := by
  induction tiles with
  | last upright => exact upright
  | cons upright adjacent others induction => omega

theorem le_high (tiles : Tiles alphabet high low parts) {part : KeyInterval}
    (member : part ∈ parts) : alphabet.value part.high ≤ alphabet.value high := by
  induction tiles with
  | last upright =>
      have only : part = _ := List.mem_singleton.mp member
      exact only ▸ Int.le_refl _
  | cons upright adjacent others induction =>
      rcases List.mem_cons.mp member with rfl | later
      · have behind := others.upright
        dsimp only
        omega
      · exact induction later

end Tiles

end KeyInterval

namespace Graph

/-! ## Intervals from start to start -/

section Starts

variable {alphabet : Alphabet} {highest start : Key} {rest : List Key}

theorem tiles_classesFrom (ascending : Ascending alphabet (start :: rest))
    (inside : ∀ key ∈ start :: rest, alphabet.value key ≤ alphabet.value highest) :
    KeyInterval.Tiles alphabet highest start (classesFrom highest (start :: rest)) := by
  induction rest generalizing start with
  | nil => exact .last (inside start (by simp))
  | cons next rest induction =>
      rcases List.pairwise_cons.mp ascending with ⟨startFirst, later⟩
      have before := startFirst next (by simp)
      have last := alphabet.value_predecessor before
      exact .cons (by omega) (by omega)
        (induction later fun key member => inside key (by simp [member]))

theorem exists_class_from (highest : Key) {starts : List Key} {key : Key}
    (isStart : key ∈ starts) : ∃ group ∈ classesFrom highest starts, group.low = key := by
  induction starts with
  | nil => cases isStart
  | cons start rest induction =>
      cases rest with
      | nil =>
          have only : key = start := by simpa using isStart
          exact ⟨⟨start, highest⟩, by simp [classesFrom], only.symm⟩
      | cons next rest =>
          rcases List.mem_cons.mp isStart with rfl | later
          · exact ⟨_, List.mem_cons_self, rfl⟩
          · rcases induction later with ⟨group, member, low⟩
            exact ⟨group, List.mem_cons_of_mem _ member, low⟩

end Starts

section Classes

variable {graph : Graph} {envelope : KeyInterval} (built : graph.Built)
  (whole : graph.envelope = some envelope)

theorem exists_class_of_low (envelope : KeyInterval) {state : State}
    (declared : state ∈ graph.states) {interval : KeyInterval}
    (member : interval ∈ state.intervals) :
    ∃ group ∈ graph.keyClasses envelope, group.low = interval.low := by
  have isStart := low_mem_classStarts envelope declared member
  rcases exists_class_from envelope.high isStart with ⟨group, isClass, low⟩
  exact ⟨group, by simpa [keyClasses_eq] using isClass, low⟩

include built whole

theorem tiles_keyClasses :
    KeyInterval.Tiles graph.alphabet envelope.high envelope.low
      (graph.keyClasses envelope).toList := by
  have ascending := ascending_classStarts graph envelope
  have bounded := start_le_high built.valid.states whole
  rcases classStarts_eq_cons built.valid.states whole with ⟨rest, starts⟩
  rw [starts] at ascending bounded
  rw [keyClasses_eq, starts, List.toList_toArray]
  exact tiles_classesFrom ascending bounded

theorem contains_of_envelope {key : Key} (inside : envelope.Contains graph.alphabet key) :
    graph.alphabet.contains key = true := by
  have spans := (spans_iff built.valid.states).mpr whole
  have claimed : ∀ bound, (∃ state ∈ graph.states, state.Claims graph.alphabet bound) →
      graph.alphabet.contains bound = true := by
    intro bound isClaimed
    rcases isClaimed with ⟨state, declared, claims⟩
    rcases State.claims_iff.mp claims with ⟨interval, member, contains⟩
    rcases built.within declared interval member with ⟨low, high⟩
    rw [Alphabet.contains_iff] at low high ⊢
    have above := contains.1
    have below := contains.2
    omega
  have low := claimed envelope.low spans.lowest
  have high := claimed envelope.high spans.highest
  rw [Alphabet.contains_iff] at low high ⊢
  have above := inside.1
  have below := inside.2
  omega

theorem exists_class_of_high {state : State} (declared : state ∈ graph.states)
    {interval : KeyInterval} (member : interval ∈ state.intervals) :
    ∃ group ∈ graph.keyClasses envelope, group.high = interval.high := by
  have ordered := built.valid.states
  have within := within_graph_envelope whole declared member
  have upright := State.upright_intervals (ordered state declared) member
  have inside : envelope.Contains graph.alphabet interval.high := ⟨by omega, within.2⟩
  have highest : envelope.Contains graph.alphabet envelope.high :=
    ⟨upright_graph_envelope ordered whole, Int.le_refl _⟩
  rcases exists_keyClass ordered whole inside with ⟨number, group, found, contains⟩
  have isClass := Array.mem_of_getElem? found
  refine ⟨group, isClass, graph.alphabet.value_injective ?_⟩
  have reaches := contains.2
  by_cases final : graph.alphabet.value interval.high = graph.alphabet.value envelope.high
  · have atMost := (tiles_keyClasses built whole).le_high (by simpa using isClass)
    omega
  · -- The key behind the interval is a start, so the class does not reach it.
    have early : graph.alphabet.value interval.high < graph.alphabet.value envelope.high := by omega
    have next := graph.alphabet.value_successor early
    have isStart := successor_mem_classStarts declared member
      (contains_of_envelope built whole highest) early (Int.le_refl _)
    have begins := contains.1
    have stops := start_outside_keyClass ordered whole isClass isStart (by omega)
    omega

/-! ## Keys of a class -/

/-- Every state treats a key as it treats the first key of its class. -/
theorem locate_eq_of_class {group : KeyInterval} (isClass : group ∈ graph.keyClasses envelope)
    {key : Key} (contains : group.Contains graph.alphabet key) (id : Nat) :
    graph.locate id key = graph.locate id group.low := by
  have ordered := built.valid.states
  have isStart := (upright_keyClass ordered whole isClass).1
  have above := (classStarts_within ordered whole isStart).1
  have below := (tiles_keyClasses built whole).le_high (by simpa using isClass)
  have inside : envelope.Contains graph.alphabet key :=
    ⟨Int.le_trans above contains.1, Int.le_trans contains.2 below⟩
  unfold locate
  cases found : graph.states[id]? with
  | none => rfl
  | some state =>
      have declared := Array.mem_of_getElem? found
      exact State.locate_congr (ordered state declared) fun interval member =>
        contains_iff_of_class ordered whole isClass declared member
          (contains_of_envelope built whole inside) inside.2 contains

/-- Bisection and the table of classes have the same number for a key, that of the only class it
lies in. -/
theorem exists_class_number {key : Key} (inside : envelope.Contains graph.alphabet key) :
    ∃ number < (graph.keyClasses envelope).size,
      graph.classOf (graph.keyClasses envelope) key = some number ∧
      (classNumbers 0 (graph.keyClasses envelope).toList)[(envelope.low.distance key).toNat]? =
        some number ∧
      ∀ (other : Nat) (group : KeyInterval), (graph.keyClasses envelope)[other]? = some group →
        (group.Contains graph.alphabet key ↔ other = number) := by
  have ordered := built.valid.states
  have ascending := ascending_classStarts graph envelope
  rcases classStarts_eq_cons ordered whole with ⟨rest, starts⟩
  rw [starts] at ascending
  rcases getElem?_classNumbers 0 ascending inside.1 inside.2 with
    ⟨number, group, listed, contains, stands⟩
  rw [← starts] at listed stands
  rw [Nat.zero_add] at stands
  have found : (graph.keyClasses envelope)[number]? = some group := by
    simpa [keyClasses_eq] using listed
  refine ⟨number, (Array.getElem?_eq_some_iff.mp found).1,
    (classOf_eq_some_iff ordered whole).mpr ⟨group, found, contains⟩,
    by simpa [keyClasses_eq] using stands, ?_⟩
  intro other otherGroup otherFound
  constructor
  · intro otherContains
    exact class_unique ordered whole otherFound found otherContains contains
  · intro same
    subst same
    cases found.symm.trans otherFound
    exact contains

end Classes

/-! ## The classes of a graph -/

/-- If some state claims a key, the classes tile the keys from the lowest to the highest claimed
one. Each of these keys lies in one class, which bisection finds and which the table of classes has
at the distance of the key from the lowest one; there are as many numbers in the table as keys. Two
keys of one class have the same transition in every state, and what a state claims reaches from the
start of a class to the end of a class. The draft of the graph names only condition spaces of its
own. -/
theorem key_classes_exact_congruence {graph : Graph} (built : graph.Built) {claimant : State}
    (claiming : claimant ∈ graph.states) {claimedKey : Key}
    (claimed : claimant.Claims graph.alphabet claimedKey) :
    ∃ envelope, graph.envelope = some envelope ∧
      KeyInterval.Tiles graph.alphabet envelope.high envelope.low
        (graph.keyClasses envelope).toList ∧
      classColumn (graph.keyClasses envelope) =
        counts "char_class" (classNumbers 0 (graph.keyClasses envelope).toList) ∧
      ((classNumbers 0 (graph.keyClasses envelope).toList).length : Int) =
        graph.alphabet.value envelope.high - graph.alphabet.value envelope.low + 1 ∧
      (∀ key, envelope.Contains graph.alphabet key →
        ∃ number < (graph.keyClasses envelope).size,
          graph.classOf (graph.keyClasses envelope) key = some number ∧
          (classNumbers 0 (graph.keyClasses envelope).toList)[
            (envelope.low.distance key).toNat]? = some number ∧
          ∀ (other : Nat) (group : KeyInterval),
            (graph.keyClasses envelope)[other]? = some group →
              (group.Contains graph.alphabet key ↔ other = number)) ∧
      (∀ group ∈ graph.keyClasses envelope, ∀ first second,
        group.Contains graph.alphabet first → group.Contains graph.alphabet second →
          ∀ id, graph.locate id first = graph.locate id second) ∧
      ∀ state ∈ graph.states, ∀ own, state.envelope graph.alphabet = some own →
        (∃ group ∈ graph.keyClasses envelope, group.low = own.low) ∧
          ∃ group ∈ graph.keyClasses envelope, group.high = own.high := by
  have inhabited : ∃ envelope, graph.envelope = some envelope := by
    cases own : claimant.envelope graph.alphabet with
    | some inner => exact exists_graph_envelope claiming own
    | none =>
        rcases State.claims_iff.mp claimed with ⟨interval, member, _⟩
        rw [KeyInterval.envelope_eq_none own] at member
        cases member
  rcases inhabited with ⟨envelope, whole⟩
  refine ⟨envelope, whole, tiles_keyClasses built whole, rfl,
    length_numbers built.valid.states whole, fun key => exists_class_number built whole, ?_, ?_⟩
  · intro group isClass first second firstInside secondInside id
    exact (locate_eq_of_class built whole isClass firstInside id).trans
      (locate_eq_of_class built whole isClass secondInside id).symm
  · intro state declared own claims
    rcases KeyInterval.exists_bounds_envelope claims with
      ⟨⟨lowest, isLow, low⟩, highest, isHigh, high⟩
    rw [← low, ← high]
    exact ⟨exists_class_of_low envelope declared isLow,
      exists_class_of_high built whole declared isHigh⟩

end Graph

/-! ## Classes of all keys of 64 bits -/

namespace Sample

def wideDraft : Draft :=
  let operations : List DraftStep := [
    .setStart "near",
    .addClaim "near" ⟨.ofInt 0, .ofInt 9, .plain ⟨"far", []⟩⟩,
    .addClaim "near" ⟨.ofInt (-1), .ofInt (-1), .plain ⟨"far", []⟩⟩,
    .setFallback "near" (.plain ⟨"near", []⟩),
    .addClaim "far" ⟨.ofInt 5, .ofInt 20, .plain ⟨"near", []⟩⟩,
    .setFallback "far" (.plain ⟨"far", []⟩)]
  operations.foldl Draft.perform (.empty "wide" (.full ⟨false, .eight⟩))

def wideGraph : Graph :=
  wideDraft.assemble.mergeDuplicates

def wideEnvelope : KeyInterval :=
  ⟨.ofInt 0, .ofInt (-1)⟩

theorem built_wideGraph : wideGraph.Built := by
  have drafted : wideDraft.Drafted := (Draft.Drafted.empty _ _).foldl (by decide +kernel)
  exact Graph.built_of_checks drafted (by decide +kernel)

end Sample

/-- The table of classes of all keys is too large to be stored, but has the right number for the key
below the highest one. Within the class from 10 to 20 both states treat all keys alike. -/
theorem key_classes_exact_congruence_sample :
    let classes := Sample.wideGraph.keyClasses Sample.wideEnvelope
    let numbers := Graph.classNumbers 0 classes.toList
    Graph.classColumn classes = Graph.counts "char_class" numbers ∧
    numbers.length = 2 ^ 64 ∧ numbers[2 ^ 64 - 2]? = some 3 ∧
    Sample.wideGraph.classOf classes (.ofInt (-2)) = some 3 ∧
    ∀ id, Sample.wideGraph.locate id (.ofInt 10) = Sample.wideGraph.locate id (.ofInt 20) := by
  intro classes numbers
  have claims : ∃ state ∈ Sample.wideGraph.states,
      state.envelope Sample.wideGraph.alphabet = some ⟨.ofInt 5, .ofInt 20⟩ := by
    decide +kernel
  rcases claims with ⟨state, declared, claimed⟩
  have spans := (State.spans_iff (Sample.built_wideGraph.valid.states state declared)).mpr claimed
  rcases Graph.key_classes_exact_congruence Sample.built_wideGraph declared spans.lowest with
    ⟨envelope, whole, _, column, length, numbered, alike, _⟩
  have isWhole : Sample.wideGraph.envelope = some Sample.wideEnvelope := by decide +kernel
  cases whole.symm.trans isWhole
  rcases numbered (.ofInt (-2)) ⟨by decide +kernel, by decide +kernel⟩ with
    ⟨number, _, found, stands, only⟩
  have third : (Sample.wideGraph.keyClasses Sample.wideEnvelope)[3]? =
      some ⟨.ofInt 21, .ofInt (-2)⟩ := by decide +kernel
  have isThird : 3 = number :=
    (only 3 _ third).mp ⟨by decide +kernel, by decide +kernel⟩
  have second : ⟨.ofInt 10, .ofInt 20⟩ ∈ Sample.wideGraph.keyClasses Sample.wideEnvelope := by
    decide +kernel
  have distance : (Sample.wideEnvelope.low.distance (.ofInt (-2))).toNat = 2 ^ 64 - 2 := by
    decide +kernel
  have count : Sample.wideGraph.alphabet.value Sample.wideEnvelope.high -
      Sample.wideGraph.alphabet.value Sample.wideEnvelope.low + 1 = 2 ^ 64 := by
    decide +kernel
  have total : (numbers.length : Int) = 2 ^ 64 := length.trans count
  subst isThird
  rw [distance] at stands
  exact ⟨column, by omega, stands, found,
    alike _ second _ _ ⟨by decide +kernel, by decide +kernel⟩ ⟨by decide +kernel, by decide +kernel⟩⟩

end StateTables
