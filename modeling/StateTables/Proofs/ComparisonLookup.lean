import StateTables.Proofs.Slots

/-! # Lookup by comparisons

A tree of comparisons finds the range that contains a key. Comparisons are left out
where the bounds of the keys that reach a node decide them already.
-/

namespace StateTables

/-- The range contains the key and leads to the slot. -/
def SlotRange.Holds (alphabet : Alphabet) (range : SlotRange) (key : Key) (slot : Nat) : Prop :=
  (alphabet.value range.low ≤ alphabet.value key ∧
    alphabet.value key ≤ alphabet.value range.high) ∧ range.slot = slot

namespace RangeTree

variable {alphabet : Alphabet} {key low high : Key}

theorem ofRanges_nil (low high : Key) : ofRanges low high [] = .miss := by
  unfold ofRanges
  rfl

theorem exists_middle {ranges : List SlotRange} (inhabited : ranges ≠ []) :
    ∃ earlier range later, ranges = earlier ++ range :: later ∧
      earlier.length = (ranges.length - 1) / 2 := by
  have positive := List.length_pos_iff.mpr inhabited
  cases split : ranges.drop ((ranges.length - 1) / 2) with
  | nil =>
      have lengths := congrArg List.length split
      rw [List.length_drop, List.length_nil] at lengths
      omega
  | cons range later =>
      refine ⟨ranges.take ((ranges.length - 1) / 2), range, later, ?_, ?_⟩
      · rw [← split, List.take_append_drop]
      · rw [List.length_take]
        omega

theorem ofRanges_append {earlier later : List SlotRange} {range : SlotRange}
    (half : earlier.length = ((earlier ++ range :: later).length - 1) / 2) :
    ofRanges low high (earlier ++ range :: later) = .node range
      ((ofRanges low range.low.predecessor earlier).isMiss && range.low != low)
      ((ofRanges range.high.successor high later).isMiss && range.high != high)
      (ofRanges low range.low.predecessor earlier) (ofRanges range.high.successor high later) := by
  rw [ofRanges]
  split
  next empty =>
    rw [← half, List.drop_left] at empty
    cases empty
  next other rest same =>
    rw [← half, List.drop_left] at same
    cases same
    rw [← half, List.take_left]

/-- A key that lies between the bounds takes the turn that its range says, whether the
comparison was left out or not. -/
theorem find_node {range : SlotRange} {lower higher : RangeTree}
    (upright : alphabet.value range.low ≤ alphabet.value range.high)
    (above : alphabet.value low ≤ alphabet.value key)
    (below : alphabet.value key ≤ alphabet.value high) :
    (node range (lower.isMiss && range.low != low) (higher.isMiss && range.high != high)
        lower higher).find alphabet key =
      if alphabet.value key < alphabet.value range.low then lower.find alphabet key
      else if alphabet.value range.high < alphabet.value key then higher.find alphabet key
      else some range.slot := by
  have lowest : alphabet.value key < alphabet.value range.low → (range.low != low) = true := by
    intro tooLow
    simp only [bne_iff_ne]
    intro same
    subst same
    omega
  have highest : alphabet.value range.high < alphabet.value key → (range.high != high) = true := by
    intro tooHigh
    simp only [bne_iff_ne]
    intro same
    subst same
    omega
  by_cases tooLow : alphabet.value key < alphabet.value range.low
  · cases lower with
    | miss =>
        have notHigh : ¬alphabet.value range.high < alphabet.value key := by omega
        simp [find, isMiss, tooLow, notHigh, lowest tooLow]
    | node => simp [find, isMiss, tooLow]
  · by_cases tooHigh : alphabet.value range.high < alphabet.value key
    · cases higher with
      | miss => simp [find, isMiss, tooLow, tooHigh, highest tooHigh]
      | node => simp [find, isMiss, tooLow, tooHigh]
    · simp [find, tooLow, tooHigh]

theorem exists_holds_append {earlier later : List SlotRange} {range : SlotRange} {slot : Nat}
    (upright : alphabet.value range.low ≤ alphabet.value range.high)
    (ascending : (earlier ++ range :: later).Pairwise fun first second =>
      alphabet.value first.high < alphabet.value second.low) :
    (∃ other ∈ earlier ++ range :: later, other.Holds alphabet key slot) ↔
      if alphabet.value key < alphabet.value range.low then
        ∃ other ∈ earlier, other.Holds alphabet key slot
      else if alphabet.value range.high < alphabet.value key then
        ∃ other ∈ later, other.Holds alphabet key slot
      else range.slot = slot := by
  rw [List.pairwise_append, List.pairwise_cons] at ascending
  rcases ascending with ⟨_, ⟨behind, _⟩, across⟩
  have before : ∀ other ∈ earlier, other.Holds alphabet key slot →
      alphabet.value key < alphabet.value range.low := by
    intro other member holds
    have order := across other member range (by simp)
    have inside := holds.1.2
    omega
  have after : ∀ other ∈ later, other.Holds alphabet key slot →
      alphabet.value range.high < alphabet.value key := by
    intro other member holds
    have order := behind other member
    have inside := holds.1.1
    omega
  simp only [List.mem_append, List.mem_cons]
  constructor
  · intro found
    rcases found with ⟨other, member | rfl | member, holds⟩
    · rw [if_pos (before other member holds)]
      exact ⟨other, member, holds⟩
    · rcases holds with ⟨inside, same⟩
      rw [if_neg (by omega), if_neg (by omega)]
      exact same
    · have behindKey := after other member holds
      rw [if_neg (by omega), if_pos behindKey]
      exact ⟨other, member, holds⟩
  · intro found
    split at found
    next =>
      rcases found with ⟨other, member, holds⟩
      exact ⟨other, .inl member, holds⟩
    next notBelow =>
      split at found
      next =>
        rcases found with ⟨other, member, holds⟩
        exact ⟨other, .inr (.inr member), holds⟩
      next notAbove => exact ⟨range, .inr (.inl rfl), ⟨by omega, by omega⟩, found⟩

/-- The tree over ascending ranges finds the one that contains a key. -/
theorem find_ofRanges_iff {ranges : List SlotRange} {slot : Nat}
    (upright : ∀ range ∈ ranges, alphabet.value range.low ≤ alphabet.value range.high)
    (ascending : ranges.Pairwise fun first second =>
      alphabet.value first.high < alphabet.value second.low)
    (above : alphabet.value low ≤ alphabet.value key)
    (below : alphabet.value key ≤ alphabet.value high) :
    (ofRanges low high ranges).find alphabet key = some slot ↔
      ∃ range ∈ ranges, range.Holds alphabet key slot := by
  induction count : ranges.length using Nat.strongRecOn generalizing low high ranges with
  | ind count induction =>
      by_cases inhabited : ranges = []
      · simp [inhabited, ofRanges_nil, find]
      rcases exists_middle inhabited with ⟨earlier, range, later, rfl, half⟩
      have rangeUpright := upright range (by simp)
      rw [ofRanges_append half, find_node rangeUpright above below,
        exists_holds_append rangeUpright ascending]
      rw [List.length_append, List.length_cons] at count
      rw [List.pairwise_append, List.pairwise_cons] at ascending
      rcases ascending with ⟨earlierOrder, ⟨_, laterOrder⟩, _⟩
      split
      next tooLow =>
        have bound := alphabet.value_predecessor tooLow
        exact induction earlier.length (by omega)
          (fun other member => upright other (by simp [member])) earlierOrder above (by omega) rfl
      next =>
        split
        next tooHigh =>
          have bound := alphabet.value_successor tooHigh
          exact induction later.length (by omega)
            (fun other member => upright other (by simp [member])) laterOrder (by omega) below rfl
        next => exact Option.some_inj

end RangeTree

/-! ## The cases of a state -/

namespace Graph

variable {graph : Graph} {slots : List Nat}

theorem switchState_eq_ok {state : State} {cases : SwitchState}
    (made : graph.switchState slots state = .ok cases) :
    ∃ ranges, state.singles.toList.mapM (fun single =>
        return (⟨single.key, ← slotOf slots single.transition⟩ : SwitchCase)) = .ok cases.singles ∧
      state.ranges.toList.mapM (fun range =>
        return (⟨range.low, range.high, ← slotOf slots range.transition⟩ : SlotRange)) = .ok ranges ∧
      cases.ranges = .ofRanges graph.alphabet.low graph.alphabet.high ranges ∧
      slotOf? slots state.fallback = .ok cases.fallback := by
  unfold switchState at made
  simp only [bind_eq_ok, pure_eq_ok] at made
  rcases made with ⟨singles, singlesMade, ranges, rangesMade, fallback, fallbackMade, rfl⟩
  exact ⟨ranges, by simpa [bind_eq_ok] using singlesMade, by simpa using rangesMade, rfl,
    fallbackMade⟩

abbrev Slotted (slots : List Nat) (slot transition : Nat) : Prop :=
  slots[slot]? = some transition

theorem rel_or {α β : Type} {related : α → β → Prop} {first second : Option α}
    {other otherSecond : Option β} (firsts : Option.Rel related first other)
    (seconds : Option.Rel related second otherSecond) :
    Option.Rel related (first.or second) (other.or otherSecond) := by
  cases firsts with
  | none => exact seconds
  | some same => exact .some same

section Switch

variable {state : State} (ordered : state.Ordered graph.alphabet) {key : Key}
include ordered

theorem rel_singles {cases : List SwitchCase}
    (made : state.singles.toList.mapM (fun single =>
      return (⟨single.key, ← slotOf slots single.transition⟩ : SwitchCase)) = .ok cases) :
    Option.Rel (Slotted slots) ((cases.find? fun single => single.key = key).map SwitchCase.slot)
      (state.locateSingle graph.alphabet key) := by
  cases found : cases.find? fun single => single.key = key with
  | some single =>
      have same : single.key = key := by simpa using List.find?_some found
      rcases mem_of_mapM made (List.mem_of_find?_eq_some found) with ⟨source, inside, step⟩
      rcases bind_eq_ok.mp step with ⟨slot, isSlot, built⟩
      cases built
      have located := (State.locateSingle_iff ordered).mpr
        ⟨source, by simpa using inside, same, rfl⟩
      rw [located]
      exact .some (getElem?_of_slotOf isSlot)
  | none =>
      cases located : state.locateSingle graph.alphabet key with
      | none => exact .none
      | some other =>
          rcases (State.locateSingle_iff ordered).mp located with ⟨source, inside, same, _⟩
          rcases exists_of_mapM made (by simpa using inside) with ⟨result, member, step⟩
          rcases bind_eq_ok.mp step with ⟨_, _, built⟩
          cases built
          have differs := List.find?_eq_none.mp found _ member
          simp [same] at differs

theorem rel_ranges {ranges : List SlotRange}
    (made : state.ranges.toList.mapM (fun range =>
      return (⟨range.low, range.high, ← slotOf slots range.transition⟩ : SlotRange)) = .ok ranges)
    (contained : graph.alphabet.contains key = true) :
    Option.Rel (Slotted slots)
      ((RangeTree.ofRanges graph.alphabet.low graph.alphabet.high ranges).find graph.alphabet key)
      (state.locateRange graph.alphabet key) := by
  rcases (graph.alphabet.contains_iff key).mp contained with ⟨above, below⟩
  have upright : ∀ range ∈ ranges,
      graph.alphabet.value range.low ≤ graph.alphabet.value range.high := by
    intro range member
    rcases mem_of_mapM made member with ⟨source, inside, step⟩
    rcases bind_eq_ok.mp step with ⟨slot, _, same⟩
    cases same
    exact ordered.upright source (by simpa using inside)
  have ascending : ranges.Pairwise fun first second =>
      graph.alphabet.value first.high < graph.alphabet.value second.low := by
    refine pairwise_of_mapM ?_ made ordered.ranges
    intro first second firstResult secondResult firstStep secondStep before
    rcases bind_eq_ok.mp firstStep with ⟨_, _, firstSame⟩
    rcases bind_eq_ok.mp secondStep with ⟨_, _, secondSame⟩
    cases firstSame
    cases secondSame
    exact before
  have finds : ∀ slot, (RangeTree.ofRanges graph.alphabet.low graph.alphabet.high ranges).find
      graph.alphabet key = some slot ↔ ∃ range ∈ ranges, range.Holds graph.alphabet key slot :=
    fun _ => RangeTree.find_ofRanges_iff upright ascending above below
  cases found : (RangeTree.ofRanges graph.alphabet.low graph.alphabet.high ranges).find
      graph.alphabet key with
  | some slot =>
      rcases (finds slot).mp found with ⟨range, member, contains, rfl⟩
      rcases mem_of_mapM made member with ⟨source, inside, step⟩
      rcases bind_eq_ok.mp step with ⟨slot, isSlot, built⟩
      cases built
      have located := (State.locateRange_iff ordered).mpr
        ⟨source, by simpa using inside, contains, rfl⟩
      rw [located]
      exact .some (getElem?_of_slotOf isSlot)
  | none =>
      cases located : state.locateRange graph.alphabet key with
      | none => exact .none
      | some other =>
          rcases (State.locateRange_iff ordered).mp located with ⟨source, inside, contains, _⟩
          rcases exists_of_mapM made (by simpa using inside) with ⟨result, member, step⟩
          rcases bind_eq_ok.mp step with ⟨_, _, built⟩
          cases built
          cases found.symm.trans ((finds _).mpr ⟨_, member, contains, rfl⟩)

end Switch

theorem rel_fallback {fallback slot : Option Nat} (made : slotOf? slots fallback = .ok slot) :
    Option.Rel (Slotted slots) slot fallback := by
  cases fallback with
  | none =>
      cases made
      exact .none
  | some transition =>
      rcases map_eq_ok.mp made with ⟨found, isSlot, same⟩
      rw [← same]
      exact .some (getElem?_of_slotOf isSlot)

theorem lookup_switchState {state : State} {cases : SwitchState}
    (made : graph.switchState slots state = .ok cases) (ordered : state.Ordered graph.alphabet)
    {key : Key} (contained : graph.alphabet.contains key = true) {transition : Nat}
    (found : state.locate graph.alphabet key = some transition) :
    ∃ slot, cases.lookup graph.alphabet key = some slot ∧ slots[slot]? = some transition := by
  rcases switchState_eq_ok made with ⟨ranges, singlesMade, rangesMade, tree, fallbackMade⟩
  have alike : Option.Rel (Slotted slots) (cases.lookup graph.alphabet key)
      (state.locate graph.alphabet key) := by
    unfold SwitchState.lookup
    rw [tree]
    exact rel_or (rel_singles ordered singlesMade)
      (rel_or (rel_ranges ordered rangesMade contained) (rel_fallback fallbackMade))
  rw [found] at alike
  generalize cases.lookup graph.alphabet key = result at alike
  cases alike with
  | some isSlot => exact ⟨_, rfl, isSlot⟩

end Graph

end StateTables
