import Mathlib.Data.Nat.Log
import StateTables.Proofs.ComparisonLookup

/-! # Comparisons that are left out

The keys that get to a node of a comparison tree are those between two bounds, which every turn
narrows to the keys on that side of the range just passed. A bound of the node's own range is
checked if and only if no subtree takes the keys beyond it and such a key can get there.
-/

namespace StateTables

/-- Ascending ranges between two keys, no two of which have a key in common. -/
structure SlotRange.Separate (alphabet : Alphabet) (low high : Key) (ranges : List SlotRange) :
    Prop where
  upright : ∀ range ∈ ranges, alphabet.value range.low ≤ alphabet.value range.high
  ascending : ranges.Pairwise fun first second =>
    alphabet.value first.high < alphabet.value second.low
  within : ∀ range ∈ ranges, alphabet.value low ≤ alphabet.value range.low ∧
    alphabet.value range.high ≤ alphabet.value high

namespace RangeTree

variable {alphabet : Alphabet} {key low high : Key}

/-! ## Nodes and walks -/

def nodes : RangeTree → List RangeTree
  | .miss => []
  | .node range checkLow checkHigh lower higher =>
    .node range checkLow checkHigh lower higher :: (lower.nodes ++ higher.nodes)

/-- The nodes that the search for a key gets to. -/
def walk (alphabet : Alphabet) (key : Key) : RangeTree → List RangeTree
  | .miss => []
  | .node range checkLow checkHigh lower higher =>
    .node range checkLow checkHigh lower higher ::
      if !lower.isMiss && alphabet.below key range.low then lower.walk alphabet key
      else if !higher.isMiss && alphabet.above key range.high then higher.walk alphabet key
      else []

theorem isMiss_iff {tree : RangeTree} : tree.isMiss = true ↔ tree = .miss := by
  cases tree <;> simp [isMiss]

/-- The search ends the way it goes on from any node it gets to. -/
theorem find_eq_of_mem_walk {tree subtree : RangeTree}
    (reached : subtree ∈ tree.walk alphabet key) :
    tree.find alphabet key = subtree.find alphabet key := by
  induction tree with
  | miss => cases reached
  | node range checkLow checkHigh lower higher lowerSearch higherSearch =>
      rcases List.mem_cons.mp reached with rfl | further
      · rfl
      rw [find]
      split at further
      next turnsLow =>
        rw [if_pos turnsLow]
        exact lowerSearch further
      next straight =>
        rw [if_neg straight]
        split at further
        next turnsHigh =>
          rw [if_pos turnsHigh]
          exact higherSearch further
        next => cases further

theorem mem_nodes_of_mem_walk {tree subtree : RangeTree}
    (reached : subtree ∈ tree.walk alphabet key) : subtree ∈ tree.nodes := by
  induction tree with
  | miss => cases reached
  | node range checkLow checkHigh lower higher lowerNodes higherNodes =>
      rcases List.mem_cons.mp reached with rfl | further
      · exact List.mem_cons_self
      apply List.mem_cons_of_mem
      split at further
      next => exact List.mem_append_left _ (lowerNodes further)
      next =>
        split at further
        next => exact List.mem_append_right _ (higherNodes further)
        next => cases further

theorem mem_walk_node_iff {range : SlotRange} {checkLow checkHigh : Bool}
    {lower higher subtree : RangeTree}
    (upright : alphabet.value range.low ≤ alphabet.value range.high) :
    subtree ∈ (node range checkLow checkHigh lower higher).walk alphabet key ↔
      subtree = node range checkLow checkHigh lower higher ∨
      (alphabet.value key < alphabet.value range.low ∧ subtree ∈ lower.walk alphabet key) ∨
      (alphabet.value range.high < alphabet.value key ∧ subtree ∈ higher.walk alphabet key) := by
  rw [walk, List.mem_cons]
  apply or_congr_right
  by_cases tooLow : alphabet.value key < alphabet.value range.low
  · have notHigh : ¬alphabet.value range.high < alphabet.value key := by omega
    cases lower <;> simp [isMiss, walk, tooLow, notHigh]
  · by_cases tooHigh : alphabet.value range.high < alphabet.value key
    · cases higher <;> simp [isMiss, walk, tooLow, tooHigh]
    · simp [tooLow, tooHigh]

theorem range_mem_of_mem_nodes {ranges : List SlotRange} {range : SlotRange}
    {checkLow checkHigh : Bool} {lower higher : RangeTree}
    (member : node range checkLow checkHigh lower higher ∈ (ofRanges low high ranges).nodes) :
    range ∈ ranges := by
  induction count : ranges.length using Nat.strongRecOn generalizing low high ranges with
  | ind count induction =>
      by_cases inhabited : ranges = []
      · rw [inhabited, ofRanges_nil] at member
        cases member
      rcases exists_middle inhabited with ⟨earlier, middle, later, rfl, half⟩
      rw [List.length_append, List.length_cons] at count
      rw [ofRanges_append half, nodes, List.mem_cons, List.mem_append] at member
      rcases member with here | inLower | inHigher
      · cases here
        simp
      · exact List.mem_append_left _ (induction earlier.length (by omega) inLower rfl)
      · have inLater := induction later.length (by omega) inHigher rfl
        exact List.mem_append_right _ (List.mem_cons_of_mem _ inLater)

end RangeTree

/-! ## Ranges on either side of one of them -/

namespace SlotRange.Separate

variable {alphabet : Alphabet} {low high : Key} {earlier later : List SlotRange}
  {range : SlotRange} (separate : Separate alphabet low high (earlier ++ range :: later))
include separate

theorem middle_upright : alphabet.value range.low ≤ alphabet.value range.high :=
  separate.upright range (by simp)

theorem before_middle {other : SlotRange} (member : other ∈ earlier) :
    alphabet.value other.high < alphabet.value range.low :=
  (List.pairwise_append.mp separate.ascending).2.2 other member range (by simp)

theorem behind_middle {other : SlotRange} (member : other ∈ later) :
    alphabet.value range.high < alphabet.value other.low :=
  List.rel_of_pairwise_cons (List.pairwise_append.mp separate.ascending).2.1 member

theorem lower : Separate alphabet low range.low.predecessor earlier where
  upright other member := separate.upright other (by simp [member])
  ascending := (List.pairwise_append.mp separate.ascending).1
  within other member := by
    have before := separate.before_middle member
    have last := alphabet.value_predecessor before
    exact ⟨(separate.within other (by simp [member])).1, by omega⟩

theorem higher : Separate alphabet range.high.successor high later where
  upright other member := separate.upright other (by simp [member])
  ascending := (List.pairwise_cons.mp (List.pairwise_append.mp separate.ascending).2.1).2
  within other member := by
    have behind := separate.behind_middle member
    have first := alphabet.value_successor behind
    exact ⟨by omega, (separate.within other (by simp [member])).2⟩

end SlotRange.Separate

/-! ## Which keys get to a node -/

namespace RangeTree

/-- Of the keys between `low` and `high` exactly those between `first` and `last` get to the node,
and its checks are those these bounds ask for. -/
structure Reach (alphabet : Alphabet) (tree : RangeTree) (low high : Key) (range : SlotRange)
    (checkLow checkHigh : Bool) (lower higher : RangeTree) (first last : Key) : Prop where
  reached : ∀ key, alphabet.value low ≤ alphabet.value key →
    alphabet.value key ≤ alphabet.value high →
      (node range checkLow checkHigh lower higher ∈ tree.walk alphabet key ↔
        alphabet.value first ≤ alphabet.value key ∧ alphabet.value key ≤ alphabet.value last)
  inside : alphabet.value low ≤ alphabet.value first ∧ alphabet.value last ≤ alphabet.value high
  around : alphabet.value first ≤ alphabet.value range.low ∧
    alphabet.value range.high ≤ alphabet.value last
  checkLow : checkLow = (lower.isMiss && range.low != first)
  checkHigh : checkHigh = (higher.isMiss && range.high != last)

variable {alphabet : Alphabet} {low high : Key}

section Descent

variable {earlier later : List SlotRange} {middle range : SlotRange}
  {checkLow checkHigh topLow topHigh : Bool} {lower higher : RangeTree} {first last : Key}
  (separate : SlotRange.Separate alphabet low high (earlier ++ middle :: later))
include separate

theorem Reach.ofLower (own : range ∈ earlier)
    (reach : Reach alphabet (ofRanges low middle.low.predecessor earlier) low
      middle.low.predecessor range checkLow checkHigh lower higher first last) :
    Reach alphabet (node middle topLow topHigh (ofRanges low middle.low.predecessor earlier)
      (ofRanges middle.high.successor high later)) low high range checkLow checkHigh lower higher
      first last := by
  have upright := separate.middle_upright
  have before := separate.before_middle own
  have border := alphabet.value_predecessor before
  have edge := (separate.within middle (by simp)).2
  have inside := reach.inside
  refine ⟨fun key above below => ?_, ⟨inside.1, by omega⟩, reach.around, reach.checkLow,
    reach.checkHigh⟩
  rw [mem_walk_node_iff upright]
  constructor
  · intro arrives
    rcases arrives with here | ⟨tooLow, further⟩ | ⟨_, further⟩
    · cases here
      omega
    · exact (reach.reached key above (by omega)).mp further
    · have behind := separate.behind_middle
        (range_mem_of_mem_nodes (mem_nodes_of_mem_walk further))
      have order := separate.upright range (by simp [own])
      omega
  · intro between
    exact .inr (.inl ⟨by omega, (reach.reached key above (by omega)).mpr between⟩)

theorem Reach.ofHigher (own : range ∈ later)
    (reach : Reach alphabet (ofRanges middle.high.successor high later) middle.high.successor
      high range checkLow checkHigh lower higher first last) :
    Reach alphabet (node middle topLow topHigh (ofRanges low middle.low.predecessor earlier)
      (ofRanges middle.high.successor high later)) low high range checkLow checkHigh lower higher
      first last := by
  have upright := separate.middle_upright
  have behind := separate.behind_middle own
  have border := alphabet.value_successor behind
  have edge := (separate.within middle (by simp)).1
  have inside := reach.inside
  refine ⟨fun key above below => ?_, ⟨by omega, inside.2⟩, reach.around, reach.checkLow,
    reach.checkHigh⟩
  rw [mem_walk_node_iff upright]
  constructor
  · intro arrives
    rcases arrives with here | ⟨_, further⟩ | ⟨tooHigh, further⟩
    · cases here
      omega
    · have before := separate.before_middle
        (range_mem_of_mem_nodes (mem_nodes_of_mem_walk further))
      have order := separate.upright range (by simp [own])
      omega
    · exact (reach.reached key (by omega) below).mp further
  · intro between
    exact .inr (.inr ⟨by omega, (reach.reached key (by omega) below).mpr between⟩)

end Descent

/-- Each descent narrows the keys that go on to those on one side of the range just passed. -/
theorem exists_reach {ranges : List SlotRange}
    (separate : SlotRange.Separate alphabet low high ranges) {range : SlotRange}
    {checkLow checkHigh : Bool} {lower higher : RangeTree}
    (member : node range checkLow checkHigh lower higher ∈ (ofRanges low high ranges).nodes) :
    ∃ first last, Reach alphabet (ofRanges low high ranges) low high range checkLow checkHigh
      lower higher first last := by
  induction count : ranges.length using Nat.strongRecOn generalizing low high ranges with
  | ind count induction =>
      by_cases inhabited : ranges = []
      · rw [inhabited, ofRanges_nil] at member
        cases member
      rcases exists_middle inhabited with ⟨earlier, middle, later, rfl, half⟩
      rw [List.length_append, List.length_cons] at count
      rw [ofRanges_append half] at member ⊢
      rw [nodes, List.mem_cons, List.mem_append] at member
      rcases member with here | inLower | inHigher
      · -- All keys get to the first node.
        cases here
        refine ⟨low, high, ⟨fun key above below => ?_, ⟨Int.le_refl _, Int.le_refl _⟩,
          separate.within range (by simp), rfl, rfl⟩⟩
        exact ⟨fun _ => ⟨above, below⟩, fun _ => List.mem_cons_self⟩
      · rcases induction earlier.length (by omega) separate.lower inLower rfl with
          ⟨first, last, reach⟩
        exact ⟨first, last, reach.ofLower separate (range_mem_of_mem_nodes inLower)⟩
      · rcases induction later.length (by omega) separate.higher inHigher rfl with
          ⟨first, last, reach⟩
        exact ⟨first, last, reach.ofHigher separate (range_mem_of_mem_nodes inHigher)⟩

section Checks

variable {tree lower higher : RangeTree} {range : SlotRange} {checkLow checkHigh : Bool}
  {first last : Key}
  (reach : Reach alphabet tree low high range checkLow checkHigh lower higher first last)
  (upright : alphabet.value range.low ≤ alphabet.value range.high)
include reach upright

/-- The lowest key that gets to a node is the one that decides about its lower check. -/
theorem Reach.checkLow_iff : checkLow = true ↔ lower = .miss ∧
    ∃ key, (alphabet.value low ≤ alphabet.value key ∧ alphabet.value key ≤ alphabet.value high) ∧
      node range checkLow checkHigh lower higher ∈ tree.walk alphabet key ∧
      alphabet.value key < alphabet.value range.low := by
  have inside := reach.inside
  have around := reach.around
  have checked := reach.checkLow
  constructor
  · intro check
    rw [check, eq_comm, Bool.and_eq_true, isMiss_iff, bne_iff_ne] at checked
    have apart : alphabet.value range.low ≠ alphabet.value first :=
      fun equal => checked.2 (alphabet.value_injective equal)
    have between : alphabet.value low ≤ alphabet.value first ∧
        alphabet.value first ≤ alphabet.value high := by omega
    refine ⟨checked.1, first, between, ?_, by omega⟩
    exact (reach.reached first between.1 between.2).mpr ⟨Int.le_refl _, by omega⟩
  · rintro ⟨missing, key, between, arrives, below⟩
    have lowest := ((reach.reached key between.1 between.2).mp arrives).1
    rw [checked, Bool.and_eq_true, isMiss_iff, bne_iff_ne]
    refine ⟨missing, fun same => ?_⟩
    rw [same] at below
    omega

theorem Reach.checkHigh_iff : checkHigh = true ↔ higher = .miss ∧
    ∃ key, (alphabet.value low ≤ alphabet.value key ∧ alphabet.value key ≤ alphabet.value high) ∧
      node range checkLow checkHigh lower higher ∈ tree.walk alphabet key ∧
      alphabet.value range.high < alphabet.value key := by
  have inside := reach.inside
  have around := reach.around
  have checked := reach.checkHigh
  constructor
  · intro check
    rw [check, eq_comm, Bool.and_eq_true, isMiss_iff, bne_iff_ne] at checked
    have apart : alphabet.value range.high ≠ alphabet.value last :=
      fun equal => checked.2 (alphabet.value_injective equal)
    have between : alphabet.value low ≤ alphabet.value last ∧
        alphabet.value last ≤ alphabet.value high := by omega
    refine ⟨checked.1, last, between, ?_, by omega⟩
    exact (reach.reached last between.1 between.2).mpr ⟨by omega, Int.le_refl _⟩
  · rintro ⟨missing, key, between, arrives, above⟩
    have highest := ((reach.reached key between.1 between.2).mp arrives).2
    rw [checked, Bool.and_eq_true, isMiss_iff, bne_iff_ne]
    refine ⟨missing, fun same => ?_⟩
    rw [same] at above
    omega

end Checks

/-! ## Depth -/

def halvings (count : Nat) : Nat :=
  if count = 0 then 0 else Nat.log 2 count + 1

theorem halvings_mono {fewer more : Nat} (order : fewer ≤ more) :
    halvings fewer ≤ halvings more := by
  have logs := Nat.log_mono_right (b := 2) order
  unfold halvings
  split <;> split <;> omega

theorem halvings_half {count : Nat} (positive : count ≠ 0) :
    halvings count = halvings (count / 2) + 1 := by
  unfold halvings
  rw [if_neg positive]
  by_cases one : count = 1
  · rw [one]
    rfl
  · have large : 2 ≤ count := by omega
    rw [if_neg (by omega), Nat.log_of_one_lt_of_le (by decide) large]

theorem depth_ofRanges (ranges : List SlotRange) :
    (ofRanges low high ranges).depth = halvings ranges.length := by
  induction length : ranges.length using Nat.strongRecOn generalizing low high ranges with
  | ind count induction =>
      by_cases inhabited : ranges = []
      · rw [inhabited, ofRanges_nil, ← length, inhabited]
        rfl
      rcases exists_middle inhabited with ⟨earlier, middle, later, rfl, half⟩
      rw [length] at half
      rw [List.length_append, List.length_cons] at length
      have positive : count ≠ 0 := by omega
      rw [ofRanges_append (by rwa [List.length_append, List.length_cons, length]), depth,
        induction earlier.length (by omega) _ rfl, induction later.length (by omega) _ rfl,
        halvings_half positive]
      -- The later half is the larger one.
      have larger : later.length = count / 2 := by omega
      have smaller : earlier.length ≤ count / 2 := by omega
      have order := halvings_mono smaller
      rw [larger]
      omega

/-! ## The tree of a row of ranges -/

/-- The tree over ascending ranges of an alphabet that share no key finds the range that contains
a key, and misses if there is none. A bound is checked at a node if and only if there is no
subtree on that side and a key of the alphabet beyond the bound gets to the node. The tree is as
deep as ranges can be halved. -/
theorem comparisons_sound_and_exact {ranges : List SlotRange}
    (separate : SlotRange.Separate alphabet alphabet.low alphabet.high ranges)
    (inhabited : ranges ≠ []) :
    (∀ key slot, alphabet.contains key = true →
      ((ofRanges alphabet.low alphabet.high ranges).find alphabet key = some slot ↔
        ∃ range ∈ ranges, range.Holds alphabet key slot)) ∧
    (∀ range checkLow checkHigh lower higher,
      node range checkLow checkHigh lower higher ∈
        (ofRanges alphabet.low alphabet.high ranges).nodes →
      (checkLow = true ↔ lower = .miss ∧ ∃ key, alphabet.contains key = true ∧
        node range checkLow checkHigh lower higher ∈
          (ofRanges alphabet.low alphabet.high ranges).walk alphabet key ∧
        alphabet.value key < alphabet.value range.low) ∧
      (checkHigh = true ↔ higher = .miss ∧ ∃ key, alphabet.contains key = true ∧
        node range checkLow checkHigh lower higher ∈
          (ofRanges alphabet.low alphabet.high ranges).walk alphabet key ∧
        alphabet.value range.high < alphabet.value key)) ∧
    (ofRanges alphabet.low alphabet.high ranges).depth = Nat.log 2 ranges.length + 1 := by
  refine ⟨fun key slot contained => ?_, fun range checkLow checkHigh lower higher member => ?_, ?_⟩
  · rcases (alphabet.contains_iff key).mp contained with ⟨above, below⟩
    exact find_ofRanges_iff separate.upright separate.ascending above below
  · have upright := separate.upright range (range_mem_of_mem_nodes member)
    rcases exists_reach separate member with ⟨first, last, reach⟩
    simp only [alphabet.contains_iff]
    exact ⟨reach.checkLow_iff upright, reach.checkHigh_iff upright⟩
  · rw [depth_ofRanges, halvings, if_neg (by simpa using inhabited)]

end RangeTree

/-! ## Neighbouring ranges -/

namespace Neighbours

def alphabet : Alphabet :=
  .full ⟨false, .eight⟩

def ranges : List SlotRange :=
  [⟨.ofInt 10, .ofInt 19, 4⟩, ⟨.ofInt 20, .ofInt 29, 7⟩, ⟨.ofInt (2 ^ 63), .ofInt (-1), 5⟩]

def tree : RangeTree :=
  .ofRanges alphabet.low alphabet.high ranges

def lowerNode : RangeTree :=
  .node ⟨.ofInt 10, .ofInt 19, 4⟩ true false .miss .miss

theorem separate : SlotRange.Separate alphabet alphabet.low alphabet.high ranges where
  upright := by decide +kernel
  ascending := by decide +kernel
  within := by decide +kernel

theorem lowerNode_mem : lowerNode ∈ tree.nodes := by
  decide +kernel

end Neighbours

/-- No key above 19 gets to the node of the range from 10 to 19, since 20 to 29 is next to it. -/
theorem comparisons_sound_and_exact_sample :
    SlotRange.Separate Neighbours.alphabet Neighbours.alphabet.low Neighbours.alphabet.high
      Neighbours.ranges ∧
    Neighbours.lowerNode ∈ Neighbours.tree.nodes ∧
    (∃ key, Neighbours.alphabet.contains key = true ∧
      Neighbours.lowerNode ∈ Neighbours.tree.walk Neighbours.alphabet key ∧
      Neighbours.alphabet.value key < 10) ∧
    (¬∃ key, Neighbours.alphabet.contains key = true ∧
      Neighbours.lowerNode ∈ Neighbours.tree.walk Neighbours.alphabet key ∧
      19 < Neighbours.alphabet.value key) ∧
    (Neighbours.tree.find Neighbours.alphabet (.ofInt (-1)) = some 5 ↔
      ∃ range ∈ Neighbours.ranges, range.Holds Neighbours.alphabet (.ofInt (-1)) 5) ∧
    Neighbours.tree.depth = Nat.log 2 3 + 1 := by
  rcases RangeTree.comparisons_sound_and_exact Neighbours.separate (by decide) with
    ⟨finds, checks, depth⟩
  rcases checks _ _ _ _ _ Neighbours.lowerNode_mem with ⟨low, high⟩
  refine ⟨Neighbours.separate, Neighbours.lowerNode_mem, (low.mp rfl).2, fun above => ?_,
    finds _ _ (by decide +kernel), depth⟩
  cases high.mpr ⟨rfl, above⟩

end StateTables
