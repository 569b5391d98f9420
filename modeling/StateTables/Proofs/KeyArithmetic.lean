import Mathlib.Data.Int.Interval
import Mathlib.Data.Set.Card
import StateTables.Proofs.KeyOrder

/-! # Key arithmetic is integer arithmetic

Keys are compared, counted and stepped through as patterns of 64 bits. Differences of patterns wrap,
and are read without a sign. All results are those of integer arithmetic on the numbers that keys
stand for, up to the one number that does not fit: that of all keys there are.
-/

namespace StateTables

namespace Alphabet

variable (alphabet : Alphabet)

/-- The sign that stands for an order: that of the difference of two keys in that order. -/
def sign : Ordering → Int
  | .lt => -1
  | .eq => 0
  | .gt => 1

theorem sign_compare (first second : Key) :
    sign (alphabet.compare first second) =
      (alphabet.value first - alphabet.value second).sign := by
  cases order : alphabet.compare first second with
  | lt =>
      have below := (alphabet.compare_eq_lt_iff first second).mp order
      exact (Int.sign_eq_neg_one_of_neg (by omega)).symm
  | eq =>
      have same := (alphabet.compare_eq_eq_iff first second).mp order
      rw [same, Int.sub_self, Int.sign_zero]
      rfl
  | gt =>
      have above := (alphabet.compare_eq_gt_iff first second).mp order
      exact (Int.sign_eq_one_of_pos (by omega)).symm

/-! ## Steps within an alphabet -/

theorem value_successor_of_contains {key : Key} (contained : alphabet.contains key = true)
    (notLast : key ≠ alphabet.high) :
    alphabet.value key.successor = alphabet.value key + 1 := by
  have below := ((alphabet.contains_iff key).mp contained).2
  have different := mt alphabet.value_injective notLast
  exact alphabet.value_successor (by omega : alphabet.value key < alphabet.value alphabet.high)

theorem value_predecessor_of_contains {key : Key} (contained : alphabet.contains key = true)
    (notFirst : key ≠ alphabet.low) :
    alphabet.value key.predecessor = alphabet.value key - 1 := by
  have above := ((alphabet.contains_iff key).mp contained).1
  have different := mt alphabet.value_injective notFirst
  exact alphabet.value_predecessor (by omega : alphabet.value alphabet.low < alphabet.value key)

/-! ## Numbers of keys -/

/-- The numbers of all keys lie in a window of 2^64 numbers. -/
theorem exists_window : ∃ least : Int, ∀ key,
    least ≤ alphabet.value key ∧ alphabet.value key < least + 2 ^ 64 := by
  cases sign : alphabet.host.signed with
  | true =>
      refine ⟨-2 ^ 63, fun key => ?_⟩
      have bound := key.pattern.toUInt64.toNat_lt
      have reading := alphabet.value_of_signed sign key
      omega
  | false =>
      refine ⟨0, fun key => ?_⟩
      have bound := key.pattern.toUInt64.toNat_lt
      rw [alphabet.value_of_unsigned sign key]
      omega

/-- Keys stand for all numbers between those of two keys, and for each of them only once. -/
theorem encard_between (low high : Key) :
    {key | alphabet.value low ≤ alphabet.value key ∧
      alphabet.value key ≤ alphabet.value high}.encard =
        (alphabet.value high - alphabet.value low + 1).toNat := by
  have injective : Function.Injective alphabet.value := fun _ _ => alphabet.value_injective
  have image : alphabet.value '' {key | alphabet.value low ≤ alphabet.value key ∧
      alphabet.value key ≤ alphabet.value high} =
        Finset.Icc (alphabet.value low) (alphabet.value high) := by
    ext number
    rw [Finset.mem_coe, Finset.mem_Icc]
    constructor
    · intro isValue
      rcases isValue with ⟨key, between, rfl⟩
      exact between
    · intro between
      rcases alphabet.exists_key_of_value between.1 between.2 with ⟨key, rfl⟩
      exact ⟨key, between, rfl⟩
  rw [← injective.encard_image, image, Set.encard_coe_eq_coe_finsetCard, Int.card_Icc]
  congr 2
  omega

theorem encard_contained_between {low high : Key} (lowContained : alphabet.contains low = true)
    (highContained : alphabet.contains high = true)
    (notAll : ¬∀ key, alphabet.value low ≤ alphabet.value key ∧
      alphabet.value key ≤ alphabet.value high) :
    {key | alphabet.contains key = true ∧ alphabet.value low ≤ alphabet.value key ∧
      alphabet.value key ≤ alphabet.value high}.encard = (alphabet.span low high).toNat := by
  rw [contains_iff] at lowContained highContained
  have inside : {key | alphabet.contains key = true ∧ alphabet.value low ≤ alphabet.value key ∧
      alphabet.value key ≤ alphabet.value high} =
        {key | alphabet.value low ≤ alphabet.value key ∧
          alphabet.value key ≤ alphabet.value high} := by
    ext key
    simp only [Set.mem_ofPred_eq, contains_iff]
    omega
  have few : alphabet.value high - alphabet.value low + 1 < 2 ^ 64 := by
    rcases alphabet.exists_window with ⟨least, window⟩
    by_contra many
    refine notAll fun key => ?_
    have own := window key
    have lowest := window low
    have highest := window high
    omega
  have span := alphabet.toNat_span_eq_ite low high
  rw [inside, encard_between]
  congr 1
  split at span <;> omega

/-! ## All operations -/

/-- For all types and any two keys: the comparisons tell the sign of the difference of the numbers
they stand for; the span is the number of numbers from the first to the second one, cut down to
2^64 - 1, and none if these are in the wrong order; the distance of keys in order is the difference
of their numbers. A key of the alphabet other than its last one has the next number's key as its
successor, and the same holds for predecessors. The keys of an alphabet between two of its keys are
as many as the span says, unless they are all there are. -/
theorem key_arithmetic_is_integer_arithmetic (first second : Key) :
    sign (alphabet.compare first second) =
      (alphabet.value first - alphabet.value second).sign ∧
    ((alphabet.below first second = true ↔ alphabet.value first < alphabet.value second) ∧
      (alphabet.atMost first second = true ↔ alphabet.value first ≤ alphabet.value second) ∧
      (alphabet.above first second = true ↔ alphabet.value second < alphabet.value first) ∧
      (alphabet.atLeast first second = true ↔ alphabet.value second ≤ alphabet.value first) ∧
      ((first == second) = true ↔ alphabet.value first = alphabet.value second)) ∧
    ((alphabet.span first second).toNat : Int) =
      (if alphabet.value second < alphabet.value first then 0
      else min (alphabet.value second - alphabet.value first + 1) (2 ^ 64 - 1)) ∧
    (alphabet.value first ≤ alphabet.value second →
      ((first.distance second).toNat : Int) = alphabet.value second - alphabet.value first) ∧
    (alphabet.contains first = true →
      (first ≠ alphabet.high → alphabet.value first.successor = alphabet.value first + 1) ∧
      (first ≠ alphabet.low → alphabet.value first.predecessor = alphabet.value first - 1)) ∧
    (alphabet.contains first = true → alphabet.contains second = true →
      (¬∀ key, alphabet.value first ≤ alphabet.value key ∧
        alphabet.value key ≤ alphabet.value second) →
      {key | alphabet.contains key = true ∧ alphabet.value first ≤ alphabet.value key ∧
        alphabet.value key ≤ alphabet.value second}.encard =
          (alphabet.span first second).toNat) := by
  refine ⟨alphabet.sign_compare first second, ⟨alphabet.below_iff first second,
    alphabet.atMost_iff first second, alphabet.above_iff first second,
    alphabet.atLeast_iff first second, ?_⟩, alphabet.toNat_span_eq_ite first second,
    alphabet.toNat_distance, fun contained => ⟨?_, ?_⟩, alphabet.encard_contained_between⟩
  · rw [beq_iff_eq, value_inj]
  · exact alphabet.value_successor_of_contains contained
  · exact alphabet.value_predecessor_of_contains contained

/-- All signed keys of 64 bits but the last one: their number just fits. -/
theorem key_arithmetic_is_integer_arithmetic_sample :
    let keys := full ⟨true, .eight⟩
    let low := Key.ofInt (-2 ^ 63)
    let high := Key.ofInt (2 ^ 63 - 2)
    sign (keys.compare low high) = -1 ∧ ((low.distance high).toNat : Int) = 2 ^ 64 - 2 ∧
    keys.value high.successor = 2 ^ 63 - 1 ∧ keys.value high.predecessor = 2 ^ 63 - 3 ∧
    {key | keys.contains key = true ∧ keys.value low ≤ keys.value key ∧
      keys.value key ≤ keys.value high}.encard = (keys.span low high).toNat ∧
    (keys.span low high).toNat = 2 ^ 64 - 1 := by
  intro keys low high
  rcases keys.key_arithmetic_is_integer_arithmetic low high with
    ⟨order, _, span, distance, _, count⟩
  rcases keys.key_arithmetic_is_integer_arithmetic high low with ⟨_, _, _, _, steps, _⟩
  have lowValue : keys.value low = -2 ^ 63 := by decide
  have highValue : keys.value high = 2 ^ 63 - 2 := by decide
  have lastValue : keys.value keys.high = 2 ^ 63 - 1 := by decide
  have contained : keys.contains high = true := by decide
  rcases steps contained with ⟨next, previous⟩
  rw [lowValue, highValue] at order span distance
  refine ⟨order, ?_, ?_, ?_, count (by decide) contained fun all => ?_, ?_⟩
  · exact distance (by decide)
  · exact (next (by decide)).trans (by rw [highValue]; rfl)
  · exact (previous (by decide)).trans (by rw [highValue]; rfl)
  · have last := (all keys.high).2
    rw [lastValue, highValue] at last
    exact absurd last (by decide)
  · rw [if_neg (by decide)] at span
    omega

end Alphabet

end StateTables
