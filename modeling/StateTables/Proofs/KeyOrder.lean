import Mathlib.Algebra.Group.Int.Defs
import Mathlib.Algebra.Group.Nat.Defs
import StateTables.Encoding.KeyClass

/-! # The order of keys

An alphabet compares keys by the numbers they stand for. Keys stand for different
numbers, and neighbours for neighbouring numbers as long as there is a key on the
far side. With that, everything said about patterns of 64 bits becomes a statement
about integers.
-/

namespace StateTables

theorem toInt_eq_unsigned (pattern : Int64) :
    pattern.toInt = if pattern.toUInt64.toNat < 2 ^ 63 then (pattern.toUInt64.toNat : Int)
      else pattern.toUInt64.toNat - 2 ^ 64 := by
  have reading := BitVec.toInt_eq_toNat_cond pattern.toBitVec
  rw [Int64.toInt_toBitVec, Int64.toNat_toBitVec] at reading
  rw [reading]
  split <;> split <;> omega

theorem eq_of_toNat_eq {left right : Int64}
    (equal : left.toUInt64.toNat = right.toUInt64.toNat) : left = right := by
  have patterns : left.toUInt64 = right.toUInt64 := UInt64.toNat_inj.mp equal
  rw [← Int64.toInt64_toUInt64 left, patterns, Int64.toInt64_toUInt64]

namespace Alphabet

variable (alphabet : Alphabet)

theorem value_of_signed (signed : alphabet.host.signed = true) (key : Key) :
    (alphabet.value key = key.pattern.toUInt64.toNat ∧ key.pattern.toUInt64.toNat < 2 ^ 63) ∨
    (alphabet.value key = key.pattern.toUInt64.toNat - 2 ^ 64 ∧
      2 ^ 63 ≤ key.pattern.toUInt64.toNat) := by
  unfold value IntegerType.value
  rw [if_pos signed, toInt_eq_unsigned]
  by_cases small : key.pattern.toUInt64.toNat < 2 ^ 63
  · exact .inl ⟨if_pos small, small⟩
  · exact .inr ⟨if_neg small, by omega⟩

theorem value_of_unsigned (unsigned : alphabet.host.signed = false) (key : Key) :
    alphabet.value key = key.pattern.toUInt64.toNat := by
  unfold value IntegerType.value
  rw [if_neg (by simp [unsigned])]

theorem value_injective {left right : Key}
    (equal : alphabet.value left = alphabet.value right) : left = right := by
  have leftBound := left.pattern.toUInt64.toNat_lt
  have rightBound := right.pattern.toUInt64.toNat_lt
  have patterns : left.pattern = right.pattern := by
    apply eq_of_toNat_eq
    cases sign : alphabet.host.signed with
    | false =>
        rw [alphabet.value_of_unsigned sign, alphabet.value_of_unsigned sign] at equal
        omega
    | true =>
        have leftValue := alphabet.value_of_signed sign left
        have rightValue := alphabet.value_of_signed sign right
        omega
  cases left
  cases right
  exact congrArg Key.mk patterns

theorem value_inj {left right : Key} :
    alphabet.value left = alphabet.value right ↔ left = right :=
  ⟨alphabet.value_injective, congrArg alphabet.value⟩

/-! ## Comparisons -/

theorem compare_eq_compare_value (left right : Key) :
    alphabet.compare left right = Ord.compare (alphabet.value left) (alphabet.value right) := by
  unfold compare value IntegerType.value
  cases alphabet.host.signed with
  | true =>
      change compareOfLessAndEq _ _ = compareOfLessAndEq _ _
      simp only [compareOfLessAndEq, Int64.lt_iff_toInt_lt, Int64.toInt_inj, if_true]
  | false =>
      change compareOfLessAndEq _ _ = compareOfLessAndEq _ _
      simp only [compareOfLessAndEq, UInt64.lt_iff_toNat_lt, ← UInt64.toNat_inj,
        Bool.false_eq_true, if_false, Int.ofNat_lt, Int.ofNat_inj]

@[simp] theorem compare_eq_lt_iff (left right : Key) :
    alphabet.compare left right = .lt ↔ alphabet.value left < alphabet.value right := by
  rw [compare_eq_compare_value, Int.compare_eq_lt]

@[simp] theorem compare_eq_gt_iff (left right : Key) :
    alphabet.compare left right = .gt ↔ alphabet.value right < alphabet.value left := by
  rw [compare_eq_compare_value, Int.compare_eq_gt]

@[simp] theorem compare_eq_eq_iff (left right : Key) :
    alphabet.compare left right = .eq ↔ left = right := by
  rw [compare_eq_compare_value, Int.compare_eq_eq, value_inj]

@[simp] theorem below_iff (left right : Key) :
    alphabet.below left right = true ↔ alphabet.value left < alphabet.value right := by
  simp [below]

@[simp] theorem above_iff (left right : Key) :
    alphabet.above left right = true ↔ alphabet.value right < alphabet.value left := by
  simp [above]

@[simp] theorem atMost_iff (left right : Key) :
    alphabet.atMost left right = true ↔ alphabet.value left ≤ alphabet.value right := by
  rw [atMost, Bool.not_eq_true', ← Bool.not_eq_true, above_iff, Int.not_lt]

@[simp] theorem atLeast_iff (left right : Key) :
    alphabet.atLeast left right = true ↔ alphabet.value right ≤ alphabet.value left := by
  rw [atLeast, Bool.not_eq_true', ← Bool.not_eq_true, below_iff, Int.not_lt]

@[simp] theorem contains_iff (key : Key) :
    alphabet.contains key = true ↔
      alphabet.value alphabet.low ≤ alphabet.value key ∧
        alphabet.value key ≤ alphabet.value alphabet.high := by
  simp [contains]

/-! ## Neighbours and distances -/

theorem value_successor {key bound : Key}
    (notLast : alphabet.value key < alphabet.value bound) :
    alphabet.value key.successor = alphabet.value key + 1 := by
  have pattern : key.successor.pattern.toUInt64.toNat =
      (key.pattern.toUInt64.toNat + 1) % 2 ^ 64 := by
    rw [Key.successor, Int64.toUInt64_add, UInt64.toNat_add]
    rfl
  have keyBound := key.pattern.toUInt64.toNat_lt
  have boundBound := bound.pattern.toUInt64.toNat_lt
  cases sign : alphabet.host.signed with
  | false =>
      rw [alphabet.value_of_unsigned sign, alphabet.value_of_unsigned sign] at *
      omega
  | true =>
      have keyValue := alphabet.value_of_signed sign key
      have boundValue := alphabet.value_of_signed sign bound
      have nextValue := alphabet.value_of_signed sign key.successor
      omega

theorem value_predecessor {key bound : Key}
    (notFirst : alphabet.value bound < alphabet.value key) :
    alphabet.value key.predecessor = alphabet.value key - 1 := by
  have pattern : key.predecessor.pattern.toUInt64.toNat =
      (2 ^ 64 - 1 + key.pattern.toUInt64.toNat) % 2 ^ 64 := by
    rw [Key.predecessor, Int64.toUInt64_sub, UInt64.toNat_sub]
    rfl
  have keyBound := key.pattern.toUInt64.toNat_lt
  have boundBound := bound.pattern.toUInt64.toNat_lt
  cases sign : alphabet.host.signed with
  | false =>
      rw [alphabet.value_of_unsigned sign, alphabet.value_of_unsigned sign] at *
      omega
  | true =>
      have keyValue := alphabet.value_of_signed sign key
      have boundValue := alphabet.value_of_signed sign bound
      have nextValue := alphabet.value_of_signed sign key.predecessor
      omega

theorem exists_key_of_value {low high : Key} {number : Int}
    (above : alphabet.value low ≤ number) (below : number ≤ alphabet.value high) :
    ∃ key, alphabet.value key = number := by
  have steps : ∀ distance : Nat, alphabet.value low + distance ≤ alphabet.value high →
      ∃ key, alphabet.value key = alphabet.value low + distance := by
    intro distance
    induction distance with
    | zero => exact fun _ => ⟨low, by simp⟩
    | succ distance induction =>
        intro within
        rcases induction (by omega) with ⟨key, same⟩
        refine ⟨key.successor, ?_⟩
        rw [alphabet.value_successor (by omega : alphabet.value key < alphabet.value high)]
        omega
  rcases steps (number - alphabet.value low).toNat (by omega) with ⟨key, same⟩
  exact ⟨key, by omega⟩

theorem toNat_distance {low key : Key}
    (ordered : alphabet.value low ≤ alphabet.value key) :
    ((low.distance key).toNat : Int) = alphabet.value key - alphabet.value low := by
  have pattern : (low.distance key).toNat =
      (2 ^ 64 - low.pattern.toUInt64.toNat + key.pattern.toUInt64.toNat) % 2 ^ 64 := by
    rw [Key.distance, UInt64.toNat_sub]
  have lowBound := low.pattern.toUInt64.toNat_lt
  have keyBound := key.pattern.toUInt64.toNat_lt
  cases sign : alphabet.host.signed with
  | false =>
      rw [alphabet.value_of_unsigned sign, alphabet.value_of_unsigned sign] at *
      omega
  | true =>
      have lowValue := alphabet.value_of_signed sign low
      have keyValue := alphabet.value_of_signed sign key
      omega

/-- A key is as far above the low key as its distance says. -/
theorem eq_add_distance (low key : Key) :
    key = ⟨low.pattern + Int64.ofNat (low.distance key).toNat⟩ := by
  have patterns : key.pattern = low.pattern + Int64.ofNat (low.distance key).toNat := by
    apply eq_of_toNat_eq
    have keyBound := key.pattern.toUInt64.toNat_lt
    have lowBound := low.pattern.toUInt64.toNat_lt
    rw [Int64.toUInt64_add, Int64.toUInt64_ofNat', UInt64.toNat_add, UInt64.ofNat_toNat,
      Key.distance, UInt64.toNat_sub]
    omega
  cases key
  exact congrArg Key.mk patterns

theorem toNat_span {low high : Key}
    (ordered : alphabet.value low ≤ alphabet.value high) :
    ((alphabet.span low high).toNat : Int) =
      min (alphabet.value high - alphabet.value low + 1) (2 ^ 64 - 1) := by
  have notBelow : ¬alphabet.below high low = true := by
    simpa using ordered
  have exactDistance := alphabet.toNat_distance ordered
  have bound := (low.distance high).toNat_lt
  simp only [span, if_neg notBelow]
  split
  next saturated =>
    rw [saturated] at exactDistance ⊢
    simp at exactDistance ⊢
    omega
  next room =>
    have room : (low.distance high).toNat ≠ 2 ^ 64 - 1 := fun equal =>
      room (UInt64.toNat_inj.mp (by simpa using equal))
    rw [UInt64.toNat_add, UInt64.toNat_one]
    omega

/-- The span of any two keys: there are no keys from one up to a lower one. -/
theorem toNat_span_eq_ite (low high : Key) :
    ((alphabet.span low high).toNat : Int) =
      if alphabet.value high < alphabet.value low then 0
      else min (alphabet.value high - alphabet.value low + 1) (2 ^ 64 - 1) := by
  split
  next inverted =>
    rw [span, if_pos ((alphabet.below_iff high low).mpr inverted)]
    rfl
  next ordered => exact alphabet.toNat_span (Int.not_lt.mp ordered)

end Alphabet

end StateTables
