import Mathlib.Algebra.GroupWithZero.Nat
import StateTables.Proofs.ProperDrafts
import StateTables.Proofs.Wiring

/-! # Counting the keys of a state

Whether intervals contain all keys of an alphabet is found out in two ways: by going from one
interval to the next, and by counting keys. Both agree as long as the alphabet has fewer than 2^64
keys. If it has all of them, their number is not to be had in 64 bits: a single interval is taken to
have one key less, and so has the alphabet, but several intervals are counted exactly and add up to
zero.
-/

namespace StateTables

def Alphabet.keyCount (alphabet : Alphabet) : Int :=
  alphabet.value alphabet.high - alphabet.value alphabet.low + 1

namespace Claim

variable {alphabet : Alphabet} {claims : List Claim}

def keyCount (alphabet : Alphabet) (claim : Claim) : Int :=
  alphabet.value claim.high - alphabet.value claim.low + 1

def total (alphabet : Alphabet) : List Claim → Int
  | [] => 0
  | claim :: rest => claim.keyCount alphabet + total alphabet rest

@[simp]
theorem total_nil (alphabet : Alphabet) : total alphabet [] = 0 :=
  rfl

@[simp]
theorem total_cons (claim : Claim) (rest : List Claim) :
    total alphabet (claim :: rest) = claim.keyCount alphabet + total alphabet rest :=
  rfl

namespace Apart

theorem keyCount_pos (apart : Apart alphabet claims) {claim : Claim} (member : claim ∈ claims) :
    0 < claim.keyCount alphabet := by
  have upright := apart.upright claim member
  unfold Claim.keyCount
  omega

theorem total_nonneg (apart : Apart alphabet claims) : 0 ≤ total alphabet claims := by
  induction claims with
  | nil => exact Int.le_refl _
  | cons claim rest induction =>
      have first := apart.keyCount_pos (List.mem_cons_self (a := claim))
      have others := induction apart.tail
      rw [total_cons]
      omega

theorem keyCount_le_total (apart : Apart alphabet claims) {claim : Claim}
    (member : claim ∈ claims) : claim.keyCount alphabet ≤ total alphabet claims := by
  induction claims with
  | nil => cases member
  | cons first rest induction =>
      have positive := apart.keyCount_pos (List.mem_cons_self (a := first))
      have others := apart.tail.total_nonneg
      rw [total_cons]
      rcases List.mem_cons.mp member with rfl | later
      · omega
      · have less := induction apart.tail later
        omega

theorem keyCount_lt_total (apart : Apart alphabet claims) (several : 1 < claims.length)
    {claim : Claim} (member : claim ∈ claims) :
    claim.keyCount alphabet < total alphabet claims := by
  match claims with
  | first :: second :: rest =>
      have positive := apart.keyCount_pos (List.mem_cons_self (a := first))
      have others := apart.tail.keyCount_pos (List.mem_cons_self (a := second))
      have sum := apart.tail.keyCount_le_total (List.mem_cons_self (a := second))
      rw [total_cons]
      rcases List.mem_cons.mp member with rfl | later
      · omega
      · have less := apart.tail.keyCount_le_total later
        omega

theorem total_le (apart : Apart alphabet claims) (start : Int)
    (above : ∀ claim ∈ claims, start ≤ alphabet.value claim.low)
    (within : start ≤ alphabet.value alphabet.high + 1) :
    total alphabet claims ≤ alphabet.value alphabet.high - start + 1 := by
  induction claims generalizing start with
  | nil =>
      rw [total_nil]
      omega
  | cons claim rest induction =>
      have starts := above claim (by simp)
      have inside := apart.inside claim (by simp)
      have ascending := (List.pairwise_cons.mp apart.ascending).1
      have others := induction apart.tail (alphabet.value claim.high + 1)
        (fun other member => ascending other member) (by omega)
      rw [total_cons, Claim.keyCount]
      omega

/-- Intervals leave no gap if and only if they have as many keys as there are. -/
theorem hasGap_eq_false_iff (apart : Apart alphabet claims) {expected : Key}
    (above : ∀ claim ∈ claims, alphabet.value expected ≤ alphabet.value claim.low)
    (within : alphabet.value expected ≤ alphabet.value alphabet.high) :
    Draft.hasGap alphabet expected claims = false ↔
      total alphabet claims = alphabet.value alphabet.high - alphabet.value expected + 1 := by
  induction claims generalizing expected with
  | nil =>
      rw [total_nil]
      simp only [Draft.hasGap, Bool.true_eq_false, false_iff]
      omega
  | cons claim rest induction =>
      have inside := apart.inside claim (by simp)
      have upright := apart.upright claim (by simp)
      have ascending := (List.pairwise_cons.mp apart.ascending).1
      have others := apart.tail.total_le (alphabet.value claim.high + 1)
        (fun other member => ascending other member) (by omega)
      have nonneg := apart.tail.total_nonneg
      have starts := above claim (by simp)
      rw [total_cons, Claim.keyCount]
      unfold Draft.hasGap
      split
      next late =>
        have late : alphabet.value claim.low ≠ alphabet.value expected :=
          fun same => late (alphabet.value_injective same)
        simp only [Bool.true_eq_false, false_iff]
        omega
      next early =>
        have early : claim.low = expected := by simpa using early
        rw [early]
        split
        next last =>
          rw [last] at others ⊢
          simp only [true_iff]
          omega
        next notLast =>
          have notLast : alphabet.value claim.high ≠ alphabet.value alphabet.high :=
            fun same => notLast (alphabet.value_injective same)
          have next := alphabet.value_successor
            (by omega : alphabet.value claim.high < alphabet.value alphabet.high)
          rw [induction apart.tail (fun other member => by
            have behind := ascending other member
            omega) (by omega), next]
          omega

theorem keyCount_pos_of_gapless (apart : Apart alphabet claims)
    (gapless : Draft.hasGap alphabet alphabet.low claims = false) : 0 < alphabet.keyCount := by
  cases claims with
  | nil => cases gapless
  | cons claim rest =>
      have inside := apart.inside claim (by simp)
      have upright := apart.upright claim (by simp)
      simp only [Alphabet.keyCount]
      omega

theorem total_eq_of_gapless (apart : Apart alphabet claims) (positive : 0 < alphabet.keyCount) :
    Draft.hasGap alphabet alphabet.low claims = false ↔
      total alphabet claims = alphabet.keyCount := by
  unfold Alphabet.keyCount at positive
  exact apart.hasGap_eq_false_iff (fun claim member => (apart.inside claim member).1) (by omega)

end Apart

end Claim

/-! ## Counting in 64 bits -/

theorem Alphabet.keyCount_le (alphabet : Alphabet) : alphabet.keyCount ≤ 2 ^ 64 := by
  unfold keyCount
  by_cases ordered : alphabet.value alphabet.low ≤ alphabet.value alphabet.high
  · have distance := alphabet.toNat_distance ordered
    have bound := (alphabet.low.distance alphabet.high).toNat_lt
    omega
  · omega

structure State.Splits (claims : List Claim) (state : State) : Prop where
  singles : state.singles.toList.map Single.key =
    (claims.filter fun claim => claim.low = claim.high).map Claim.low
  ranges : state.ranges.toList.map (fun range => (range.low, range.high)) =
    (claims.filter fun claim => claim.low ≠ claim.high).map fun claim => (claim.low, claim.high)

namespace Graph

variable {alphabet : Alphabet} {claims : List Claim} {state : State}

def counted (alphabet : Alphabet) : List Claim → Nat
  | [] => 0
  | claim :: rest => (alphabet.span claim.low claim.high).toNat + counted alphabet rest

theorem counted_eq_sum (claims : List Claim) : counted alphabet claims =
    (claims.map fun claim => (alphabet.span claim.low claim.high).toNat).sum := by
  induction claims with
  | nil => rfl
  | cons claim rest induction => rw [counted, List.map_cons, List.sum_cons, induction]

theorem toNat_foldl_span (intervals : List (Key × Key)) (count : UInt64) :
    (intervals.foldl (fun count interval =>
      count + alphabet.span interval.1 interval.2) count).toNat =
      (count.toNat + (intervals.map fun interval =>
        (alphabet.span interval.1 interval.2).toNat).sum) % 2 ^ 64 := by
  induction intervals generalizing count with
  | nil =>
      have bound := count.toNat_lt
      simp only [List.map_nil, List.foldl_nil, List.sum_nil]
      omega
  | cons interval rest induction =>
      rw [List.foldl_cons, induction, UInt64.toNat_add, List.map_cons, List.sum_cons]
      omega

theorem toNat_span_self (key : Key) : (alphabet.span key key).toNat = 1 := by
  have exact := alphabet.toNat_span (Int.le_refl (alphabet.value key))
  omega

theorem counted_eq (claims : List Claim) : counted alphabet claims =
    (claims.filter fun claim => claim.low = claim.high).length +
      counted alphabet (claims.filter fun claim => claim.low ≠ claim.high) := by
  induction claims with
  | nil => rfl
  | cons claim rest induction =>
      by_cases single : claim.low = claim.high
      · rw [counted, single, toNat_span_self, induction]
        simp [single]
        omega
      · rw [counted, induction]
        simp [single, counted]
        omega

theorem coveredKeys_eq_foldl (state : State) : coveredKeys alphabet state =
    (state.ranges.toList.map fun range => (range.low, range.high)).foldl
      (fun count interval => count + alphabet.span interval.1 interval.2)
      (UInt64.ofNat state.singles.size) := by
  rw [List.foldl_map, Array.foldl_toList]
  rfl

theorem toNat_coveredKeys (splits : state.Splits claims) :
    (coveredKeys alphabet state).toNat = counted alphabet claims % 2 ^ 64 := by
  have singles : state.singles.size =
      (claims.filter fun claim => claim.low = claim.high).length := by
    simpa using congrArg List.length splits.singles
  rw [coveredKeys_eq_foldl, splits.ranges, toNat_foldl_span, List.map_map, counted_eq claims,
    singles, UInt64.toNat_ofNat', counted_eq_sum]
  simp only [Function.comp_def]
  omega

theorem counted_eq_total (apart : Claim.Apart alphabet claims)
    (small : ∀ claim ∈ claims, claim.keyCount alphabet < 2 ^ 64) :
    (counted alphabet claims : Int) = Claim.total alphabet claims := by
  induction claims with
  | nil => rfl
  | cons claim rest induction =>
      have others := induction apart.tail fun other member => small other (by simp [member])
      have counts := alphabet.toNat_span (apart.upright claim (by simp))
      have fits := small claim (by simp)
      unfold Claim.keyCount at fits
      rw [counted, Claim.total_cons, Claim.keyCount]
      omega

theorem toNat_span_keyCount (positive : 0 < alphabet.keyCount) :
    ((alphabet.span alphabet.low alphabet.high).toNat : Int) =
      min alphabet.keyCount (2 ^ 64 - 1) := by
  unfold Alphabet.keyCount at positive
  exact alphabet.toNat_span (by omega)

theorem total_le_keyCount (apart : Claim.Apart alphabet claims) (positive : 0 < alphabet.keyCount) :
    Claim.total alphabet claims ≤ alphabet.keyCount := by
  unfold Alphabet.keyCount at positive
  exact apart.total_le _ (fun claim member => (apart.inside claim member).1) (by omega)

/-- In an alphabet of fewer than 2^64 keys, counting tells whether there is a gap. -/
theorem coveredKeys_eq_span_iff (splits : state.Splits claims)
    (apart : Claim.Apart alphabet claims) (positive : 0 < alphabet.keyCount)
    (few : alphabet.keyCount < 2 ^ 64) :
    coveredKeys alphabet state = alphabet.span alphabet.low alphabet.high ↔
      Draft.hasGap alphabet alphabet.low claims = false := by
  have bound := total_le_keyCount apart positive
  have exact := counted_eq_total apart fun claim member => by
    have less := apart.keyCount_le_total member
    omega
  have all := toNat_span_keyCount positive
  rw [apart.total_eq_of_gapless positive, ← UInt64.toNat_inj, toNat_coveredKeys splits]
  omega

/-- Two intervals or more that have all 2^64 keys add up to zero. -/
theorem coveredKeys_eq_span_iff_of_full (splits : state.Splits claims)
    (apart : Claim.Apart alphabet claims) (full : alphabet.keyCount = 2 ^ 64)
    (gapless : Draft.hasGap alphabet alphabet.low claims = false) :
    coveredKeys alphabet state = alphabet.span alphabet.low alphabet.high ↔ claims.length ≤ 1 := by
  have positive : 0 < alphabet.keyCount := by omega
  have total := (apart.total_eq_of_gapless positive).mp gapless
  have all := toNat_span_keyCount positive
  rw [← UInt64.toNat_inj, toNat_coveredKeys splits]
  by_cases several : 1 < claims.length
  · have exact := counted_eq_total apart fun claim member => by
      have less := apart.keyCount_lt_total several member
      omega
    omega
  · match claims with
    | [] => cases gapless
    | [claim] =>
        have counts := alphabet.toNat_span (apart.upright claim (by simp))
        rw [Claim.total_cons, Claim.total_nil, Claim.keyCount] at total
        rw [counted, counted]
        omega
    | first :: second :: rest => simp at several

theorem coveredKeys_eq_span_iff_of_gapless (splits : state.Splits claims)
    (apart : Claim.Apart alphabet claims)
    (gapless : Draft.hasGap alphabet alphabet.low claims = false) :
    coveredKeys alphabet state = alphabet.span alphabet.low alphabet.high ↔
      alphabet.keyCount < 2 ^ 64 ∨ claims.length ≤ 1 := by
  by_cases few : alphabet.keyCount < 2 ^ 64
  · have positive := apart.keyCount_pos_of_gapless gapless
    simp only [coveredKeys_eq_span_iff splits apart positive few, gapless, few, true_or]
  · have full : alphabet.keyCount = 2 ^ 64 :=
      Int.le_antisymm alphabet.keyCount_le (Int.not_lt.mp few)
    simp only [coveredKeys_eq_span_iff_of_full splits apart full gapless, few, false_or]

end Graph

end StateTables
