import StateTables.Alphabet.Basic

/-! # Comparison trees

A switch encoding has no key tables. The singles of a state become the cases of
a switch, its ranges a bisection tree of comparisons. Comparisons that no key
reaching a node can fail are left out.
-/

namespace StateTables

/-- An inclusive interval of keys and the slot of its transition. -/
structure SlotRange where
  low : Key
  high : Key
  slot : Nat
deriving DecidableEq, Repr

/-- A bisection tree over ranges. A key below a node's range goes on in the
lower subtree, a key above it in the higher one. Without the subtree the key
misses, which has to be checked only if such a key can reach the node. -/
inductive RangeTree where
  | miss
  | node (range : SlotRange) (checkLow checkHigh : Bool) (lower higher : RangeTree)
deriving DecidableEq, Repr

namespace RangeTree

def isMiss : RangeTree → Bool
  | .miss => true
  | .node .. => false

/-- The balanced tree over ascending ranges. Keys that reach it lie between the
bounds `low` and `high`. -/
def ofRanges (low high : Key) (ranges : List SlotRange) : RangeTree :=
  let middle := (ranges.length - 1) / 2
  match _split : ranges.drop middle with
  | [] => .miss
  | range :: above =>
    let lower := ofRanges low range.low.predecessor (ranges.take middle)
    let higher := ofRanges range.high.successor high above
    .node range (lower.isMiss && range.low != low) (higher.isMiss && range.high != high)
      lower higher
termination_by ranges.length
decreasing_by
  all_goals
    have lengths := congrArg List.length _split
    simp only [List.length_drop, List.length_cons, List.length_take] at lengths ⊢
    omega

/-- The slot of the range that contains a key, found by walking the tree. -/
def find (alphabet : Alphabet) (key : Key) : RangeTree → Option Nat
  | .miss => none
  | .node range checkLow checkHigh lower higher =>
    if !lower.isMiss && alphabet.below key range.low then lower.find alphabet key
    else if !higher.isMiss && alphabet.above key range.high then higher.find alphabet key
    else if checkLow && alphabet.below key range.low then none
    else if checkHigh && alphabet.above key range.high then none
    else some range.slot

def depth : RangeTree → Nat
  | .miss => 0
  | .node _ _ _ lower higher => max lower.depth higher.depth + 1

end RangeTree

structure SwitchCase where
  key : Key
  slot : Nat
deriving DecidableEq, Repr

structure SwitchState where
  singles : List SwitchCase
  ranges : RangeTree
  /-- Absent if singles and ranges cover the alphabet. -/
  fallback : Option Nat
deriving DecidableEq, Repr

/-- The slot for a key: singles first, then ranges, then the fallback. -/
def SwitchState.lookup (alphabet : Alphabet) (state : SwitchState) (key : Key) : Option Nat :=
  ((state.singles.find? fun single => single.key = key).map SwitchCase.slot).or
    ((state.ranges.find alphabet key).or state.fallback)

end StateTables
