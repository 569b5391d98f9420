/-! # Bisection and interning

Two searches that several parts share: bisection of an ordered row, and the
numbering of distinct values in order of first occurrence.
-/

namespace StateTables.Search

/-- Search the positions from `low` up to but not including `high`. The probe
tells on which side of a position the wanted entry lies, or that it is there. -/
def bisect {m : Type → Type} [Monad m] (probe : Nat → m Ordering) (low high : Nat) :
    m (Option Nat) :=
  if low < high then do
    let middle := (low + high - 1) / 2
    match ← probe middle with
    | .lt => bisect probe low middle
    | .gt => bisect probe (middle + 1) high
    | .eq => pure (some middle)
  else pure none
termination_by high - low
decreasing_by all_goals omega

/-- Search the first `count` positions with a probe that reads nothing. -/
def position (probe : Nat → Ordering) (count : Nat) : Option Nat :=
  Id.run (bisect (m := Id) probe 0 count)

/-- Number a value among values seen before, adding it if it is new. -/
def intern {α : Type} [DecidableEq α] (seen : Array α) (value : α) : Array α × Nat :=
  match seen.findIdx? fun other => other = value with
  | some index => (seen, index)
  | none => (seen.push value, seen.size)

/-- The distinct values of a sequence in order of first occurrence, and for
every position the number of its value. -/
def distinct {α : Type} [DecidableEq α] (values : Array α) : Array α × Array Nat :=
  values.foldl (fun (seen, numbers) value =>
    let (seen, number) := intern seen value
    (seen, numbers.push number)) (#[], #[])

end StateTables.Search
