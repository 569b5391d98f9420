import StateTables.Graph.Basic

/-! # Key classes

The keys between the lowest and the highest key that any state claims fall into
classes: intervals that every state treats alike, because no single or range of
any state starts or ends within one.
-/

namespace StateTables

/-- An inclusive interval of keys. -/
structure KeyInterval where
  low : Key
  high : Key
deriving DecidableEq, Repr

namespace KeyInterval

def widen (alphabet : Alphabet) (interval other : KeyInterval) : KeyInterval where
  low := if alphabet.below other.low interval.low then other.low else interval.low
  high := if alphabet.above other.high interval.high then other.high else interval.high

def envelope (alphabet : Alphabet) : List KeyInterval → Option KeyInterval
  | [] => none
  | first :: rest => some (rest.foldl (widen alphabet) first)

/-- The keys from the low key on up to the high key, both included. -/
def keys (interval : KeyInterval) : List Key :=
  (List.range ((interval.low.distance interval.high).toNat + 1)).map fun offset =>
    ⟨interval.low.pattern + Int64.ofNat offset⟩

end KeyInterval

/-- The intervals a state claims: its singles, then its ranges. -/
def State.intervals (state : State) : List KeyInterval :=
  (state.singles.toList.map fun single => ⟨single.key, single.key⟩) ++
    state.ranges.toList.map fun range => ⟨range.low, range.high⟩

/-- From the lowest to the highest key a state claims. -/
def State.envelope (alphabet : Alphabet) (state : State) : Option KeyInterval :=
  KeyInterval.envelope alphabet state.intervals

namespace Graph

/-- From the lowest to the highest key any state claims. -/
def envelope (graph : Graph) : Option KeyInterval :=
  KeyInterval.envelope graph.alphabet (graph.states.toList.filterMap (State.envelope graph.alphabet))

def insertBoundary (alphabet : Alphabet) (key : Key) : List Key → List Key
  | [] => [key]
  | other :: rest => match alphabet.compare key other with
    | .lt => key :: other :: rest
    | .eq => other :: rest
    | .gt => other :: insertBoundary alphabet key rest

/-- The keys at which classes start because of an interval: its low key, and the
key behind it unless that lies beyond all claimed keys. -/
def boundaries (alphabet : Alphabet) (highest : Key) (interval : KeyInterval) : List Key :=
  interval.low ::
    if interval.high != alphabet.high && alphabet.below interval.high highest then
      [interval.high.successor]
    else []

/-- The intervals that start at ascending keys and end before the next one. -/
def classesFrom (highest : Key) : List Key → List KeyInterval
  | [] => []
  | [start] => [⟨start, highest⟩]
  | start :: next :: rest => ⟨start, next.predecessor⟩ :: classesFrom highest (next :: rest)

def keyClasses (graph : Graph) (envelope : KeyInterval) : Array KeyInterval :=
  let intervals := graph.states.toList.flatMap State.intervals
  let starts := (intervals.flatMap (boundaries graph.alphabet envelope.high)).foldl
    (fun starts key => insertBoundary graph.alphabet key starts) [envelope.low]
  (classesFrom envelope.high starts).toArray

/-- The class of a key, by bisection. -/
def classOf (graph : Graph) (classes : Array KeyInterval) (key : Key) : Option Nat :=
  let probe index := match classes[index]? with
    | some interval =>
      if graph.alphabet.below key interval.low then .lt
      else if graph.alphabet.above key interval.high then .gt
      else .eq
    | none => .lt
  Search.position probe classes.size

end Graph

end StateTables
