import Mathlib.Logic.Relation
import StateTables.Proofs.Steps
import StateTables.Proofs.Validity

/-! # The language of a graph

A configuration is a state and a position in a word. Alternates move to another state at
the same position, keys to another state at the next one. The graph accepts a word if
moves lead from the start to a final state at the end of the word. Conditions are taken
to be functions of position and key here.
-/

namespace StateTables

/-- The answers of conditions, by name, absolute position and key. -/
abbrev Predicates := String → Int → Key → Bool

/-- The value of some predicates; bit `index` and those above it are set for those that
hold. -/
def ConditionValue.ofPredicates (isTrue : String → Bool) (index : Nat) : List String → ConditionValue
  | [] => 0
  | name :: rest =>
    if isTrue name then ConditionValue.bit index ||| ofPredicates isTrue (index + 1) rest
    else ofPredicates isTrue (index + 1) rest

theorem ConditionValue.ofPredicates_lt (isTrue : String → Bool) {index : Nat} {names : List String}
    (few : index + names.length ≤ 32) :
    (ofPredicates isTrue index names).toNat < 2 ^ (index + names.length) := by
  induction names generalizing index with
  | nil => exact Nat.two_pow_pos index
  | cons name rest induction =>
      rw [List.length_cons] at few ⊢
      have others := induction (by omega : index + 1 + rest.length ≤ 32)
      rw [Nat.add_assoc, Nat.add_comm 1] at others
      unfold ofPredicates
      split
      next =>
        have bit : (ConditionValue.bit index).toNat < 2 ^ (index + (rest.length + 1)) := by
          rw [toNat_bit (by omega)]
          exact Nat.pow_lt_pow_right (by omega) (by omega)
        rw [UInt64.toNat_or]
        exact Nat.or_lt_two_pow bit others
      next => exact others

structure Configuration where
  state : Nat
  position : Nat
deriving DecidableEq, Repr

namespace Graph

variable (graph : Graph) (predicates : Predicates)

/-- The condition target of a transition under some predicates, if the transition lists
the condition value. -/
def outcome? (transition : Transition) (isTrue : String → Bool) : Option Nat :=
  match transition.space with
  | none => transition.plain?
  | some number => graph.spaces[number]?.bind fun space =>
      transition.lookup (.ofPredicates isTrue 0 space.conditions)

def target? (state position : Nat) (key : Key) : Option Nat := do
  let number ← graph.locate state key
  let transition ← graph.transitions[number]?
  let outcome ← graph.outcome? transition fun name => predicates name position key
  let condition ← graph.conditions[outcome]?
  return condition.target

variable (word : Array Key)

/-- One move of a configuration. Keys do not move into the error state. -/
inductive Moves : Configuration → Configuration → Prop
  | alternate {id position : Nat} {state : State} {alternate : Alternate} :
      graph.states[id]? = some state → alternate ∈ state.alternates →
        Moves ⟨id, position⟩ ⟨alternate.target, position⟩
  | key {id position target : Nat} {key : Key} :
      word[position]? = some key → graph.target? predicates id position key = some target →
        graph.error ≠ some target → Moves ⟨id, position⟩ ⟨target, position + 1⟩

def IsFinal (id : Nat) : Prop :=
  ∃ state, graph.states[id]? = some state ∧ state.final = true

/-- Some moves lead from a configuration to a final state at the end of the word. -/
def Accepts (configuration : Configuration) : Prop :=
  ∃ final, Relation.ReflTransGen (graph.Moves predicates word) configuration ⟨final, word.size⟩ ∧
    graph.IsFinal final

/-- The configuration accepts, and does not need an alternate of its state to do so. -/
def AcceptsHere (configuration : Configuration) : Prop :=
  (configuration.position = word.size ∧ graph.IsFinal configuration.state) ∨
    ∃ key target, word[configuration.position]? = some key ∧
      graph.target? predicates configuration.state configuration.position key = some target ∧
      graph.error ≠ some target ∧ graph.Accepts predicates word ⟨target, configuration.position + 1⟩

variable {graph predicates word}

/-! ## One move -/

theorem accepts_iff {configuration : Configuration} :
    graph.Accepts predicates word configuration ↔
      (configuration.position = word.size ∧ graph.IsFinal configuration.state) ∨
        ∃ next, graph.Moves predicates word configuration next ∧
          graph.Accepts predicates word next := by
  constructor
  · intro accepts
    rcases accepts with ⟨final, moves, isFinal⟩
    rcases Relation.ReflTransGen.cases_head moves with rfl | ⟨next, move, rest⟩
    · exact .inl ⟨rfl, isFinal⟩
    · exact .inr ⟨next, move, final, rest, isFinal⟩
  · intro accepts
    rcases accepts with ⟨ended, isFinal⟩ | ⟨next, move, final, rest, isFinal⟩
    · rcases configuration with ⟨state, position⟩
      cases ended
      exact ⟨state, .refl, isFinal⟩
    · exact ⟨final, .head move rest, isFinal⟩

theorem accepts_iff_here {id position : Nat} {state : State}
    (declared : graph.states[id]? = some state) :
    graph.Accepts predicates word ⟨id, position⟩ ↔
      graph.AcceptsHere predicates word ⟨id, position⟩ ∨
        ∃ alternate ∈ state.alternates,
          graph.Accepts predicates word ⟨alternate.target, position⟩ := by
  rw [accepts_iff]
  constructor
  · intro accepts
    rcases accepts with ends | ⟨next, move, accepts⟩
    · exact .inl (.inl ends)
    · cases move with
      | alternate found member =>
          cases declared.symm.trans found
          exact .inr ⟨_, member, accepts⟩
      | key here leads alive => exact .inl (.inr ⟨_, _, here, leads, alive, accepts⟩)
  · intro accepts
    rcases accepts with
      (ends | ⟨key, target, here, leads, alive, accepts⟩) | ⟨alternate, member, accepts⟩
    · exact .inl ends
    · exact .inr ⟨_, .key here leads alive, accepts⟩
    · exact .inr ⟨_, .alternate declared member, accepts⟩

theorem acceptsHere_end {id : Nat} :
    graph.AcceptsHere predicates word ⟨id, word.size⟩ ↔ graph.IsFinal id := by
  constructor
  · intro accepts
    rcases accepts with ⟨_, isFinal⟩ | ⟨key, _, here, _⟩
    · exact isFinal
    · simp at here
  · exact fun isFinal => .inl ⟨rfl, isFinal⟩

theorem acceptsHere_key {id position target : Nat} {key : Key}
    (here : word[position]? = some key)
    (leads : graph.target? predicates id position key = some target)
    (alive : graph.error ≠ some target) :
    graph.AcceptsHere predicates word ⟨id, position⟩ ↔
      graph.Accepts predicates word ⟨target, position + 1⟩ := by
  constructor
  · intro accepts
    rcases accepts with ⟨ended, _⟩ | ⟨other, otherTarget, found, otherLeads, _, accepts⟩
    · simp only at ended
      simp [ended] at here
    · cases here.symm.trans found
      cases leads.symm.trans otherLeads
      exact accepts
  · exact fun accepts => .inr ⟨key, target, here, leads, alive, accepts⟩

theorem not_acceptsHere {id position : Nat} {key : Key} (here : word[position]? = some key)
    (trapped : ∀ target, graph.target? predicates id position key = some target →
      graph.error = some target) :
    ¬graph.AcceptsHere predicates word ⟨id, position⟩ := by
  intro accepts
  rcases accepts with ⟨ended, _⟩ | ⟨other, target, found, leads, alive, _⟩
  · simp only at ended
    simp [ended] at here
  · cases here.symm.trans found
    exact alive (trapped target leads)

/-! ## The error state -/

theorem locate_errorState (alphabet : Alphabet) (transition : Nat) (key : Key) :
    (Draft.errorState transition).locate alphabet key = some transition := by
  have nothing : ∀ probe, Search.position probe 0 = none := fun probe =>
    Search.between_empty probe (Nat.le_refl 0)
  change ((Search.position _ 0).bind _).or (((Search.position _ 0).bind _).or (some transition)) = _
  rw [nothing, nothing]
  rfl

theorem Trapped.target?_eq (trapped : graph.Trapped) {error : Nat}
    (isError : graph.error = some error) (position : Nat) (key : Key) :
    graph.target? predicates error position key = some error := by
  rcases trapped error isError with ⟨way, declared, condition, transition⟩
  simp [target?, outcome?, Transition.plain?, locate, declared, locate_errorState, condition,
    transition]

theorem Trapped.not_isFinal (trapped : graph.Trapped) {error : Nat}
    (isError : graph.error = some error) : ¬graph.IsFinal error := by
  intro isFinal
  rcases isFinal with ⟨state, found, final⟩
  rcases trapped error isError with ⟨way, declared, _⟩
  cases declared.symm.trans found
  cases final

theorem Valid.isFinal_iff (valid : graph.Valid) {id : Nat} (inside : id < graph.states.size) :
    graph.IsFinal id ↔ graph.firstFinal ≤ id := by
  have declared := Array.getElem?_eq_getElem inside
  have final := valid.final id _ declared
  constructor
  · intro isFinal
    rcases isFinal with ⟨state, found, isFinal⟩
    cases declared.symm.trans found
    simpa [isFinal] using final
  · intro below
    exact ⟨_, declared, by simpa [below] using final⟩

/-! ## Keys without a listed condition value -/

theorem mem_of_ascending {row : List Nat} {low high number : Nat}
    (ascending : row.Pairwise (· < ·)) (above : ∀ entry ∈ row, low ≤ entry)
    (below : ∀ entry ∈ row, entry < high) (long : high ≤ low + row.length) (lower : low ≤ number)
    (upper : number < high) : number ∈ row := by
  induction row generalizing low number with
  | nil =>
      rw [List.length_nil] at long
      omega
  | cons head tail induction =>
      rcases List.pairwise_cons.mp ascending with ⟨first, rest⟩
      have headAbove := above head (by simp)
      rw [List.length_cons] at long
      have inTail : ∀ other, low + 1 ≤ other → other < high → other ∈ tail := fun other =>
        induction rest
          (fun entry member => by have := first entry member; omega)
          (fun entry member => below entry (by simp [member])) (by omega)
      -- If the head were not the least number, it would occur once more.
      have least : head = low := by
        by_cases greater : low < head
        · have again := inTail head greater (below head (by simp))
          exact absurd (first head again) (Nat.lt_irrefl head)
        · omega
      by_cases same : number = low
      · simp [same, least]
      · exact List.mem_cons_of_mem _ (inTail number (by omega) upper)

/-- A transition that lists as many condition values as there are lists all of them. -/
theorem exists_lookup {transition : Transition} {number : Nat} {space : ConditionSpace}
    (ordered : transition.Ordered graph.spaces) (guarded : transition.space = some number)
    (found : graph.spaces[number]? = some space) (small : space.size ≤ 32)
    (complete : 2 ^ space.size ≤ transition.outcomes.size) {value : ConditionValue}
    (within : value.toNat < 2 ^ space.size) :
    ∃ condition, transition.lookup value = some condition := by
  have below : ∀ outcome ∈ transition.outcomes, outcome.value.toNat < 2 ^ space.size := by
    cases ordered with
    | plain _ unguarded _ => simp [guarded, found] at unguarded
    | guarded other otherSpace numbered otherFound _ within =>
        cases guarded.symm.trans numbered
        cases found.symm.trans otherFound
        intro outcome member
        have less := within outcome member
        rwa [UInt64.lt_iff_toNat_lt, ConditionSpace.toNat_combinations small] at less
  have ascending : (transition.outcomes.toList.map fun outcome =>
      outcome.value.toNat).Pairwise (· < ·) :=
    List.pairwise_map.mpr (ordered.ascending.imp UInt64.lt_iff_toNat_lt.mp)
  have member := mem_of_ascending ascending (fun entry _ => Nat.zero_le entry)
    (by
      intro entry isEntry
      rcases List.mem_map.mp isEntry with ⟨outcome, inside, rfl⟩
      exact below outcome (by simpa using inside))
    (by simpa using complete) (Nat.zero_le _) within
  rcases List.mem_map.mp member with ⟨outcome, inside, same⟩
  exact ⟨outcome.condition, (Transition.lookup_iff ordered).mpr
    ⟨outcome, by simpa using inside, UInt64.toNat_inj.mp same, rfl⟩⟩

/-- If a value is not listed, there is an error state to take it: otherwise all values would be
listed. -/
theorem exists_error_of_unlisted (wired : graph.Wired) (valid : graph.Valid)
    {transition : Transition} (used : transition ∈ graph.transitions) {number : Nat}
    {space : ConditionSpace} (guarded : transition.space = some number)
    (found : graph.spaces[number]? = some space) {value : ConditionValue}
    (within : value.toNat < 2 ^ space.size) (unlisted : transition.lookup value = none) :
    ∃ error, graph.error = some error := by
  cases error : graph.error with
  | some state => exact ⟨state, rfl⟩
  | none =>
      have small := (wired.exhaustive.small space (Array.mem_of_getElem? found)).2
      have complete := wired.exhaustive.complete error transition used number space guarded found
      rcases exists_lookup (valid.transitions transition used) guarded found small complete
        within with ⟨condition, listed⟩
      cases unlisted.symm.trans listed

/-! ## Following a transition -/

/-- A key leads to a state, or its condition value is not listed and it leads to the error
state. -/
def LeadsTo (graph : Graph) (predicates : Predicates) (state position : Nat) (key : Key)
    (target : Nat) : Prop :=
  graph.target? predicates state position key = some target ∨
    (graph.target? predicates state position key = none ∧ graph.error = some target)

theorem target_of_moveOf {number : Nat} {move : Move} (moved : graph.moveOf number = .ok move) :
    graph.conditions[number]?.map ConditionTarget.target = some move.target := by
  unfold moveOf part at moved
  cases found : graph.conditions[number]? with
  | none =>
      rw [found] at moved
      cases moved
  | some condition =>
      rw [found] at moved
      cases moved
      rfl

section Following

variable {state position number : Nat} {key : Key} {transition : Transition}
  (located : graph.locate state key = some number)
  (found : graph.transitions[number]? = some transition)
include located found

theorem target?_eq : graph.target? predicates state position key =
    (graph.outcome? transition fun name => predicates name position key).bind fun outcome =>
      graph.conditions[outcome]?.map ConditionTarget.target := by
  unfold target?
  rw [located]
  change (graph.transitions[number]?.bind _) = _
  rw [found]
  change (graph.outcome? transition _).bind _ = _
  congr 1
  funext outcome
  cases graph.conditions[outcome]? <;> rfl

theorem leadsTo_of_plainMove (valid : graph.Valid) (unguarded : transition.space = none)
    {move : Move} (moved : graph.program.plainMove number = .ok move) :
    graph.LeadsTo predicates state position key move.target := by
  cases valid.transitions transition (Array.mem_of_getElem? found) with
  | guarded _ _ numbered => cases unguarded.symm.trans numbered
  | plain condition _ outcomes =>
      have moved : graph.moveOf condition = .ok move := by
        change (part "transitions" graph.transitions number >>= _) = _ at moved
        unfold part at moved
        rw [found] at moved
        change (part "outcomes" transition.outcomes 0 >>= _) = _ at moved
        rw [outcomes] at moved
        exact moved
      left
      rw [target?_eq located found, outcome?, unguarded, Transition.plain?, unguarded, outcomes]
      exact target_of_moveOf moved

theorem leadsTo_of_guardedMove (wired : graph.Wired) (valid : graph.Valid) {guard : Nat}
    {space : ConditionSpace} (guarded : transition.space = some guard)
    (known : graph.spaces[guard]? = some space) {move : Move}
    (moved : graph.program.guardedMove number
      (.ofPredicates (fun name => predicates name position key) 0 space.conditions) = .ok move) :
    graph.LeadsTo predicates state position key move.target := by
  have used := Array.mem_of_getElem? found
  have small := (wired.exhaustive.small space (Array.mem_of_getElem? known)).2
  have outcome : (graph.outcome? transition fun name => predicates name position key) =
      transition.lookup (.ofPredicates (fun name => predicates name position key) 0
        space.conditions) := by
    simp [outcome?, guarded, known]
  unfold LeadsTo
  rw [target?_eq located found, outcome]
  rw [program_guardedMove_eq found] at moved
  split at moved
  next condition listed =>
    rw [listed]
    exact .inl (target_of_moveOf moved)
  next unlisted =>
    have within := ConditionValue.ofPredicates_lt (fun name => predicates name position key)
      (by rw [Nat.zero_add]; exact small : 0 + space.conditions.length ≤ 32)
    rw [Nat.zero_add] at within
    rcases exists_error_of_unlisted wired valid used guarded known within unlisted with
      ⟨error, isError⟩
    rw [unlisted, isError]
    cases moved
    exact .inr ⟨rfl, by rw [isError]; rfl⟩

end Following

theorem LeadsTo.lt (wired : graph.Wired) {state position target : Nat} {key : Key}
    (leads : graph.LeadsTo predicates state position key target) : target < graph.states.size := by
  rcases leads with leads | ⟨_, isError⟩
  · simp only [target?, bind, Option.bind_eq_some_iff, pure, Option.some_inj] at leads
    rcases leads with ⟨_, _, _, _, _, _, condition, found, rfl⟩
    exact wired.linked.targets condition (Array.mem_of_getElem? found)
  · exact wired.error_lt isError

end Graph

end StateTables
