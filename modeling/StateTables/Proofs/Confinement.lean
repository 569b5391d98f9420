import StateTables.Proofs.Declarations
import StateTables.Proofs.Outcomes

/-! # Machines stay within their tables

A machine is always in a state of its graph, and so are the frames on both of its stacks.
Therefore every question it asks of its tables has an answer: no state, place of an action
list, action or condition space is ever out of range, whatever callbacks do and however a
call ends.
-/

namespace StateTables

open Step (Meets)

/-! ## Graphs that have all they refer to -/

namespace Graph

structure Furnished (graph : Graph) : Prop where
  guards : ∀ state ∈ graph.states, ∀ space, state.eofGuard = some space →
    space < graph.spaces.size
  aimed : ∀ action ∈ graph.actions, action.kind.needsTarget = true →
    ∃ target, action.target = some target

theorem Built.furnished {graph : Graph} (built : graph.Built) : graph.Furnished := by
  rcases built with ⟨draft, after, drafted, result⟩
  rcases Draft.build_eq_ok result with ⟨_, started, known, rfl, _⟩
  rcases drafted.reflects with ⟨operations, reflects⟩
  have consistent := drafted.consistent
  have inhabited := consistent.inhabited started
  constructor
  · intro state member space guarded
    rcases mem_mergeDuplicates_states member with ⟨merged, inside, rfl⟩
    rcases Draft.mem_assemble_states inhabited inside with
      ⟨_, _, _, rfl, _⟩ | ⟨source, declared, finished⟩
    · cases guarded
    · rcases Option.map_eq_some_iff.mp (finished.eofGuard.symm.trans guarded) with
        ⟨own, found, rfl⟩
      rcases Array.mem_iff_getElem?.mp (reflects.guards source declared own found) with
        ⟨index, stored⟩
      rw [consistent.numbered index own stored]
      exact (Array.getElem?_eq_some_iff.mp stored).1
  · intro action member needs
    rcases Array.mem_map.mp member with ⟨own, inside, rfl⟩
    have named : own.target.isEmpty = false := by
      have aimed : own.kind.needsTarget = !own.target.isEmpty := reflects.aimed own inside
      simpa using aimed.symm.trans needs
    cases found : draft.stateNumber? own.target with
    | none =>
        have unknown : GraphError.unknownTarget own.name own.target ∈ draft.unknownTargets :=
          List.mem_filterMap.mpr ⟨own, by simpa using inside, if_neg (by simp [named, found])⟩
        simp [known] at unknown
    | some number =>
        refine ⟨number, ?_⟩
        change (if own.target.isEmpty then none else draft.stateNumber? own.target) = _
        rw [if_neg (by simp [named]), found]

/-- The scan is in a state of the graph and goes on in such states only, tests alternates with
lists of the graph, and reads keys of the alphabet. -/
structure Confines {World : Type} (graph : Graph) (scan : Scan World) : Prop where
  state : scan.state < graph.states.size
  keys : ∀ key ∈ scan.chunk, graph.alphabet.contains key = true
  calls : ∀ frame ∈ scan.calls.frames, ∃ id < graph.states.size, frame.state = (id : Int)
  alternates : ∀ frame ∈ scan.alternates.frames,
    (∃ id < graph.states.size, frame.state = (id : Int)) ∧
      ∃ place, graph.IsPlace place ∧ frame.popTest = (place : Int)

end Graph

/-- Is the fault a question that a table does not answer? -/
def Fault.isTable : Fault → Bool
  | .outsideTable _ _ => true
  | .noTransition _ _ => true
  | .outsideChunk _ | .alternateOverflow _ _ | .outOfFuel => false

namespace Machine

variable {World α β : Type}

/-- A callback that was shown a view of a kind raised the fault. -/
def Raised (machine : Machine World) (shown : View → Prop) (fault : Fault) : Prop :=
  (∃ hook, some hook ∈ machine.hooks ∧ ∃ view world, shown view ∧
    hook view world = .error fault) ∨
  ∃ conditions ∈ machine.conditions, ∃ condition ∈ conditions, ∃ view world, shown view ∧
    condition view world = .error fault

/-- The fault is not one of a table, or else it is a callback's own. Callbacks are only shown
states of the graph. -/
def Harmless (machine : Machine World) (graph : Graph) (fault : Fault) : Prop :=
  fault.isTable = true → machine.Raised (fun view => view.state < graph.states.size) fault

/-- The machine executes a graph that has all it refers to. -/
structure Executes (machine : Machine World) (graph : Graph) : Prop where
  program : machine.program = graph.program
  wired : graph.Wired
  valid : graph.Valid
  furnished : graph.Furnished
  spaces : machine.conditions.size = graph.spaces.size
  unstoppable : machine.driver = .flagged → ∀ action ∈ graph.actions, action.kind ≠ .stop

/-- A step that leaves confined scans confined and raises only harmless faults. -/
def Confined (machine : Machine World) (graph : Graph) (step : Step World α) (holds : α → Prop) :
    Prop :=
  Meets graph.Confines (machine.Harmless graph) graph.Confines step fun value scan =>
    holds value ∧ graph.Confines scan

variable {machine : Machine World} {graph : Graph}

namespace Confined

variable {holds : α → Prop}

theorem pure {value : α} (property : holds value) :
    Confined machine graph (pure value) holds :=
  Meets.pure fun _ confines => ⟨property, confines⟩

theorem bind {step : Step World α} {next : α → Step World β} {last : β → Prop}
    (first : Confined machine graph step holds)
    (second : ∀ value, holds value → Confined machine graph (next value) last) :
    Confined machine graph (step >>= next) last :=
  Meets.bind first fun value => .given (second value)

theorem getBind {next : Scan World → Step World α}
    (each : ∀ scan, graph.Confines scan → Confined machine graph (next scan) holds) :
    Confined machine graph (get >>= next) holds :=
  fun scan confines => each scan confines scan confines

theorem set {scan : Scan World} (confines : graph.Confines scan) :
    Confined machine graph (set scan) fun _ => True :=
  Meets.set ⟨trivial, confines⟩

theorem modify {change : Scan World → Scan World}
    (keeps : ∀ scan, graph.Confines scan → graph.Confines (change scan)) :
    Confined machine graph (modify change) fun _ => True :=
  Meets.modify fun scan confines => ⟨trivial, keeps scan confines⟩

theorem throw (problem : ScanError) : Confined machine graph (throw problem) holds :=
  Meets.throw fun _ => id

theorem fault {fault : Fault} (isHarmless : machine.Harmless graph fault) :
    Confined machine graph (Step.ask (.error fault)) holds :=
  Meets.fault isHarmless

theorem askBind {answer : Except Fault α} {next : α → Step World β} {last : β → Prop} {value : α}
    (answered : answer = .ok value) (confined : Confined machine graph (next value) last) :
    Confined machine graph (Step.ask answer >>= next) last :=
  Meets.askBind answered confined

theorem ask {answer : Except Fault α} {value : α} (answered : answer = .ok value)
    (property : holds value) : Confined machine graph (Step.ask answer) holds := by
  rw [answered]
  exact pure property

theorem discard {step : Step World α} (confined : Confined machine graph step holds) :
    Confined machine graph (discard step) fun _ => True :=
  Meets.discard confined fun _ _ both => ⟨trivial, both.2⟩

theorem ensuring {step : Step World α} {change : Scan World → Scan World}
    (confined : Confined machine graph step holds)
    (keeps : ∀ scan, graph.Confines scan → graph.Confines (change scan)) :
    Confined machine graph (step.ensuring change) holds :=
  Meets.ensuring confined (fun _ scan both => ⟨both.1, keeps scan both.2⟩) keeps

theorem call {callback : Callback World α}
    (faults : ∀ view world fault, view.state < graph.states.size →
      callback view world = .error fault → machine.Harmless graph fault) :
    Confined machine graph (Step.call callback) fun _ => True :=
  Meets.call (fun _ confines _ _ _ => ⟨trivial, { confines with }⟩)
    fun scan confines fault raised => faults scan.view scan.world fault confines.state raised

end Confined

end Machine

namespace Graph.Confines

variable {World : Type} {graph : Graph} {scan : Scan World}

theorem enter (confines : graph.Confines scan) {target : Nat}
    (inside : target < graph.states.size) :
    graph.Confines { scan with state := target } :=
  { confines with state := inside }

theorem dropAlternate (confines : graph.Confines scan) : graph.Confines scan.dropAlternate := by
  unfold Scan.dropAlternate
  split
  next popped =>
    have frames := FrameStack.frames_of_pop? popped
    exact { confines with
      alternates := fun frame member => confines.alternates frame (by simp [frames, member]) }
  next => exact confines

theorem pathEnded (machine : Machine World) (confines : graph.Confines scan) :
    graph.Confines (machine.pathEnded scan) := by
  unfold Machine.pathEnded
  split <;> exact { confines with }

theorem clampPosition (confines : graph.Confines scan) :
    graph.Confines (Machine.clampPosition scan) := by
  unfold Machine.clampPosition
  split
  next => exact { confines with }
  next => split <;> exact { confines with }

end Graph.Confines

namespace Machine

variable {World : Type} {machine : Machine World} {graph : Graph}

/-! ## Questions with an answer -/

section Answers

variable (executes : machine.Executes graph)
include executes

theorem Executes.action {id : Nat} (inside : id < graph.actions.size) :
    ∃ action ∈ graph.actions, Graph.part "actions" machine.program.actions id = .ok action := by
  rw [executes.program]
  have found := Array.getElem?_eq_getElem inside
  exact ⟨_, Array.mem_of_getElem? found, Graph.part_eq_ok "actions" found⟩

theorem Executes.target {action : Action} (member : action ∈ graph.actions)
    (needs : action.kind.needsTarget = true) :
    ∃ target < graph.states.size, targetOf action = .ok target := by
  rcases executes.furnished.aimed action member needs with ⟨target, found⟩
  refine ⟨target, executes.wired.linked.actionTargets action member target found, ?_⟩
  rw [targetOf, found]

theorem Executes.actionsAt {location : Nat} (place : graph.IsPlace location) (used : location ≠ 0) :
    ∃ actions, machine.program.actionsAt location = .ok actions ∧
      ∀ id ∈ actions, id < graph.actions.size := by
  rw [executes.program]
  rcases place with unplaced | ⟨list, member, same⟩
  · exact absurd unplaced used
  have known : (graph.lists.find? fun list => list.location.toNat = location).isSome = true :=
    Array.find?_isSome.mpr ⟨list, member, by simpa using same⟩
  rcases Option.isSome_iff_exists.mp known with ⟨first, found⟩
  refine ⟨first.actions, ?_, executes.wired.linked.listActions first
    (Array.mem_of_find?_eq_some found)⟩
  change graph.actionsAt location = _
  rw [Graph.actionsAt, found]

section States

variable {id : Nat} (inside : id < graph.states.size)
include inside

theorem Executes.toState : ∃ place, machine.program.toState id = .ok place ∧
    graph.IsPlace place := by
  rw [executes.program]
  rcases Graph.getElem?_states inside with ⟨state, _, declared⟩
  exact ⟨_, Graph.map_part_eq_ok "states" _ declared, graph.isPlace_location _⟩

theorem Executes.fromState : ∃ place, machine.program.fromState id = .ok place ∧
    graph.IsPlace place := by
  rw [executes.program]
  rcases Graph.getElem?_states inside with ⟨state, _, declared⟩
  exact ⟨_, Graph.map_part_eq_ok "states" _ declared, graph.isPlace_location _⟩

theorem Executes.eofActions : ∃ place, machine.program.eofActions id = .ok place ∧
    graph.IsPlace place := by
  rw [executes.program]
  rcases Graph.getElem?_states inside with ⟨state, _, declared⟩
  exact ⟨_, Graph.map_part_eq_ok "states" _ declared, graph.isPlace_location _⟩

theorem Executes.eofTransition : ∃ transition?, machine.program.eofTransition id = .ok transition? ∧
    ∀ number, transition? = some number → number < graph.transitions.size := by
  rw [executes.program]
  rcases Graph.getElem?_states inside with ⟨state, member, declared⟩
  exact ⟨_, Graph.map_part_eq_ok "states" State.eofTransition declared,
    (executes.wired.linked.states state member).eofTransition⟩

theorem Executes.eofGuard : ∃ guard, machine.program.eofGuard id = .ok guard ∧
    ∀ space values, guard = some (space, values) → space < graph.spaces.size := by
  rw [executes.program]
  rcases Graph.getElem?_states inside with ⟨state, member, declared⟩
  refine ⟨_, Graph.map_part_eq_ok "states" _ declared, ?_⟩
  intro space values same
  rcases Option.map_eq_some_iff.mp same with ⟨own, found, pair⟩
  cases pair
  exact executes.furnished.guards state member space found

theorem Executes.alternates : ∃ pending, machine.program.alternates id = .ok pending ∧
    graph.bounds.ContainsAll pending := by
  rw [executes.program]
  rcases Graph.getElem?_states inside with ⟨state, member, declared⟩
  refine ⟨_, Graph.map_part_eq_ok "states" _ declared, ?_⟩
  intro pending isPending
  rcases List.mem_map.mp isPending with ⟨alternate, own, rfl⟩
  exact ⟨(executes.wired.linked.states state member).targets alternate own,
    graph.isPlace_location _, graph.isPlace_location _⟩

theorem Executes.locate {key : Key} (contained : graph.alphabet.contains key = true) :
    ∃ number < graph.transitions.size, machine.program.locate id key = .ok number := by
  rw [executes.program]
  rcases Graph.getElem?_states inside with ⟨state, member, declared⟩
  have ordered := executes.valid.states state member
  rcases State.exists_locate ordered (executes.wired.covers state member) contained with
    ⟨number, located⟩
  refine ⟨number, State.locate_lt (executes.wired.linked.states state member) ordered located,
    Graph.program_locate_eq_ok.mpr ?_⟩
  rw [Graph.locate, declared]
  exact located

end States

theorem Executes.move {number : Nat} (inside : number < graph.transitions.size) :
    ∃ space?, machine.program.spaceOf number = .ok space? ∧
      (∀ space, space? = some space → space < graph.spaces.size) ∧
      (space? = none → ∃ move, machine.program.plainMove number = .ok move ∧
        graph.bounds.Contains move) ∧
      ∀ value, ∃ move, machine.program.guardedMove number value = .ok move ∧
        graph.bounds.Contains move := by
  rw [executes.program]
  have found := Array.getElem?_eq_getElem inside
  generalize graph.transitions[number] = transition at found
  have used := Array.mem_of_getElem? found
  have linked := executes.wired.linked
  have outcomes : ∀ outcome ∈ transition.outcomes, ∃ move,
      graph.moveOf outcome.condition = .ok move ∧ graph.bounds.Contains move := by
    intro outcome member
    rcases linked.move used member with ⟨condition, stored, contained⟩
    exact ⟨_, Graph.moveOf_eq_ok stored, contained⟩
  refine ⟨transition.space, Graph.map_part_eq_ok "transitions" Transition.space found,
    linked.spaces transition used, ?_, ?_⟩
  · intro unguarded
    cases executes.valid.transitions transition used with
    | guarded _ _ numbered => cases unguarded.symm.trans numbered
    | plain condition _ only =>
        have first : transition.outcomes[0]? = some ⟨0, condition⟩ := by rw [only]; rfl
        rcases outcomes _ (Array.mem_of_getElem? first) with ⟨move, moved, contained⟩
        refine ⟨move, ?_, contained⟩
        change (Graph.part "transitions" graph.transitions number >>= _) = _
        rw [Graph.part_eq_ok "transitions" found]
        change (Graph.part "outcomes" transition.outcomes 0 >>= _) = _
        rw [Graph.part_eq_ok "outcomes" first]
        exact moved
  · intro value
    rw [Graph.program_guardedMove_eq found]
    cases searched : transition.lookup value with
    | none => exact ⟨_, rfl, executes.wired.getD_error_lt, .inl rfl⟩
    | some condition =>
        rcases (Transition.lookup_iff (executes.valid.transitions transition used)).mp searched with
          ⟨outcome, member, _, rfl⟩
        exact outcomes outcome member

end Answers

/-! ## Actions -/

theorem confined_record (kind : EventKind) (state action : Nat) :
    Confined machine graph (machine.record kind state action) fun _ => True := by
  unfold record
  split
  next => exact .modify fun _ confines => { confines with }
  next => exact .pure trivial

theorem confined_runHook (id : Nat) :
    Confined machine graph (machine.runHook id) fun _ => True := by
  unfold runHook
  split
  next => exact .pure trivial
  next hook bound =>
    have isHook : some hook ∈ machine.hooks :=
      Array.mem_of_getElem? (Option.join_eq_some_iff.mp bound)
    apply Confined.bind (.call fun view world fault inside raised _ =>
      .inl ⟨hook, isHook, view, world, inside, raised⟩)
    intro answer _
    cases answer with
    | done => exact .pure trivial
    | reject => exact .modify fun _ confines => { confines with }

theorem confined_runReturn (action : Action) :
    Confined machine graph (runReturn action) fun _ => True := by
  unfold runReturn
  apply Confined.getBind
  intro scan confines
  cases popped : scan.calls.pop? with
  | none => exact .throw _
  | some result =>
      rcases result with ⟨frame, calls⟩
      have frames := FrameStack.frames_of_pop? popped
      rcases confines.calls frame (by simp [frames]) with ⟨id, inside, same⟩
      refine .set { confines with
        state := ?_
        calls := fun other member => confines.calls other (by simp [frames, member]) }
      simpa [same] using inside

section Running

variable (executes : machine.Executes graph)
include executes

theorem confined_runCall {action : Action} (member : action ∈ graph.actions)
    (needs : action.kind.needsTarget = true) :
    Confined machine graph (runCall action) fun _ => True := by
  unfold runCall
  apply Confined.getBind
  intro scan confines
  cases pushed : scan.calls.push? ⟨scan.state, 0, 0⟩ with
  | none => exact .throw _
  | some calls =>
      rcases executes.target member needs with ⟨target, inside, found⟩
      apply Confined.askBind found
      refine .set { confines with state := inside, calls := ?_ }
      intro frame isFrame
      rcases FrameStack.mem_of_push? pushed isFrame with rfl | old
      · exact ⟨scan.state, confines.state, rfl⟩
      · exact confines.calls frame old

theorem confined_runActions {actions : List Nat}
    (inside : ∀ id ∈ actions, id < graph.actions.size) :
    Confined machine graph (machine.runActions actions) fun _ => True := by
  induction actions with
  | nil => exact .pure trivial
  | cons id rest induction =>
      have later := induction fun id member => inside id (by simp [member])
      rcases executes.action (inside id (by simp)) with ⟨action, member, found⟩
      unfold runActions
      apply Confined.askBind found
      apply Confined.getBind
      intro scan _
      apply (confined_record .action scan.state id).bind
      intro _ _
      cases kind : action.kind with
      | hook => exact (confined_runHook id).bind fun _ _ => later
      | hold => exact .bind (.modify fun _ confines => { confines with }) fun _ _ => later
      | next =>
          rcases executes.target member (by rw [kind]; rfl) with ⟨target, targetInside, aimed⟩
          apply Confined.askBind aimed
          exact (Confined.modify fun _ confines =>
            confines.enter targetInside).bind fun _ _ => later
      | goto =>
          rcases executes.target member (by rw [kind]; rfl) with ⟨target, targetInside, aimed⟩
          apply Confined.askBind aimed
          exact (Confined.modify fun _ confines => confines.enter targetInside).bind
            fun _ _ => .pure trivial
      | call =>
          exact (confined_runCall executes member (by rw [kind]; rfl)).bind
            fun _ _ => .pure trivial
      | ret => exact (confined_runReturn action).bind fun _ _ => .pure trivial
      | stop =>
          exact .bind (.modify fun _ confines => { confines with }) fun _ _ => .pure trivial

theorem confined_runList {location : Nat} (place : graph.IsPlace location) :
    Confined machine graph (machine.runList location) fun _ => True := by
  unfold runList
  split
  next => exact .pure trivial
  next used =>
    rcases executes.actionsAt place used with ⟨actions, found, inside⟩
    exact .askBind found (confined_runActions executes inside)

/-! ## Alternates -/

theorem confined_pushAlternate {pending : PendingMove} (target : pending.target < graph.states.size)
    (push : graph.IsPlace pending.push) (popTest : graph.IsPlace pending.popTest) :
    Confined machine graph (machine.pushAlternate pending) fun _ => True := by
  unfold pushAlternate
  apply Confined.getBind
  intro scan confines
  cases pushed : scan.alternates.push? ⟨pending.target, scan.absolute, pending.popTest⟩ with
  | none =>
      change Confined _ _ (if machine.fatalOverflow then _ else _) _
      split
      next => exact .fault fun impossible => by cases impossible
      next => exact .throw _
  | some alternates =>
      have frames : ∀ frame ∈ alternates.frames,
          (∃ id < graph.states.size, frame.state = (id : Int)) ∧
            ∃ place, graph.IsPlace place ∧ frame.popTest = (place : Int) := by
        intro frame isFrame
        rcases FrameStack.mem_of_push? pushed isFrame with rfl | old
        · exact ⟨⟨pending.target, target, rfl⟩, pending.popTest, popTest, rfl⟩
        · exact confines.alternates frame old
      refine .bind (.set { confines with alternates := frames }) fun _ _ => ?_
      apply (confined_record .push pending.target 0).bind
      intro _ _
      exact (confined_runList executes push).discard

theorem confined_pushAll {pending : List PendingMove} (inside : graph.bounds.ContainsAll pending) :
    Confined machine graph (machine.pushAll pending) fun _ => True := by
  induction pending with
  | nil => exact .pure trivial
  | cons first rest induction =>
      rcases inside first (by simp) with ⟨target, push, popTest⟩
      apply (confined_pushAlternate executes target push popTest).bind
      intro _ _
      exact induction fun move member => inside move (by simp [member])

theorem confined_pushAlternates :
    Confined machine graph machine.pushAlternates fun _ => True := by
  unfold pushAlternates
  apply Confined.getBind
  intro scan confines
  split
  next => exact .set { confines with }
  next =>
    rcases executes.alternates confines.state with ⟨pending, found, inside⟩
    exact .askBind found (confined_pushAll executes inside)

/-! ## Transitions -/

omit executes in
theorem confined_evaluate (index : Nat) {conditions all : List (Callback World Bool)}
    (own : all ∈ machine.conditions) (part : ∀ condition ∈ conditions, condition ∈ all) :
    Confined machine graph (evaluate index conditions) fun _ => True := by
  induction conditions generalizing index with
  | nil => exact .pure trivial
  | cons condition rest induction =>
      apply Confined.bind (.call fun view world fault inside raised _ =>
        .inr ⟨all, own, condition, part condition (by simp), view, world, inside, raised⟩)
      intro isTrue _
      apply (induction (index + 1) fun other member => part other (by simp [member])).bind
      intro others _
      exact .pure trivial

theorem confined_conditionValue {space : Nat} (inside : space < graph.spaces.size) :
    Confined machine graph (machine.conditionValue space) fun _ => True := by
  have found := Array.getElem?_eq_getElem
    (executes.spaces ▸ inside : space < machine.conditions.size)
  apply Confined.askBind (Graph.part_eq_ok "spaces" found)
  exact confined_evaluate 0 (Array.mem_of_getElem? found) fun _ => id

theorem confined_choose {number : Nat} (inside : number < graph.transitions.size) :
    Confined machine graph (machine.choose number) graph.bounds.Contains := by
  rcases executes.move inside with ⟨space?, found, spaces, plain, guarded⟩
  unfold choose
  apply Confined.askBind found
  cases space? with
  | none =>
      rcases plain rfl with ⟨move, moved, contained⟩
      exact .ask moved contained
  | some space =>
      apply (confined_conditionValue executes (spaces space rfl)).bind
      intro value _
      rcases guarded value with ⟨move, moved, contained⟩
      exact .ask moved contained

theorem confined_take {number : Nat} (inside : number < graph.transitions.size) :
    Confined machine graph (machine.take number) fun _ => True := by
  apply (confined_choose executes inside).bind
  intro move contained
  apply (Confined.modify fun _ confines => confines.enter contained.1).bind
  intro _ _
  apply (confined_record .transition move.target move.actions).bind
  intro _ _
  exact confined_runList executes contained.2

/-- A key that is read is one of the alphabet, and it has a transition. -/
theorem confined_resume : Confined machine graph machine.resume fun _ => True := by
  unfold resume
  apply Confined.getBind
  intro before beforeConfines
  rcases executes.fromState beforeConfines.state with ⟨place, found, isPlace⟩
  apply Confined.askBind found
  apply (confined_runList executes isPlace).bind
  intro control _
  split
  next => exact .pure trivial
  next =>
    apply Confined.getBind
    intro scan confines
    cases read : scan.view.key with
    | error fault =>
        have isHarmless : machine.Harmless graph fault := by
          unfold View.key at read
          split at read
          next => cases read
          next =>
            cases read
            exact fun impossible => by cases impossible
        exact Meets.faultBind isHarmless
    | ok key =>
        apply Confined.askBind rfl
        rcases executes.locate confines.state (confines.keys key (View.mem_of_key read)) with
          ⟨number, inside, located⟩
        exact .askBind located (confined_take executes inside)

theorem confined_again : Confined machine graph machine.again fun _ => True := by
  unfold again
  apply Confined.getBind
  intro scan confines
  rcases executes.toState confines.state with ⟨place, found, isPlace⟩
  apply Confined.askBind found
  apply (confined_runList executes isPlace).bind
  intro control _
  cases control <;> exact .pure trivial

/-! ## End of input -/

theorem confined_eofGuardHolds : Confined machine graph machine.eofGuardHolds fun _ => True := by
  unfold eofGuardHolds
  apply Confined.getBind
  intro scan confines
  rcases executes.eofGuard confines.state with ⟨guard, found, inside⟩
  apply Confined.askBind found
  cases guard with
  | none => exact .pure trivial
  | some guard =>
      apply (confined_conditionValue executes (inside guard.1 guard.2 rfl)).bind
      intro value _
      exact .pure trivial

theorem confined_runEofActions : Confined machine graph machine.runEofActions fun _ => True := by
  unfold runEofActions
  apply Confined.getBind
  intro scan confines
  rcases executes.eofActions confines.state with ⟨place, found, isPlace⟩
  apply Confined.askBind found
  split
  next => exact .pure trivial
  next =>
    apply (confined_eofGuardHolds executes).bind
    intro passes _
    split
    next => exact (confined_runList executes isPlace).discard
    next => exact .pure trivial

theorem confined_endInput : Confined machine graph machine.endInput fun _ => True := by
  unfold endInput
  apply Confined.getBind
  intro scan confines
  apply (confined_record .eof scan.state 0).bind
  intro _ _
  rcases executes.eofTransition confines.state with ⟨transition?, found, inside⟩
  apply Confined.askBind found
  cases transition? with
  | none =>
      exact .bind (.ensuring (confined_runEofActions executes) fun _ confines => { confines with })
        fun _ _ => .pure trivial
  | some number =>
      apply (confined_take executes (inside number rfl)).discard.bind
      intro _ _
      apply ((confined_again executes).ensuring fun _ => Graph.Confines.clampPosition).discard.bind
      exact fun _ _ => .pure trivial

/-! ## Ends of paths -/

theorem confined_enterAlternate {frame : Frame} {id place : Nat} (inside : id < graph.states.size)
    (state : frame.state = (id : Int)) (isPlace : graph.IsPlace place)
    (popTest : frame.popTest = (place : Int)) :
    Confined machine graph (machine.enterAlternate frame) fun _ => True := by
  unfold enterAlternate
  apply Confined.getBind
  intro scan confines
  rw [state, popTest, Int.toNat_natCast, Int.toNat_natCast]
  split
  next => exact .throw _
  next =>
    refine .bind (.set { confines with state := inside }) fun _ _ => ?_
    apply (confined_record .pop id place).bind
    intro _ _
    apply (confined_runList executes isPlace).discard.bind
    intro _ _
    exact .getBind fun _ _ => .pure trivial

theorem confined_popAlternates {frames : List Frame} (frameInside : ∀ frame ∈ frames,
    (∃ id < graph.states.size, frame.state = (id : Int)) ∧
      ∃ place, graph.IsPlace place ∧ frame.popTest = (place : Int)) :
    Confined machine graph (machine.popAlternates frames) fun _ => True := by
  induction frames with
  | nil => exact .pure trivial
  | cons frame rest induction =>
      rcases frameInside frame (by simp) with ⟨⟨id, inside, state⟩, place, isPlace, popTest⟩
      apply (Confined.modify fun _ => Graph.Confines.dropAlternate).bind
      intro _ _
      apply (confined_enterAlternate executes inside state isPlace popTest).bind
      intro entered _
      split
      next => exact .pure trivial
      next =>
        refine (Confined.modify ?_).bind fun _ _ =>
          induction fun frame member => frameInside frame (by simp [member])
        intro scan confines
        apply Graph.Confines.pathEnded
        apply confines.enter
        rw [executes.program]
        change graph.error.getD scan.state < _
        cases error : graph.error with
        | none => exact confines.state
        | some state => exact executes.wired.error_lt error

theorem confined_endPath : Confined machine graph machine.endPath fun _ => True := by
  apply (Confined.modify fun _ confines => confines.pathEnded machine).bind
  intro _ _
  apply Confined.getBind
  intro scan confines
  exact confined_popAlternates executes confines.alternates

/-! ## Drivers -/

omit executes in
theorem confined_inError : Confined machine graph machine.inError fun _ => True :=
  .getBind fun _ _ => .pure trivial

omit executes in
theorem confined_leave : Confined machine graph leave fun _ => True :=
  .getBind fun _ _ => .pure trivial

omit executes in
theorem confined_finish : Confined machine graph finish fun _ => True :=
  .bind (.modify fun _ confines => { confines with }) fun _ _ => .getBind fun _ _ => .pure trivial

omit executes in
theorem confined_suspend : Confined machine graph suspend fun _ => True :=
  .bind (.modify fun _ confines => { confines with }) fun _ _ => .getBind fun _ _ => .pure trivial

omit executes in
theorem confined_advance : Confined machine graph advance fun _ => True :=
  .modify fun _ confines => { confines with }

theorem confined_phase (phase : Phase) :
    Confined machine graph (machine.phase phase) fun _ => True := by
  cases phase with
  | resume =>
      apply (confined_pushAlternates executes).bind
      intro _ _
      apply Confined.getBind
      intro scan _
      split
      next => exact .pure trivial
      next =>
        apply confined_inError.bind
        intro before _
        split
        next => exact .pure trivial
        next =>
          apply (confined_resume executes).bind
          intro control _
          split
          next => exact confined_leave.bind fun _ _ => .pure trivial
          next =>
            apply (confined_again executes).bind
            intro control _
            split
            next => exact confined_leave.bind fun _ _ => .pure trivial
            next =>
              apply confined_inError.bind
              intro after _
              split
              next => exact .pure trivial
              next => exact confined_advance.bind fun _ _ => .pure trivial
  | testEof =>
      apply Confined.getBind
      intro scan _
      split
      next => exact confined_suspend.bind fun _ _ => .pure trivial
      next => exact (confined_endInput executes).bind fun _ _ => .pure trivial
  | out =>
      apply (confined_endPath executes).bind
      intro goesOn _
      split
      next => exact .pure trivial
      next => exact confined_finish.bind fun _ _ => .pure trivial

theorem confined_rounds : Rounds graph.Confines (machine.Harmless graph) (fun _ => graph.Confines)
    (fun _ => graph.Confines) machine := by
  apply Rounds.of_phases
  · intro phase
    apply (confined_phase executes phase).weaken
    intro outcome scan both
    cases outcome <;> exact both.2
  · intro isFlagged action member
    rw [executes.program] at member
    exact executes.unstoppable isFlagged action member

/-- However a call ends, the scan is confined, and a fault is harmless. -/
theorem Executes.execute {scan : Scan World} (confines : graph.Confines scan) (fuel : Nat)
    (chunk : Array Key) (ended : Bool) :
    (∀ report after, machine.execute fuel scan chunk ended = .ok (report, after) →
      graph.Confines after) ∧
    ∀ fault, machine.execute fuel scan chunk ended = .error fault →
      machine.Harmless graph fault := by
  apply (confined_rounds executes).execute (fun impossible => by cases impossible) (fun _ => id)
    (fun _ _ => id) confines
  intro proper
  have keys := contained_of_strayKey proper
  rw [executes.program] at keys
  exact { confines with keys := keys }

end Running

end Machine

end StateTables
