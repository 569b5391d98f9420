import StateTables.Proofs.Confinement

/-! # No machine reads outside of its tables

The tables of an encoding answer like the graph, so a machine for an encoding is confined like
one that executes the graph itself. That it asks only about states and action lists of the
graph is seen by watching it: a program that complains about every other question runs just
the same.
-/

namespace StateTables

namespace Graph

variable {graph : Graph}

def watchState {α : Type} (graph : Graph) (complaint : Fault) (ask : Nat → Except Fault α)
    (state : Nat) : Except Fault α :=
  if state < graph.states.size then ask state else .error complaint

/-- A program that answers only questions about the states of the graph and the places of its
action lists, and complains about all others. -/
def watch (graph : Graph) (complaint : Fault) (program : Program) : Program :=
  { program with
    locate := fun state key => graph.watchState complaint (program.locate · key) state
    actionsAt := fun location =>
      if location = 0 ∨ ∃ list ∈ graph.lists, list.location.toNat = location then
        program.actionsAt location
      else .error complaint
    toState := graph.watchState complaint program.toState
    fromState := graph.watchState complaint program.fromState
    eofActions := graph.watchState complaint program.eofActions
    eofTransition := graph.watchState complaint program.eofTransition
    eofGuard := graph.watchState complaint program.eofGuard
    alternates := graph.watchState complaint program.alternates }

theorem watchState_eq {α : Type} {complaint : Fault} {ask : Nat → Except Fault α} {state : Nat}
    (inside : state < graph.bounds.states) : graph.watchState complaint ask state = ask state :=
  if_pos inside

/-- A question that is answered is answered under watch. -/
theorem answers_watch {α β : Type} {holds : α → β → Prop} {answer watched : Except Fault α}
    {other : Except Fault β} (answers : Step.Answers holds answer other) (same : watched = answer)
    {again : α → α → Prop} (implied : ∀ value other, holds value other → again value value) :
    Step.Answers again answer watched := by
  rcases answers with ⟨value, other, found, _, related⟩
  exact ⟨value, value, found, same.trans found, implied value other related⟩

/-- A program that agrees with the graph agrees with itself under watch: within the graph there
is nothing to complain about. -/
theorem agrees_watch {related : Nat → Nat → Prop} {program other : Program}
    (agrees : program.Agrees graph.bounds related other) (complaint : Fault) :
    program.Agrees graph.bounds (fun slot same => slot = same ∧ ∃ number, related slot number)
      (graph.watch complaint program) where
  alphabet := rfl
  start := rfl
  firstFinal := rfl
  error := rfl
  actions := rfl
  spaces := rfl
  usesControl := rfl
  startInside := agrees.startInside
  errorInside := agrees.errorInside
  targetsInside := agrees.targetsInside
  spacesSmall := agrees.spacesSmall
  locate id inside key contained :=
    answers_watch (agrees.locate id inside key contained) (if_pos inside)
      fun _ number paired => ⟨rfl, number, paired⟩
  spaceOf slot same := by
    rintro ⟨rfl, number, paired⟩
    exact answers_watch (agrees.spaceOf slot number paired) rfl fun _ _ _ => rfl
  plainMove slot same := by
    rintro ⟨rfl, number, paired⟩ unguarded
    exact answers_watch (agrees.plainMove slot number paired unguarded) rfl
      fun _ _ both => ⟨rfl, both.2⟩
  guardedMove slot same := by
    rintro ⟨rfl, number, paired⟩ value small
    exact answers_watch (agrees.guardedMove slot number paired value small) rfl
      fun _ _ both => ⟨rfl, both.2⟩
  actionsAt location place used :=
    answers_watch (agrees.actionsAt location place used) (if_pos place) fun _ _ _ => rfl
  toState id inside :=
    answers_watch (agrees.toState id inside) (watchState_eq inside) fun _ _ both => ⟨rfl, both.2⟩
  fromState id inside :=
    answers_watch (agrees.fromState id inside) (watchState_eq inside) fun _ _ both => ⟨rfl, both.2⟩
  eofActions id inside :=
    answers_watch (agrees.eofActions id inside) (watchState_eq inside) fun _ _ both => ⟨rfl, both.2⟩
  eofTransition id inside := by
    refine answers_watch (agrees.eofTransition id inside) (watchState_eq inside) ?_
    intro transition? number? paired
    cases paired with
    | none => exact .none
    | some paired => exact .some ⟨rfl, _, paired⟩
  eofGuard id inside :=
    answers_watch (agrees.eofGuard id inside) (watchState_eq inside) fun _ _ _ => rfl
  alternates id inside :=
    answers_watch (agrees.alternates id inside) (watchState_eq inside) fun _ _ both => ⟨rfl, both.2⟩

def actionsOf (graph : Graph) (list : Option Nat) : List Nat :=
  match list with
  | none => []
  | some number => (graph.lists[number]?.map ActionList.actions).getD []

end Graph

/-- The machine executes a graph whose lists stand at their places. -/
structure Machine.Carries {World : Type} (machine : Machine World) (graph : Graph) : Prop where
  program : machine.program = graph.program
  lists : ∀ list ∈ graph.lists, list.location.toNat ≠ 0 ∧
    graph.actionsAt list.location.toNat = .ok list.actions

theorem Machine.Carries.runList_location {World : Type} {machine : Machine World} {graph : Graph}
    (carries : machine.Carries graph) (list : Option Nat) :
    machine.runList (graph.location list) = machine.runActions (graph.actionsOf list) := by
  cases list with
  | none => rfl
  | some number =>
      cases found : graph.lists[number]? with
      | none => simp [Graph.location, Graph.actionsOf, found, Machine.runList, Machine.runActions]
      | some list =>
          rcases carries.lists list (Array.mem_of_getElem? found) with ⟨used, actions⟩
          have location : graph.location (some number) = list.location.toNat := by
            simp [Graph.location, found]
          have own : graph.actionsOf (some number) = list.actions := by
            simp [Graph.actionsOf, found]
          rw [location, own, Machine.runList, if_neg used, carries.program]
          change Step.ask (graph.actionsAt list.location.toNat) >>= machine.runActions = _
          rw [actions]
          rfl

namespace Graph

section Encodings

variable {World : Type} {graph : Graph} (built : graph.Built) {encodingOptions : EncodingOptions}
  {encoding : Encoding} (encoded : graph.encode encodingOptions = .ok encoding)
  {options : MachineOptions} {bindings : Bindings World} {machine : Machine World}
  (created : Machine.create encoding.program options bindings = .ok machine)
include built encoded created

omit built in
theorem unstoppable_of_create (isFlagged : machine.driver = .flagged) :
    ∀ action ∈ graph.actions, action.kind ≠ .stop := by
  intro action member isStop
  have uncontrolled := (Machine.created_of_create created).uncontrolled isFlagged
  change encoding.usesControl = false at uncontrolled
  rw [(laid_of_encode encoded).usesControl, usesControl, Array.any_eq_false'] at uncontrolled
  exact uncontrolled action member (by rw [isStop]; rfl)

/-- The machine of an encoding, executing the graph instead. -/
theorem executes_running : (machine.running graph.program).Executes graph where
  program := rfl
  wired := built.wired
  valid := built.valid
  furnished := built.furnished
  spaces := by
    change machine.conditions.size = _
    rw [(Machine.created_of_create created).conditions, Array.size_map, Array.size_map]
    exact congrArg Array.size (laid_of_encode encoded).spaces
  unstoppable isFlagged := unstoppable_of_create encoded created isFlagged

omit created in
theorem carries_running (machine : Machine World) :
    (machine.running graph.program).Carries graph := by
  refine ⟨rfl, fun list member => ?_⟩
  have laid := laid_of_encode encoded
  rcases Array.mem_iff_getElem?.mp member with ⟨index, found⟩
  have used : list.location.toNat ≠ 0 := by
    rw [location_of_misplaced laid.actionTable_counts.1 (by simpa using found)]
    omega
  rcases laid.actionsAt_place built.wired.linked (.inr ⟨list, member, rfl⟩) used with
    ⟨actions, tabled, found, _⟩
  rw [laid.actionsAt_list member] at tabled
  cases tabled
  exact ⟨used, found⟩

theorem machine_agrees :
    machine.program.Agrees graph.bounds (graph.StandsFor encodingOptions) graph.program := by
  rw [(Machine.created_of_create created).runs]
  exact built.agrees encoded

omit built in
theorem Confines.inside {scan : Scan World} (confines : graph.Confines scan) :
    machine.Inside graph.bounds scan where
  state := confines.state
  keys := by
    rw [(Machine.created_of_create created).runs]
    change ∀ key ∈ scan.chunk, encoding.alphabet.contains key = true
    rw [(laid_of_encode encoded).alphabet]
    exact confines.keys
  calls frame member := by
    rcases confines.calls frame member with ⟨id, inside, same⟩
    rw [same]
    exact inside
  alternates frame member := by
    rcases confines.alternates frame member with ⟨⟨id, inside, same⟩, place, isPlace, popTest⟩
    rw [same, popTest]
    exact ⟨inside, isPlace⟩

/-- What a call to a machine for an encoding does is what it does for the graph. -/
theorem execute_eq_running {scan : Scan World} (confines : graph.Confines scan) (fuel : Nat)
    (chunk : Array Key) (ended : Bool) :
    machine.execute fuel scan chunk ended =
      (machine.running graph.program).execute fuel scan chunk ended :=
  (Machine.execute_running (machine_agrees built encoded created)
    (Machine.small_of_create (built.agrees encoded) created)
    (confines.inside encoded created) fuel chunk ended).1.symm

theorem confines_of_reaches {scan : Scan World} (reached : machine.Reaches scan) :
    graph.Confines scan := by
  induction reached with
  | start world =>
      rw [← Machine.start_running (machine_agrees built encoded created) world]
      exact {
        state := built.wired.linked.start
        keys := fun key member => by simp [Machine.start] at member
        calls := fun frame member => by simp [Machine.start, FrameStack.empty] at member
        alternates := fun frame member => by simp [Machine.start, FrameStack.empty] at member }
  | execute _ executed confines =>
      rw [execute_eq_running built encoded created confines] at executed
      exact ((executes_running built encoded created).execute confines _ _ _).1 _ _ executed

end Encodings

/-- Whatever calls a machine for an encoding of a graph that was built has seen, it is in a state of
the graph, and so are all frames on its stacks, whose pop tests are places of action lists. This
also holds at every phase the driver comes to in the next call, however that call ends. No table
leaves a question open in it, unless a callback says so itself; and no question is asked but about
states of the graph and places of its action lists: a complaint about any other would never be
heard. The draft of the graph names only condition spaces of its own. -/
theorem reached_scans_confined {World : Type} {graph : Graph} (built : graph.Built)
    {encodingOptions : EncodingOptions} {encoding : Encoding}
    (encoded : graph.encode encodingOptions = .ok encoding) {options : MachineOptions}
    {bindings : Bindings World} {machine : Machine World}
    (created : Machine.create encoding.program options bindings = .ok machine)
    {scan : Scan World} (reached : machine.Reaches scan) :
    encoding.stateCount = graph.states.size ∧ graph.Confines scan ∧
      ∀ (chunk : Array Key) (ended : Bool),
        (scan.done = false → machine.strayKey chunk = none → ∀ phase visited,
          machine.Visits (scan.begin chunk ended) phase visited → graph.Confines visited) ∧
        ∀ fuel : Nat,
          (∀ fault, machine.execute fuel scan chunk ended = .error fault → fault.isTable = true →
            machine.Raised (fun view => view.state < graph.states.size) fault) ∧
          ∀ complaint : Fault,
            (machine.running (graph.watch complaint encoding.program)).execute fuel scan chunk ended =
              machine.execute fuel scan chunk ended := by
  have agrees := machine_agrees built encoded created
  have small := Machine.small_of_create (built.agrees encoded) created
  have confines := confines_of_reaches built encoded created reached
  have inside := confines.inside encoded created
  have executes := executes_running built encoded created
  refine ⟨(laid_of_encode encoded).stateCount, confines, fun chunk ended =>
    ⟨?_, fun fuel => ⟨?_, ?_⟩⟩⟩
  · intro _ proper phase visited visits
    have begun := Machine.inside_begin inside proper ended
    have keys := Machine.contained_of_strayKey proper
    rw [agrees.alphabet] at keys
    have confinesBegun : graph.Confines (scan.begin chunk ended) := { confines with keys := keys }
    exact (Machine.confined_rounds executes).visits confinesBegun
      (Machine.visits_running agrees small begun visits).1
  · intro fault raised
    rw [execute_eq_running built encoded created confines] at raised
    exact (executes.execute confines fuel chunk ended).2 fault raised
  · intro complaint
    rw [← (Machine.created_of_create created).runs]
    exact (Machine.execute_running (agrees_watch agrees complaint) small inside fuel chunk ended).1

end Graph

namespace Sample

def suspended? : Option (Scan Nat) := do
  let encoding ← (graph.encode options).toOption
  let machine ← (Machine.create encoding.program machineOptions bindings).toOption
  let result ← (machine.execute 16 (machine.start 0) #[.ofInt 30] false).toOption
  return result.2

theorem exists_suspended : ∃ encoding machine scan,
    graph.encode options = .ok encoding ∧
      Machine.create encoding.program machineOptions bindings = .ok machine ∧
      machine.Reaches scan ∧ scan.alternates.depth = 2 := by
  have suspended : suspended?.any (·.alternates.depth == 2) = true := by decide +kernel
  rw [Option.any_eq_true] at suspended
  rcases suspended with ⟨scan, found, depth⟩
  simp only [suspended?, bind, pure, Option.bind_eq_some_iff, toOption_eq_some, Option.some_inj]
    at found
  rcases found with ⟨encoding, encoded, machine, created, ⟨_, after⟩, executed, rfl⟩
  exact ⟨encoding, machine, after, encoded, created, .execute (.start 0) executed,
    by simpa using depth⟩

end Sample

/-- The sample waits for more input with two alternates pending. -/
theorem reached_scans_confined_sample : ∃ encoding machine scan,
    Sample.graph.encode Sample.options = .ok encoding ∧
      Machine.create encoding.program Sample.machineOptions Sample.bindings = .ok machine ∧
      machine.Reaches scan ∧ scan.alternates.depth = 2 ∧ Sample.graph.Confines scan ∧
      ∀ (fuel : Nat) (complaint : Fault),
        (machine.running (Sample.graph.watch complaint encoding.program)).execute fuel scan
            #[.ofInt 12] true = machine.execute fuel scan #[.ofInt 12] true := by
  rcases Sample.exists_suspended with ⟨encoding, machine, scan, encoded, created, reached, depth⟩
  have confined := Graph.reached_scans_confined Sample.built_graph encoded created reached
  refine ⟨encoding, machine, scan, encoded, created, reached, depth, confined.2.1, ?_⟩
  exact fun fuel => ((confined.2.2 #[.ofInt 12] true).2 fuel).2

end StateTables
