import StateTables.Proofs.Simulation

/-! # Encodings run like their graphs

A machine is set up for a program and scans chunk after chunk. What it reports, and
how it leaves the scan after each chunk, is the same for a graph and for all of its
encodings.
-/

namespace StateTables

structure ScanCall where
  chunk : Array Key
  /-- Does the chunk end the input? -/
  ended : Bool

/-- What is seen of a sequence of calls: the reports with the scans they leave, up to
the fault that stopped the machine, if there was one. -/
structure History (World : Type) where
  steps : List (Machine.Report × Scan World)
  fault : Option Fault

namespace History

variable {World : Type}

def empty : History World :=
  ⟨[], none⟩

def stopped (fault : Fault) : History World :=
  ⟨[], some fault⟩

def after (step : Machine.Report × Scan World) (later : History World) : History World :=
  { later with steps := step :: later.steps }

end History

namespace Machine

variable {World : Type} (machine : Machine World)

def history (fuel : Nat) : Scan World → List ScanCall → History World
  | _, [] => .empty
  | scan, call :: later =>
    match machine.execute fuel scan call.chunk call.ended with
    | .error fault => .stopped fault
    | .ok step => .after step (history fuel step.2 later)

variable {machine} {other : Program} {bounds : Bounds} {related : Nat → Nat → Prop}

theorem history_running (agrees : machine.program.Agrees bounds related other)
    (small : machine.Small) {scan : Scan World} (inside : machine.Inside bounds scan) (fuel : Nat)
    (calls : List ScanCall) :
    (machine.running other).history fuel scan calls = machine.history fuel scan calls := by
  induction calls generalizing scan with
  | nil => rfl
  | cons call later induction =>
      rcases execute_running agrees small inside fuel call.chunk call.ended with
        ⟨same, stillInside⟩
      unfold history
      rw [same]
      cases executed : machine.execute fuel scan call.chunk call.ended with
      | error fault => rfl
      | ok step => exact congrArg (History.after step) (induction (stillInside step.1 step.2 executed))

theorem inside_start (agrees : machine.program.Agrees bounds related other) (world : World) :
    machine.Inside bounds (machine.start world) where
  state := agrees.startInside
  keys key member := by simp [start] at member
  calls frame member := by simp [start, FrameStack.empty] at member
  alternates frame member := by simp [start, FrameStack.empty] at member

theorem start_running (agrees : machine.program.Agrees bounds related other) (world : World) :
    (machine.running other).start world = machine.start world := by
  have start : (machine.running other).program.start = machine.program.start := agrees.start.symm
  unfold Machine.start
  rw [start]
  rfl

structure Created (program : Program) (bindings : Bindings World) (machine : Machine World) :
    Prop where
  runs : machine.program = program
  hooks : machine.hooks = program.actions.map fun action =>
    if action.kind = .hook then bindings.hook? action.name else none
  conditions : machine.conditions = (program.spaces.map (conditionsOf bindings)).map Prod.fst
  bound : (program.spaces.map (conditionsOf bindings)).toList.flatMap Prod.snd = []
  uncontrolled : machine.driver = .flagged → program.usesControl = false

theorem created_of_create {program : Program} {options : MachineOptions}
    {bindings : Bindings World} (created : create program options bindings = .ok machine) :
    Created program bindings machine := by
  unfold create at created
  split at created
  next => cases created
  next supported =>
    dsimp only at created
    split at created
    next => cases created
    next bound =>
      cases created
      refine ⟨rfl, rfl, rfl, by simpa using bound, fun isFlagged => ?_⟩
      simpa [show options.driver = .flagged from isFlagged] using supported

theorem create_running {program : Program} (agrees : program.Agrees bounds related other)
    (options : MachineOptions) (bindings : Bindings World) :
    create other options bindings =
      (fun machine => machine.running other) <$> create program options bindings := by
  unfold create
  rw [← agrees.usesControl, ← agrees.spaces, ← agrees.actions]
  split
  next => rfl
  next =>
    dsimp only
    split
    next => rfl
    next => rfl

theorem small_of_create {program : Program} (agrees : program.Agrees bounds related other)
    {options : MachineOptions} {bindings : Bindings World}
    (created : create program options bindings = .ok machine) : machine.Small := by
  intro conditions member
  rw [(created_of_create created).conditions] at member
  simp only [Array.mem_map] at member
  rcases member with ⟨_, ⟨space, isSpace, rfl⟩, rfl⟩
  have bound := List.length_filterMap_le bindings.condition? space.conditions
  exact Nat.le_trans bound (agrees.spacesSmall space isSpace)

end Machine

namespace Program

variable {World : Type}

def run (program : Program) (options : MachineOptions) (bindings : Bindings World) (world : World)
    (fuel : Nat) (calls : List ScanCall) : Except MachineError (History World) := do
  let machine ← Machine.create program options bindings
  return machine.history fuel (machine.start world) calls

/-- Programs that agree run alike. -/
theorem Agrees.run_eq {program other : Program} {bounds : Bounds} {related : Nat → Nat → Prop}
    (agrees : program.Agrees bounds related other) (options : MachineOptions)
    (bindings : Bindings World) (world : World) (fuel : Nat) (calls : List ScanCall) :
    program.run options bindings world fuel calls =
      other.run options bindings world fuel calls := by
  unfold run
  rw [Machine.create_running agrees options bindings]
  cases created : Machine.create program options bindings with
  | error problem => rfl
  | ok machine =>
      have small := Machine.small_of_create agrees created
      rw [← (Machine.created_of_create created).runs] at agrees
      have same := Machine.history_running agrees small (Machine.inside_start agrees world) fuel calls
      change Except.ok (machine.history fuel (machine.start world) calls) = Except.ok
        ((machine.running other).history fuel ((machine.running other).start world) calls)
      rw [Machine.start_running agrees, same]

end Program

/-- Every encoding of a graph that was built runs like the graph itself: for all drivers, limits,
callbacks and sequences of calls a machine is set up for both or for none, and then makes the same
reports and leaves the same scans. So all encodings of a graph run alike. The draft of the graph
names only condition spaces of its own. -/
theorem Graph.run_encoding_eq_run {World : Type} {graph : Graph} (built : graph.Built)
    {encodingOptions : EncodingOptions} {encoding : Encoding}
    (encoded : graph.encode encodingOptions = .ok encoding) (options : MachineOptions)
    (bindings : Bindings World) (world : World) (fuel : Nat) (calls : List ScanCall) :
    encoding.program.run options bindings world fuel calls =
        graph.program.run options bindings world fuel calls ∧
      ∀ (otherOptions : EncodingOptions) (other : Encoding),
        graph.encode otherOptions = .ok other →
          other.program.run options bindings world fuel calls =
            encoding.program.run options bindings world fuel calls := by
  have alike := (built.agrees encoded).run_eq options bindings world fuel calls
  refine ⟨alike, fun otherOptions other otherEncoded => ?_⟩
  have otherAlike := (built.agrees otherEncoded).run_eq options bindings world fuel calls
  exact otherAlike.trans alike.symm

namespace Sample

def machineOptions : MachineOptions where
  driver := .goto
  callLimit := defaultCallLimit
  alternateLimit := defaultAlternateLimit
  recording := true
  fatalOverflow := false

def bindings : Bindings Nat :=
  [⟨"sample", [
    ⟨"note", .action fun _ notes => .ok (.done, notes + 1)⟩,
    ⟨"even", .condition fun view notes => do
      return ((← view.key).signedValue % 2 == 0, notes)⟩]⟩]

def calls : List ScanCall :=
  [⟨#[], false⟩, ⟨#[.ofInt 30, .ofInt (-5)], true⟩]

end Sample

/-- The sample runs through two chunks. -/
theorem run_encoding_eq_run_sample : ∃ encoding,
    Sample.graph.encode Sample.options = .ok encoding ∧
    encoding.program.run Sample.machineOptions Sample.bindings 0 8 Sample.calls =
        Sample.graph.program.run Sample.machineOptions Sample.bindings 0 8 Sample.calls ∧
      ∀ (otherOptions : EncodingOptions) (other : Encoding),
        Sample.graph.encode otherOptions = .ok other →
          other.program.run Sample.machineOptions Sample.bindings 0 8 Sample.calls =
            encoding.program.run Sample.machineOptions Sample.bindings 0 8 Sample.calls := by
  rcases Sample.exists_encoding with ⟨encoding, encoded⟩
  exact ⟨encoding, encoded, Graph.run_encoding_eq_run Sample.built_graph encoded
    Sample.machineOptions Sample.bindings 0 8 Sample.calls⟩

end StateTables
