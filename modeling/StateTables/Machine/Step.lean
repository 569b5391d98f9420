import StateTables.Machine.Basic

/-! # Phases of a scan

The phases all drivers share: running action lists, pushing alternates, taking
transitions, reaching the end of input and ending a path. A step changes the
scan and either goes on, ends with an error of the scan, or is stopped by a
fault.
-/

namespace StateTables

abbrev Step (World : Type) : Type → Type :=
  ExceptT ScanError (StateT (Scan World) (Except Fault))

/-- How a driver goes on after a list of actions. -/
inductive Control where
  /-- With the current phase. -/
  | next
  /-- With the to-state actions. -/
  | again
  /-- By leaving the scan. -/
  | stop
deriving DecidableEq, Repr

namespace Step

variable {World α : Type}

/-- A step that only asks, and may be at fault. -/
def ask (answer : Except Fault α) : Step World α := fun scan =>
  match answer with
  | .ok value => .ok (.ok value, scan)
  | .error fault => .error fault

def ensuring (step : Step World α) (change : Scan World → Scan World) : Step World α :=
  fun scan => match step scan with
    | .ok (result, scan) => .ok (result, change scan)
    | .error fault => .error fault

def call (callback : Callback World α) : Step World α := fun scan =>
  match callback scan.view scan.world with
  | .ok (answer, world) => .ok (.ok answer, { scan with world := world })
  | .error fault => .error fault

end Step

namespace Machine

variable {World : Type} (machine : Machine World)

/-- Add an event to the trace, if events are recorded. -/
def record (kind : EventKind) (state action : Nat) : Step World Unit :=
  if machine.recording then
    modify fun scan => { scan with trace := scan.trace.push ⟨kind, state, action⟩ }
  else pure ()

def targetOf (action : Action) : Except Fault Nat :=
  match action.target with
  | some target => .ok target
  | none => .error (.outsideTable "targets" (-1))

/-! ## Actions -/

/-- Call back for an action, if it is bound. -/
def runHook (id : Nat) : Step World Unit := do
  match machine.hooks[id]?.join with
  | none => pure ()
  | some hook => match ← Step.call hook with
    | .done => pure ()
    | .reject => modify fun scan => { scan with rejected := true }

/-- Push the current state and go to the target of an action. -/
def runCall (action : Action) : Step World Unit := do
  let scan ← get
  match scan.calls.push? ⟨scan.state, 0, 0⟩ with
  | none => throw (.callOverflow action.name scan.absolute)
  | some calls => set { scan with calls := calls, state := ← Step.ask (targetOf action) }

/-- Go back to the state on top of the call stack. -/
def runReturn (action : Action) : Step World Unit := do
  let scan ← get
  match scan.calls.pop? with
  | none => throw (.callUnderflow action.name scan.absolute)
  | some (frame, calls) => set { scan with calls := calls, state := frame.state.toNat }

def runActions : List Nat → Step World Control
  | [] => return .next
  | id :: rest => do
    let action ← Step.ask (Graph.part "actions" machine.program.actions id)
    machine.record .action (← get).state id
    match action.kind with
    | .hook => machine.runHook id; runActions rest
    | .hold => modify (fun scan => { scan with position := scan.position - 1 }); runActions rest
    | .next =>
      let target ← Step.ask (targetOf action)
      modify fun scan => { scan with state := target }
      runActions rest
    | .goto =>
      let target ← Step.ask (targetOf action)
      modify fun scan => { scan with state := target }
      return .again
    | .call => runCall action; return .again
    | .ret => runReturn action; return .again
    | .stop => modify (fun scan => { scan with position := scan.position + 1 }); return .stop

/-- Execute the actions at a place; place zero stands for none. -/
def runList (location : Nat) : Step World Control := do
  if location = 0 then return .next
  else machine.runActions (← Step.ask (machine.program.actionsAt location))

/-! ## Alternates -/

/-- Push an alternate at the current position and run its actions. -/
def pushAlternate (pending : PendingMove) : Step World Unit := do
  let scan ← get
  match scan.alternates.push? ⟨pending.target, scan.absolute, pending.popTest⟩ with
  | none =>
    if machine.fatalOverflow then
      Step.ask (.error (.alternateOverflow scan.state scan.absolute))
    else throw (.alternateOverflow scan.state scan.absolute)
  | some alternates =>
    set { scan with alternates := alternates }
    machine.record .push pending.target 0
    discard (machine.runList pending.push)

def pushAll : List PendingMove → Step World Unit
  | [] => pure ()
  | pending :: rest => do
    machine.pushAlternate pending
    pushAll rest

/-- Push the alternates of the current state. After a suspension they have been
pushed already. -/
def pushAlternates : Step World Unit := do
  let scan ← get
  if scan.resumed then set { scan with resumed := false }
  else machine.pushAll (← Step.ask (machine.program.alternates scan.state))

/-! ## Transitions -/

/-- Evaluate predicates in order; bit `index` and those above it are set for the
predicates that hold. -/
def evaluate (index : Nat) : List (Callback World Bool) → Step World ConditionValue
  | [] => return 0
  | condition :: rest => do
    let holds ← Step.call condition
    let others ← evaluate (index + 1) rest
    return if holds then ConditionValue.bit index ||| others else others

def conditionValue (space : Nat) : Step World ConditionValue := do
  evaluate 0 (← Step.ask (Graph.part "spaces" machine.conditions space))

def choose (transition : Nat) : Step World Move := do
  match ← Step.ask (machine.program.spaceOf transition) with
  | none => Step.ask (machine.program.plainMove transition)
  | some space =>
    let value ← machine.conditionValue space
    Step.ask (machine.program.guardedMove transition value)

/-- Follow a transition: evaluate its conditions, enter the target and run the
actions. -/
def take (transition : Nat) : Step World Control := do
  let move ← machine.choose transition
  modify fun scan => { scan with state := move.target }
  machine.record .transition move.target move.actions
  machine.runList move.actions

/-- Run the from-state actions and the transition for the current key. -/
def resume : Step World Control := do
  let control ← machine.runList (← Step.ask (machine.program.fromState (← get).state))
  if control ≠ .next then return control
  let scan ← get
  let key ← Step.ask scan.view.key
  machine.take (← Step.ask (machine.program.locate scan.state key))

def again : Step World Control := do
  match ← machine.runList (← Step.ask (machine.program.toState (← get).state)) with
  | .stop => return .stop
  | _ => return .next

/-! ## End of input -/

/-- Bring the position back into the chunk. -/
def clampPosition (scan : Scan World) : Scan World :=
  if scan.position < 0 then { scan with position := 0 }
  else if scan.size < scan.position then { scan with position := scan.size }
  else scan

/-- Does the guard of the end-of-input actions of the current state hold? -/
def eofGuardHolds : Step World Bool := do
  match ← Step.ask (machine.program.eofGuard (← get).state) with
  | none => return true
  | some (space, values) => return values.contains (← machine.conditionValue space)

def runEofActions : Step World Unit := do
  let location ← Step.ask (machine.program.eofActions (← get).state)
  if location = 0 then pure ()
  else if ← machine.eofGuardHolds then discard (machine.runList location)
  else pure ()

/-- Process the end of input: the end-of-input transition of the current state
if it has one, else its end-of-input actions. The result tells whether a
transition was taken; the scan then resumes in its target, at the end of the
chunk or at a position held back. -/
def endInput : Step World Bool := do
  let state := (← get).state
  machine.record .eof state 0
  match ← Step.ask (machine.program.eofTransition state) with
  | some transition =>
    discard (machine.take transition)
    discard (Step.ensuring machine.again clampPosition)
    return true
  | none =>
    Step.ensuring machine.runEofActions fun scan => { scan with position := scan.size }
    return false

/-! ## Ends of paths -/

def pathEnded (scan : Scan World) : Scan World :=
  if scan.ended && scan.position == scan.size &&
      decide (machine.program.firstFinal ≤ scan.state) && !scan.inError machine.program then
    { scan with accepted := true }
  else scan

/-- Go on with the state, position and pop test of a frame taken off the stack.
The result tells whether the test let it pass. -/
def enterAlternate (frame : Frame) : Step World Bool := do
  let scan ← get
  if frame.position < scan.base then throw (.staleAlternate frame.position scan.base)
  set { scan with
    state := frame.state.toNat
    position := frame.position - scan.base
    rejected := false }
  machine.record .pop frame.state.toNat frame.popTest.toNat
  discard (machine.runList frame.popTest.toNat)
  return !(← get).rejected

/-- Take frames off the stack of alternates, which holds those given, until one
may be entered. A rejected one ends as a path in the error state. -/
def popAlternates : List Frame → Step World Bool
  | [] => return false
  | frame :: rest => do
    modify Scan.dropAlternate
    if ← machine.enterAlternate frame then return true
    else
      modify fun scan => machine.pathEnded
        { scan with state := machine.program.error.getD scan.state }
      popAlternates rest

def endPath : Step World Bool := do
  modify machine.pathEnded
  machine.popAlternates (← get).alternates.frames

end Machine

end StateTables
