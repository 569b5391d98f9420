import StateTables.Encoding.Options
import StateTables.Machine.Bindings
import StateTables.Machine.Stack

/-! # Machines

A machine executes a program with callbacks of the host. The scan is what
changes while it does: the current state and position, two stacks, a trace of
events and the world of the host. Input arrives in chunks.
-/

namespace StateTables

/-- How control moves between the phases of a scan. All drivers do the same. -/
inductive DriverKind where
  /-- Jumps between labelled phases. -/
  | goto
  /-- A loop over the phase to be entered next. -/
  | phased
  /-- A loop with flags only, which cannot leave a phase early. -/
  | flagged
deriving DecidableEq, Repr

namespace DriverKind

def all : List DriverKind :=
  [.goto, .phased, .flagged]

def name : DriverKind → String
  | .goto => "goto"
  | .phased => "break"
  | .flagged => "var"

def read (name : String) : Except ChoiceError DriverKind :=
  match all.find? fun kind => Text.matchesWord kind.name name with
  | some kind => .ok kind
  | none => .error (.driver name)

def nameOfNumber (number : Int) : String :=
  StateTables.nameOfNumber (all.map name) "DriverKind" number

end DriverKind

/-- What ends a scan with an error. Positions are absolute. -/
inductive ScanError where
  | keyOutsideAlphabet (index : Nat) (key : Key)
  | callOverflow (action : String) (position : Int)
  | callUnderflow (action : String) (position : Int)
  | alternateOverflow (state : Nat) (position : Int)
  | staleAlternate (position base : Int)
deriving DecidableEq, Repr

def ScanError.failure : ScanError → Failure
  | .keyOutsideAlphabet index key => .because .keyOutsideAlphabet <|
      s!"key #{index} = " ++ toString key.signedValue
  | .callOverflow action position => .because .callOverflow s!"fcall {action} at {position}"
  | .callUnderflow action position => .because .callUnderflow s!"fret {action} at {position}"
  | .alternateOverflow state position =>
    .because .alternateOverflow s!"state {state} at {position}"
  | .staleAlternate position base =>
    .because .staleAlternate s!"alternate at {position}, chunk starts at {base}"

structure Machine (World : Type) where
  program : Program
  driver : DriverKind
  /-- The callbacks of actions. -/
  hooks : Array (Option (Callback World HookAnswer))
  /-- The callbacks of the predicates of every condition space. -/
  conditions : Array (List (Callback World Bool))
  callLimit : Int
  alternateLimit : Int
  /-- Are events recorded? -/
  recording : Bool
  /-- Are too many pending alternates not to be survived? -/
  fatalOverflow : Bool

structure MachineOptions where
  driver : DriverKind
  callLimit : Int
  alternateLimit : Int
  recording : Bool
  fatalOverflow : Bool
deriving DecidableEq, Repr

def defaultCallLimit : Int := 32

def defaultAlternateLimit : Int := 64

inductive MachineError where
  | controlUnsupported
  | unboundConditions (names : List String)
deriving DecidableEq, Repr

def MachineError.failure (program : String) : MachineError → Failure
  | .controlUnsupported => .because .machineControl program
  | .unboundConditions names => .gather <| names.map fun name =>
      .because .unboundCondition (program ++ ": " ++ Text.Quoted.text name)

structure Scan (World : Type) where
  state : Nat
  /-- The position within the chunk. -/
  position : Int
  chunk : Array Key
  /-- Does the chunk end the input? -/
  ended : Bool
  /-- The absolute position of the start of the chunk. -/
  base : Int
  /-- Did a path end in a final state at the end of input? -/
  accepted : Bool
  /-- Did a callback reject the alternate being tested? -/
  rejected : Bool
  /-- Was the scan suspended, with the alternates of the state pushed already? -/
  resumed : Bool
  /-- Is the scan over? -/
  done : Bool
  calls : FrameStack
  alternates : FrameStack
  trace : Array Event
  world : World

namespace Scan

variable {World : Type}

def size (scan : Scan World) : Int :=
  scan.chunk.size

def absolute (scan : Scan World) : Int :=
  scan.base + scan.position

def view (scan : Scan World) : View where
  state := scan.state
  position := scan.position
  base := scan.base
  chunk := scan.chunk
  callDepth := scan.calls.depth
  progress := ⟨scan.accepted, scan.alternates.depth, scan.trace⟩

def inError (program : Program) (scan : Scan World) : Bool :=
  program.error == some scan.state

def dropAlternate (scan : Scan World) : Scan World :=
  match scan.alternates.pop? with
  | some (_, alternates) => { scan with alternates := alternates }
  | none => scan

end Scan

namespace Machine

variable {World : Type}

def conditionsOf (bindings : Bindings World) (space : ConditionSpace) :
    List (Callback World Bool) × List String :=
  (space.conditions.filterMap bindings.condition?,
    space.conditions.filter fun name => (bindings.condition? name).isNone)

/-- Set up a machine. Actions may stay unbound, conditions may not. -/
def create (program : Program) (options : MachineOptions) (bindings : Bindings World) :
    Except MachineError (Machine World) :=
  if options.driver == .flagged && program.usesControl then .error .controlUnsupported
  else
    let conditions := program.spaces.map (conditionsOf bindings)
    let unbound := conditions.toList.flatMap Prod.snd
    if !unbound.isEmpty then .error (.unboundConditions unbound)
    else .ok {
      program
      driver := options.driver
      hooks := program.actions.map fun action =>
        if action.kind = .hook then bindings.hook? action.name else none
      conditions := conditions.map Prod.fst
      callLimit := options.callLimit
      alternateLimit := options.alternateLimit
      recording := options.recording
      fatalOverflow := options.fatalOverflow }

def start (machine : Machine World) (world : World) : Scan World where
  state := machine.program.start
  position := 0
  chunk := #[]
  ended := false
  base := 0
  accepted := false
  rejected := false
  resumed := false
  done := false
  calls := .empty "call" machine.callLimit
  alternates := .empty "nfa" machine.alternateLimit
  trace := #[]
  world := world

end Machine

end StateTables
