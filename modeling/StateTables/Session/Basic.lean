import StateTables.Machine.Drivers
import StateTables.Machine.Tables
import StateTables.Session.Request

/-! # Sessions

A session is an interactive scan. Hooks are counted and printed, conditions are
switches that requests set.
-/

namespace StateTables

namespace Session

structure Board where
  /-- What was printed since the request at hand came in. -/
  output : String
  /-- How often hooks ran since the start state was left. -/
  hooks : List (String × Nat)
  switches : List (String × Bool)
deriving DecidableEq, Repr

namespace Board

def print (board : Board) (text : String) : Board :=
  { board with output := board.output ++ text }

def count (name : String) : List (String × Nat) → List (String × Nat)
  | [] => [(name, 1)]
  | (other, runs) :: rest =>
    if other = name then (other, runs + 1) :: rest else (other, runs) :: count name rest

def set (board : Board) (name : String) (value : Bool) : Board :=
  { board with switches := board.switches.map fun (other, before) =>
      (other, if other = name then value else before) }

end Board

def hook (name : String) : Callback Board HookAnswer := fun view board =>
  .ok (.done, { board.print ("  " ++ name ++ " @" ++ toString view.absolute ++ "\n") with
    hooks := Board.count name board.hooks })

def switch (name : String) : Callback Board Bool := fun _ board =>
  .ok ((board.switches.lookup name).getD false, board)

def conditionNames (encoding : Encoding) : List String :=
  encoding.spaces.toList.flatMap fun space => space.conditions

/-- The callbacks for all hooks and conditions of an encoding. There are none if
one of them has no name. -/
def bindings? (encoding : Encoding) : Option (Bindings Board) := do
  let hooks := encoding.actions.toList.filter fun action => action.kind == .hook
  let scope ← hooks.foldlM (fun scope action =>
    scope.bind? ⟨action.name, .action (hook action.name)⟩) (Scope.empty "scan")
  let scope ← (conditionNames encoding).foldlM (fun scope name =>
    scope.bind? ⟨name, .condition (switch name)⟩) scope
  return [scope]

end Session

structure Session where
  encoding : Encoding
  machine : Machine Session.Board
  scan : Scan Session.Board
  /-- Are the events of scans printed? -/
  showsEvents : Bool
  /-- The number of events printed. -/
  seen : Nat

namespace Session

inductive StartError where
  /-- A hook or condition has no name. -/
  | unnamed
  | machine (problem : MachineError)
deriving DecidableEq, Repr

def start (encoding : Encoding) (driver : DriverKind) (showsEvents : Bool) :
    Except StartError Session :=
  match bindings? encoding with
  | none => .error .unnamed
  | some bindings =>
    let options : MachineOptions := ⟨driver, defaultCallLimit, defaultAlternateLimit, true, false⟩
    match Machine.create encoding.program options bindings with
    | .error problem => .error (.machine problem)
    | .ok machine =>
      let switches := (conditionNames encoding).map fun name => (name, false)
      .ok ⟨encoding, machine, machine.start ⟨"", [], switches⟩, showsEvents, 0⟩

def board (session : Session) : Board :=
  session.scan.world

def changeBoard (session : Session) (change : Board → Board) : Session :=
  { session with scan := { session.scan with world := change session.board } }

def print (session : Session) (text : String) : Session :=
  session.changeBoard fun board => board.print text

def reset (session : Session) : Session :=
  { session with
    scan := session.machine.start { session.board with hooks := [] }
    seen := 0 }

def eventLine (session : Session) (event : Event) : String :=
  match event.kind with
  | .transition => s!"trans → {event.state}, actions @{event.action}\n"
  | .action =>
    "action " ++ ((session.encoding.actions[event.action]?.map Action.name).getD "") ++ "\n"
  | .push => s!"push alternate {event.state}\n"
  | .pop => s!"pop alternate {event.state}\n"
  | .eof => s!"EOF in {event.state}\n"

def printEvents (session : Session) : Session :=
  let trace := session.scan.trace
  let lines := (trace.toList.drop session.seen).map session.eventLine
  { (if session.showsEvents then session.print (String.join lines) else session) with
    seen := trace.size }

def standing (session : Session) (result : ScanResult) : String :=
  if result.accepted then "accepted"
  else if session.scan.inError session.machine.program then "error"
  else if result.broke then "break"
  else if result.suspended then "suspended"
  else "running"

def scanKeys (fuel : Nat) (session : Session) (keys : List Key) (ended : Bool) :
    Except Fault (Session × Option Refusal) := do
  let (report, scan) ← session.machine.execute fuel session.scan keys.toArray ended
  let session := { session with scan := scan }.printEvents
  match report.error with
  | some problem => return (session, some (.scan problem))
  | none =>
    let result := report.result
    return (session.print <| session.standing result ++ ": cs=" ++ toString result.state ++
      " p=" ++ toString result.position ++ "\n", none)

def textKeys (text : String) : List Key :=
  text.toList.map fun character => .ofInt character.toNat

def setSwitch (session : Session) (name value : String) : Session × Option Refusal :=
  if (session.board.switches.lookup name).isNone then (session, some (.unknownCondition name))
  else match switchValue? value with
    | some on => (session.changeBoard fun board => board.set name on, none)
    | none => (session, some (.conditionValue value))

def meet (fuel : Nat) (session : Session) : Request → Except Fault (Session × Option Refusal)
  | .scan text => session.reset.scanKeys fuel (textKeys text) true
  | .quit => .ok (session, none)
  | .reset => .ok (session.reset, none)
  | .finish => session.scanKeys fuel [] true
  | .feed text => session.scanKeys fuel (textKeys text) false
  | .keys expression =>
    match session.encoding.alphabet.readKeySequence expression with
    | .ok keys => session.scanKeys fuel keys false
    | .error problem => .ok (session, some (.keys expression problem))
  | .switch name value => .ok (session.setSwitch name value)
  | .unknown command => .ok (session, some (.unknownCommand command))

structure Response where
  /-- Is the session to end? -/
  quits : Bool
  output : String
  refusal : Option Refusal
deriving DecidableEq, Repr

def respond (fuel : Nat) (session : Session) (line : String) :
    Except Fault (Session × Response) := do
  let request := Request.ofLine line
  let fresh := session.changeBoard fun board => { board with output := "" }
  let (session, refusal) ← fresh.meet fuel request
  return (session, ⟨request == .quit, session.board.output, refusal⟩)

end Session

end StateTables
