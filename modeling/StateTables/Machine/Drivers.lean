import StateTables.Machine.Step

/-! # Drivers

Three ways to move control between the phases of a scan. A scan may go on
forever, when actions hold back keys again and again, so a driver is given fuel
for a number of rounds.
-/

namespace StateTables

structure ScanResult where
  /-- The position within the chunk where the scan stopped. -/
  position : Int
  state : Nat
  /-- Was the chunk exhausted, with more input expected? -/
  suspended : Bool
  /-- Did an action leave the scan? -/
  broke : Bool
  accepted : Bool
deriving DecidableEq, Repr

namespace Scan

variable {World : Type}

def result (scan : Scan World) : ScanResult where
  position := scan.position
  state := scan.state
  suspended := false
  broke := false
  accepted := scan.accepted

def atEnd (scan : Scan World) : Bool :=
  scan.position == scan.size

end Scan

/-- Repeat rounds until one has a result. -/
def Step.repeated {World α β : Type} (round : α → Step World (α ⊕ β)) :
    (fuel : Nat) → α → Step World β
  | 0, _ => Step.ask (.error .outOfFuel)
  | fuel + 1, current => do
    match ← round current with
    | .inl next => repeated round fuel next
    | .inr result => return result

namespace Machine

variable {World : Type} (machine : Machine World)

def inError : Step World Bool := do
  return (← get).inError machine.program

def advance : Step World Unit :=
  modify fun scan => { scan with position := scan.position + 1 }

def suspend : Step World ScanResult := do
  modify fun scan => { scan with resumed := true }
  return { (← get).result with suspended := true }

def leave : Step World ScanResult := do
  return { (← get).result with broke := true }

def finish : Step World ScanResult := do
  modify fun scan => { scan with done := true }
  return (← get).result

/-! ## Jumps -/

def gotoOut : Step World (Unit ⊕ ScanResult) := do
  if ← machine.endPath then return .inl ()
  else return .inr (← finish)

def gotoTestEof : Step World (Unit ⊕ ScanResult) := do
  if !(← get).ended then return .inr (← suspend)
  else if ← machine.endInput then return .inl ()
  else machine.gotoOut

/-- What follows the label for the next key. -/
def gotoResume (_ : Unit) : Step World (Unit ⊕ ScanResult) := do
  machine.pushAlternates
  if (← get).atEnd then machine.gotoTestEof
  else if ← machine.inError then machine.gotoOut
  else if (← machine.resume) = .stop then return .inr (← leave)
  else if (← machine.again) = .stop then return .inr (← leave)
  else if ← machine.inError then machine.gotoOut
  else
    advance
    return .inl ()

/-! ## Phases -/

inductive Phase where
  | resume
  | testEof
  | out
deriving DecidableEq, Repr

/-- One phase, and the phase to be entered next. -/
def phase : Phase → Step World (Phase ⊕ ScanResult)
  | .resume => do
    machine.pushAlternates
    if (← get).atEnd then return .inl .testEof
    if ← machine.inError then return .inl .out
    if (← machine.resume) = .stop then return .inr (← leave)
    if (← machine.again) = .stop then return .inr (← leave)
    if ← machine.inError then return .inl .out
    advance
    return .inl .resume
  | .testEof => do
    if !(← get).ended then return .inr (← suspend)
    return .inl (if ← machine.endInput then .resume else .out)
  | .out => do
    if ← machine.endPath then return .inl .resume
    return .inr (← finish)

/-! ## Flags -/

def pathEndsAtKey : Step World Bool := do
  if ← machine.inError then return true
  discard machine.resume
  discard machine.again
  if ← machine.inError then return true
  advance
  return false

def flaggedEnd (out : Bool) : Step World (Unit ⊕ ScanResult) := do
  let goesOn ← if out then machine.endPath else pure true
  if goesOn then return .inl () else return .inr (← finish)

def flaggedRound (_ : Unit) : Step World (Unit ⊕ ScanResult) := do
  machine.pushAlternates
  if (← get).atEnd then
    if !(← get).ended then return .inr (← suspend)
    else machine.flaggedEnd (!(← machine.endInput))
  else machine.flaggedEnd (← machine.pathEndsAtKey)

/-! ## Scanning -/

/-- Drive the scan until it is suspended, left or over. -/
def driveBy (kind : DriverKind) (fuel : Nat) : Step World ScanResult :=
  match kind with
  | .goto => Step.repeated machine.gotoResume fuel ()
  | .phased => Step.repeated machine.phase fuel .resume
  | .flagged => Step.repeated machine.flaggedRound fuel ()

/-- The first key outside of the alphabet. -/
def strayKey (chunk : Array Key) : Option ScanError :=
  match chunk.findIdx? fun key => !machine.program.alphabet.contains key with
  | none => none
  | some index => chunk[index]?.map (.keyOutsideAlphabet index)

structure Report where
  result : ScanResult
  error : Option ScanError
deriving DecidableEq, Repr

/-- Scan a chunk of input. After the end of a scan nothing happens. -/
def execute (fuel : Nat) (scan : Scan World) (chunk : Array Key) (ended : Bool) :
    Except Fault (Report × Scan World) :=
  if scan.done then .ok (⟨scan.result, none⟩, scan)
  else match machine.strayKey chunk with
    | some problem => .ok (⟨scan.result, some problem⟩, scan)
    | none =>
      let scan := { scan with
        base := scan.base + scan.position, chunk := chunk, position := 0, ended := ended }
      match machine.driveBy machine.driver fuel scan with
      | .error fault => .error fault
      | .ok (.ok result, scan) => .ok (⟨result, none⟩, scan)
      | .ok (.error problem, scan) => .ok (⟨scan.result, some problem⟩, scan)

end Machine

end StateTables
