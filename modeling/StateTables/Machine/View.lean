import StateTables.Alphabet.Basic
import StateTables.Machine.Program

/-! # What a machine shows

While it scans, a machine records what happens, and lets the callbacks of the host
look at where it stands.
-/

namespace StateTables

inductive EventKind where
  /-- A transition was taken into a state, with actions at a place. -/
  | transition
  /-- An action was executed in a state. -/
  | action
  /-- An alternate to a state was pushed. -/
  | push
  /-- An alternate to a state was popped, with its test at a place. -/
  | pop
  /-- Input ended in a state. -/
  | eof
deriving DecidableEq, Repr

def EventKind.code : EventKind → Nat
  | .transition => 0
  | .action => 1
  | .push => 2
  | .pop => 3
  | .eof => 4

structure Event where
  kind : EventKind
  state : Nat
  action : Nat
deriving DecidableEq, Repr

/-- What paths have come to so far. -/
structure Progress where
  /-- Did a path end in a final state at the end of input? -/
  accepted : Bool
  alternateDepth : Nat
  /-- The events recorded so far. -/
  trace : Array Event
deriving DecidableEq, Repr

/-- Zero is the progress of a scan that has not begun. -/
instance noProgress : OfNat Progress 0 := ⟨⟨false, 0, #[]⟩⟩

structure View where
  state : Nat
  /-- The position within the chunk. -/
  position : Int
  /-- The absolute position of the start of the chunk. -/
  base : Int
  chunk : Array Key
  callDepth : Nat
  progress : Progress
deriving DecidableEq, Repr

namespace View

def accepted (view : View) : Bool :=
  view.progress.accepted

def alternateDepth (view : View) : Nat :=
  view.progress.alternateDepth

def trace (view : View) : Array Event :=
  view.progress.trace

def absolute (view : View) : Int :=
  view.base + view.position

/-- The current key, if the position lies within the chunk. -/
def key? (view : View) : Option Key :=
  match view.position with
  | .ofNat index => view.chunk[index]?
  | .negSucc _ => none

/-- The current key. There is one in actions and conditions of key transitions. -/
def key (view : View) : Except Fault Key :=
  match view.key? with
  | some key => .ok key
  | none => .error (.outsideChunk view.position)

end View

end StateTables
