/-! # Bounded stacks

A machine has two stacks of frames: one for calls and one for pending
alternates. Each has a limit, and remembers the greatest depth it has reached
since it was last emptied.
-/

namespace StateTables

/-- A state to go on in. For an alternate also the absolute position to go on
at, and the place of the actions that test whether it may be taken. -/
structure Frame where
  state : Int
  position : Int
  popTest : Int
deriving DecidableEq, Repr

def Frame.text (frame : Frame) : String :=
  "<frame state=" ++ toString frame.state ++ " pos=" ++ toString frame.position ++ ">"

structure FrameStack where
  name : String
  limit : Int
  /-- The latest frame first. -/
  frames : List Frame
  peak : Nat
deriving DecidableEq, Repr

namespace FrameStack

def empty (name : String) (limit : Int) : FrameStack :=
  ⟨name, limit, [], 0⟩

def depth (stack : FrameStack) : Nat :=
  stack.frames.length

def isEmpty (stack : FrameStack) : Bool :=
  stack.frames.isEmpty

/-- The latest frame, and whether it is the only one. -/
def current? (stack : FrameStack) : Option (Frame × Bool) :=
  match stack.frames with
  | [] => none
  | frame :: rest => some (frame, rest.isEmpty)

/-- Push a frame, unless the stack is full. -/
def push? (stack : FrameStack) (frame : Frame) : Option FrameStack :=
  if stack.limit ≤ stack.depth then none
  else some { stack with
    frames := frame :: stack.frames
    peak := max stack.peak (stack.depth + 1) }

def pop? (stack : FrameStack) : Option (Frame × FrameStack) :=
  match stack.frames with
  | [] => none
  | frame :: rest => some (frame, { stack with frames := rest })

def reset (stack : FrameStack) : FrameStack :=
  { stack with frames := [], peak := 0 }

end FrameStack

end StateTables
