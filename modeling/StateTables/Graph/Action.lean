/-! # Actions and conditions

Actions are executed by a machine: hooks call back into the host, all other
kinds move the machine itself. Conditions are named predicates of the host; the
predicates of a space, each contributing one bit, form a condition value.
-/

namespace StateTables

inductive ActionKind where
  /-- Host code or a callback. -/
  | hook
  /-- Jump to a state and skip the remaining actions. -/
  | goto
  /-- Set the next state and go on with the actions. -/
  | next
  /-- Push the current target and jump to a state. -/
  | call
  /-- Return to the state on top of the call stack. -/
  | ret
  /-- Consume the current key and leave the scan. -/
  | stop
  /-- Do not consume the current key. -/
  | hold
deriving DecidableEq, Repr

namespace ActionKind

def all : List ActionKind :=
  [.hook, .goto, .next, .call, .ret, .stop, .hold]

def name : ActionKind → String
  | .hook => "hook"
  | .goto => "goto"
  | .next => "next"
  | .call => "call"
  | .ret => "ret"
  | .stop => "break"
  | .hold => "hold"

def named? (name : String) : Option ActionKind :=
  all.find? fun kind => kind.name == name

def isControl : ActionKind → Bool
  | .call => true
  | .ret => true
  | .stop => true
  | _ => false

def needsTarget : ActionKind → Bool
  | .goto => true
  | .next => true
  | .call => true
  | _ => false

end ActionKind

/-- The name for a number that stands for one of some values: the value's own
name, or the number set off by the kind of thing it is. -/
def nameOfNumber (names : List String) (noun : String) (number : Int) : String :=
  match number with
  | .ofNat index => names[index]?.getD (noun ++ "(" ++ toString number ++ ")")
  | .negSucc _ => noun ++ "(" ++ toString number ++ ")"

/-- An action. Its number is its position among the actions of the graph. An
action without code is dispatched by its name. -/
structure Action where
  name : String
  kind : ActionKind
  code : String
  /-- The target state of a jump or call. -/
  target : Option Nat
deriving DecidableEq, Repr

/-- Does a place in the table of actions stand for "no actions"? -/
def isNoActions (location : UInt32) : Bool :=
  location == 0

def Action.text (action : Action) : String :=
  match action.target with
  | some target => action.name ++ "(" ++ action.kind.name ++ "→" ++ toString target ++ ")"
  | none => action.name ++ "(" ++ action.kind.name ++ ")"

/-- A packed condition value: bit `i` is set iff predicate `i` holds. -/
abbrev ConditionValue := UInt64

namespace ConditionValue

/-- The value with a single bit set; bits beyond the width do not exist. -/
def bit (index : Nat) : ConditionValue :=
  if index < 64 then UInt64.ofNat (Nat.pow 2 index) else 0

def has (value : ConditionValue) (index : Nat) : Bool :=
  value &&& bit index != 0

end ConditionValue

/-- An ordered list of predicate names. -/
structure ConditionSpace where
  id : Nat
  conditions : List String
deriving DecidableEq, Repr

namespace ConditionSpace

def size (space : ConditionSpace) : Nat :=
  space.conditions.length

/-- The number of condition values of the space, modulo 2^64. -/
def combinations (space : ConditionSpace) : UInt64 :=
  ConditionValue.bit space.size

def text (space : ConditionSpace) : String :=
  "<" ++ ",".intercalate space.conditions ++ ">"

end ConditionSpace

end StateTables
