import StateTables.Graph.Action
import StateTables.Machine.View

/-! # Bindings

Bindings connect the names of actions and conditions to callbacks of the host.
They nest like scopes: a name that is not bound in a scope is looked up in the
enclosing ones. Actions and conditions have separate names.
-/

namespace StateTables

def Callback (World α : Type) : Type :=
  View → World → Except Fault (α × World)

inductive HookAnswer where
  | done
  /-- The alternate that is being tested is not to be taken. -/
  | reject
deriving DecidableEq, Repr

inductive Bound (World : Type) where
  | action (hook : Callback World HookAnswer)
  | condition (test : Callback World Bool)

inductive BindingKind where
  | action
  | condition
deriving DecidableEq, Repr

namespace BindingKind

def name : BindingKind → String
  | .action => "action"
  | .condition => "cond"

/-- The kind with a number. Numbers start at one. -/
def numbered? (number : Int) : Option BindingKind :=
  if number = 1 then some .action else if number = 2 then some .condition else none

def nameOfNumber (number : Int) : String :=
  match numbered? number with
  | some kind => kind.name
  | none => "BindingKind(" ++ toString number ++ ")"

end BindingKind

structure Binding (World : Type) where
  name : String
  bound : Bound World

namespace Binding

variable {World : Type}

def kind (binding : Binding World) : BindingKind :=
  match binding.bound with
  | .action _ => .action
  | .condition _ => .condition

def text (binding : Binding World) : String :=
  "<" ++ binding.kind.name ++ " " ++ binding.name ++ ">"

def isFor (name : String) (kind : BindingKind) (binding : Binding World) : Bool :=
  binding.name == name && binding.kind == kind

end Binding

structure Scope (World : Type) where
  name : String
  bindings : List (Binding World)

namespace Scope

variable {World : Type}

def empty (name : String) : Scope World :=
  ⟨name, []⟩

def text (scope : Scope World) : String :=
  "<bindings " ++ scope.name ++ ">"

def size (scope : Scope World) : Nat :=
  scope.bindings.length

/-- Bind a name, in place of what it was bound to. Without a name there is
nothing to bind. -/
def bind? (scope : Scope World) (binding : Binding World) : Option (Scope World) :=
  if binding.name.isEmpty then none
  else some { scope with
    bindings := binding :: scope.bindings.filter fun other =>
      !other.isFor binding.name binding.kind }

end Scope

abbrev Bindings (World : Type) := List (Scope World)

namespace Bindings

variable {World : Type}

/-- The binding of a name, and how many scopes further out it was found. -/
def lookup (name : String) (kind : BindingKind) :
    Bindings World → Option (Binding World × Nat)
  | [] => none
  | scope :: outer =>
    match scope.bindings.find? (Binding.isFor name kind) with
    | some binding => some (binding, 0)
    | none => (lookup name kind outer).map fun (binding, distance) => (binding, distance + 1)

def hook? (bindings : Bindings World) (name : String) : Option (Callback World HookAnswer) :=
  match bindings.lookup name .action with
  | some (⟨_, .action hook⟩, _) => some hook
  | _ => none

def condition? (bindings : Bindings World) (name : String) : Option (Callback World Bool) :=
  match bindings.lookup name .condition with
  | some (⟨_, .condition test⟩, _) => some test
  | _ => none

end Bindings

end StateTables
