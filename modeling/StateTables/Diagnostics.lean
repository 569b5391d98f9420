import StateTables.Failure

/-! # Diagnostics

User-facing messages that accumulate while processing goes on. Results are to
be trusted only if none was reported.
-/

namespace StateTables

structure Diagnostics where
  messages : List String
deriving DecidableEq, Repr

namespace Diagnostics

def none : Diagnostics :=
  ⟨[]⟩

def report (diagnostics : Diagnostics) (message : String) : Diagnostics :=
  ⟨diagnostics.messages ++ [message]⟩

def count (diagnostics : Diagnostics) : Nat :=
  diagnostics.messages.length

def failure? (diagnostics : Diagnostics) : Option Failure :=
  if diagnostics.count = 0 then Option.none
  else some (.because .diagnostics
    (toString diagnostics.count ++ " error(s): " ++ "; ".intercalate diagnostics.messages))

end Diagnostics

end StateTables
