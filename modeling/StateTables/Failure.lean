/-! # Failures

Every kind of error of this library has a type of its own. What a caller sees
of any of them is a `Failure`: the reasons it can be told apart by, and its
text. A failure may have several reasons, when it gathers several errors or is
reported by one part on behalf of another.
-/

namespace StateTables

inductive Reason where
  | keyOverflow
  | keySyntax
  | diagnostics
  | keyExpression
  | overlap
  | malformedGraph
  | graphFile
  | desynchronized
  | tableLiteral
  | alternatesDisabled
  | endOfInputDisabled
  | spanTooLarge
  | machineControl
  | sourceControl
  | unboundCondition
  | keyOutsideAlphabet
  | callOverflow
  | callUnderflow
  | alternateOverflow
  | staleAlternate
deriving DecidableEq, Repr

namespace Reason

def all : List Reason :=
  [.keyOverflow, .keySyntax, .diagnostics, .keyExpression, .overlap, .malformedGraph, .graphFile,
    .desynchronized, .tableLiteral, .alternatesDisabled, .endOfInputDisabled, .spanTooLarge,
    .machineControl, .sourceControl, .unboundCondition, .keyOutsideAlphabet, .callOverflow,
    .callUnderflow, .alternateOverflow, .staleAlternate]

/-- The sentence every failure with the reason ends in. -/
def sentence : Reason → String
  | .keyOverflow => "key literal out of range for host type"
  | .keySyntax => "malformed key literal"
  | .diagnostics => "diagnostics reported"
  | .keyExpression => "malformed key expression"
  | .overlap => "overlapping transitions"
  | .malformedGraph => "malformed graph"
  | .graphFile => "invalid graph file"
  | .desynchronized => "table analyze/generate desynchronized"
  | .tableLiteral => "malformed array literal"
  | .alternatesDisabled => "graph has NFA alternates, but NFA support is off"
  | .endOfInputDisabled => "graph has EOF activity, but EOF support is off"
  | .spanTooLarge => "key span too large for flat encoding"
  | .machineControl => "var driver cannot express fcall, fret or fbreak"
  | .sourceControl => "var driver cannot express fcall, fret or fbreak"
  | .unboundCondition => "condition has no binding"
  | .keyOutsideAlphabet => "key outside of alphabet"
  | .callOverflow => "call stack overflow"
  | .callUnderflow => "fret with empty call stack"
  | .alternateOverflow => "too many pending NFA alternates"
  | .staleAlternate => "NFA alternate refers to a previous input chunk"

end Reason

structure Failure where
  reasons : List Reason
  message : String
deriving DecidableEq, Repr

namespace Failure

/-- A failure for one reason: what went wrong, then the reason's sentence. -/
def because (reason : Reason) (detail : String) : Failure :=
  ⟨[reason], detail ++ ": " ++ reason.sentence⟩

def plain (message : String) : Failure :=
  ⟨[], message⟩

def within (place : String) (failure : Failure) : Failure :=
  ⟨failure.reasons, place ++ ": " ++ failure.message⟩

/-- Several failures reported together, one per line. -/
def gather (failures : List Failure) : Failure :=
  ⟨failures.flatMap Failure.reasons, "\n".intercalate (failures.map Failure.message)⟩

end Failure

end StateTables
