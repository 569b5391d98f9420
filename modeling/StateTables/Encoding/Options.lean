import StateTables.Failure
import StateTables.Graph.Action
import StateTables.Text.Folding
import StateTables.Text.Quoted

/-! # Options of encodings

Which tables a graph is laid out in. The three kinds of encodings differ only in
how the transition for a state and a key is found.
-/

namespace StateTables

inductive EncodingKind where
  /-- A dense row of transitions per state. -/
  | flat
  /-- Sorted keys per state, searched by bisection. -/
  | binary
  /-- No key tables: comparisons, to be emitted as code. -/
  | switch
deriving DecidableEq, Repr

namespace EncodingKind

def all : List EncodingKind :=
  [.flat, .binary, .switch]

def name : EncodingKind → String
  | .flat => "flat"
  | .binary => "bin"
  | .switch => "switch"

/-- The kind with a name, whatever the case of its letters. -/
def named? (name : String) : Option EncodingKind :=
  all.find? fun kind => Text.matchesWord kind.name name

def nameOfNumber (number : Int) : String :=
  StateTables.nameOfNumber (all.map name) "Kind" number

end EncodingKind

/-- Does a binary encoding address transitions through a table of indices? -/
inductive IndicesMode where
  /-- If that makes the tables smaller. -/
  | auto
  | always
  | never
deriving DecidableEq, Repr

def IndicesMode.named? : String → Option IndicesMode
  | "" => some .auto
  | "auto" => some .auto
  | "on" => some .always
  | "off" => some .never
  | _ => none

structure EncodingOptions where
  kind : EncodingKind
  /-- Binary encodings only. -/
  indices : IndicesMode
  /-- Flat encodings only: are keys mapped to classes first? -/
  classMap : Bool
  /-- Flat encodings only: the largest number of keys in a row. Zero stands for
  the default. -/
  maxSpan : UInt64
  /-- Are alternates supported? -/
  alternates : Bool
  /-- Are end-of-input actions and transitions supported? -/
  endOfInput : Bool
deriving DecidableEq, Repr

inductive ChoiceError where
  | encoding (name : String)
  | indices (name : String)
  | driver (name : String)
deriving DecidableEq, Repr

def ChoiceError.failure : ChoiceError → Failure
  | .encoding name => .plain ("unknown encoding " ++ Text.Quoted.text name)
  | .indices name => .plain ("unknown indices mode " ++ Text.Quoted.text name)
  | .driver name => .plain ("unknown driver " ++ Text.Quoted.text name)

namespace EncodingKind

def read (name : String) : Except ChoiceError EncodingKind :=
  match named? name with
  | some kind => .ok kind
  | none => .error (.encoding name)

end EncodingKind

namespace EncodingOptions

def defaultMaxSpan : UInt64 := 65536

def spanLimit (options : EncodingOptions) : UInt64 :=
  if options.maxSpan = 0 then defaultMaxSpan else options.maxSpan

def read (encoding indices : String) (classMap : Bool) (maxSpan : UInt64) :
    Except ChoiceError EncodingOptions := do
  let kind ← EncodingKind.read encoding
  match IndicesMode.named? indices with
  | none => throw (.indices indices)
  | some mode => return ⟨kind, mode, classMap, maxSpan, true, true⟩

end EncodingOptions

end StateTables
