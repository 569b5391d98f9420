import StateTables.Command.Flag
import StateTables.Failure
import StateTables.Machine.Basic
import StateTables.Yaml.Shape

/-! # Settings

All that can be chosen on the command line. A configuration file may choose some
of it too; flags that are given win.
-/

namespace StateTables.Command

structure Settings where
  /-- The name of a configuration file, or nothing. -/
  configuration : String
  trace : String
  encoding : String
  indices : String
  classes : Bool
  maxSpan : UInt64
  driver : String
  package : String
  tables : String
  type : String
  output : String
  callDepth : Int
  alternateDepth : Int
  literals : Bool
deriving DecidableEq, Repr

/-! ## Flags -/

def commonFlags : List Flag :=
  [⟨"classes", none, .switch, "Map keys through a character class table (flat)", "false"⟩,
    ⟨"config", none, .text, "YAML configuration file", ""⟩,
    ⟨"encoding", some 'e', .text, "Table encoding [flat|bin|switch]", "bin"⟩,
    ⟨"indices", none, .text, "Address transitions through indices [auto|on|off] (bin)", "auto"⟩,
    ⟨"max-span", none, .word, "Largest key span of a table row (flat)", "0"⟩,
    ⟨"trace", none, .text, "Trace level [Debug|Info|Error]", "Error"⟩]

def generateFlags : List Flag :=
  [⟨"driver", some 'd', .text, "Control flow of the generated machine [goto|break|var]", "goto"⟩,
    ⟨"nfa", none, .number, "Maximum pending NFA alternates", toString defaultAlternateLimit⟩,
    ⟨"output", some 'o', .text, "Output file (default stdout)", ""⟩,
    ⟨"package", some 'p', .text, "Package clause of the output", ""⟩,
    ⟨"prefix", none, .text, "Prefix of generated tables and constants", ""⟩,
    ⟨"stack", none, .number, "Call stack depth", toString defaultCallLimit⟩,
    ⟨"type", none, .text, "Name of the generated machine type", ""⟩]

def tablesFlags : List Flag :=
  [⟨"literals", some 'l', .switch, "Print tables as Go array literals", "false"⟩]

def scanFlags : List Flag :=
  [⟨"driver", some 'd', .text, "Driver of the machine [goto|break|var]", "goto"⟩]

namespace Settings

def ofAssignments (assignments : Assignments) : Settings :=
  let text name initial := (assignments.value? name).getD initial
  let switch name := ((assignments.value? name).bind truth?).getD false
  let number name (initial : Int) := match assignments.value? name with
    | some value =>
      (Literal.Integer.readSigned Literal.Integer.readUnsigned value.toList).toOption.getD initial
    | none => initial
  let word name := match assignments.value? name with
    | some value => (Literal.Integer.readUnsigned value.toList).toOption.getD 0
    | none => 0
  { configuration := text "config" ""
    trace := text "trace" "Error"
    encoding := text "encoding" "bin"
    indices := text "indices" "auto"
    classes := switch "classes"
    maxSpan := .ofNat (word "max-span")
    driver := text "driver" "goto"
    package := text "package" ""
    tables := text "prefix" ""
    type := text "type" ""
    output := text "output" ""
    callDepth := number "stack" defaultCallLimit
    alternateDepth := number "nfa" defaultAlternateLimit
    literals := switch "literals" }

end Settings

/-! ## Configuration files -/

structure Configuration where
  encoding : String
  classes : Bool
  indices : String
  driver : String
  package : String
  tables : String
  type : String
deriving DecidableEq, Repr

namespace Configuration

open Yaml (Shape)

def empty : Configuration :=
  ⟨"", false, "", "", "", "", ""⟩

/-- Other fields of the file are passed over. -/
def shape : Shape Configuration :=
  .record "main.config" true empty
    [.of "encoding" .text fun encoding choice => { choice with encoding := encoding },
      .of "classes" .flag fun classes choice => { choice with classes := classes },
      .of "indices" .text fun indices choice => { choice with indices := indices },
      .of "driver" .text fun driver choice => { choice with driver := driver },
      .of "package" .text fun package choice => { choice with package := package },
      .of "prefix" .text fun tables choice => { choice with tables := tables },
      .of "type" .text fun type choice => { choice with type := type }]

/-- Read a configuration file. A file without a document chooses nothing. -/
def read (path text : String) : Except Failure Configuration :=
  match shape.ofDocument text with
  | .ok configuration => .ok configuration
  | .error .noDocument => .ok empty
  | .error problem => .error (.plain ("config " ++ path ++ ": " ++ problem.message))

def apply (configuration : Configuration) (given : Assignments) (settings : Settings) :
    Settings :=
  let choose name (choice : String) (setting : String) :=
    if choice.isEmpty || given.gives name then setting else choice
  { settings with
    encoding := choose "encoding" configuration.encoding settings.encoding
    indices := choose "indices" configuration.indices settings.indices
    driver := choose "driver" configuration.driver settings.driver
    package := choose "package" configuration.package settings.package
    tables := choose "prefix" configuration.tables settings.tables
    type := choose "type" configuration.type settings.type
    classes := settings.classes || (configuration.classes && !given.gives "classes") }

end Configuration

end StateTables.Command
