import StateTables.Command.Directory
import StateTables.Command.Help
import StateTables.Encoding.Summary
import StateTables.Graph.Dot
import StateTables.GraphFile.Build
import StateTables.Session.Basic
import StateTables.Source.Generate
import StateTables.Table.Literal
import StateTables.Text.Tag

/-! # Running the program

What a command line prints and writes, given the files it can see.
-/

namespace StateTables.Command

/-! ## Tasks -/

/-- Read a graph file and build the graph. Problems of reading it name the file. -/
def loadGraph (directory : Directory) (path : String) : Except Failure Graph := do
  let text ← directory.read path
  match GraphFile.load text with
  | .ok graph => .ok graph
  | .error (.unreadable problem) =>
    .error ((GraphFileError.unreadable problem).failure.within path)
  | .error problem => .error problem.failure

def loadEncoding (settings : Settings) (directory : Directory) (path : String) :
    Except Failure Encoding :=
  match EncodingOptions.read settings.encoding settings.indices settings.classes
      settings.maxSpan with
  | .error problem => .error problem.failure
  | .ok options => do
    let graph ← loadGraph directory path
    match graph.encode options with
    | .ok encoding => .ok encoding
    | .error problem => .error ((problem.failure graph.name).within path)

def generate (settings : Settings) (directory : Directory) (path : String) :
    Except Failure String :=
  match DriverKind.read settings.driver with
  | .error problem => .error problem.failure
  | .ok driver => do
    let encoding ← loadEncoding settings directory path
    match Source.generate encoding ⟨settings.package, settings.tables, settings.type, driver,
        settings.callDepth, settings.alternateDepth⟩ with
    | .ok source => .ok source
    | .error problem => .error (problem.failure.within path)

def note (text : String) : String :=
  ">>: " ++ Text.Tag.plain text ++ "\n"

def complaint (failure : Failure) : String :=
  "Error: " ++ failure.message ++ "\n"

def shownComplaint (failure : Failure) : String :=
  Text.Tag.plain (complaint failure)

def tablesText (settings : Settings) (encoding : Encoding) : String :=
  let lines := (alignedLines 4 encoding.summaryRows).map (· ++ "\n")
  let literals := encoding.columns.map fun column =>
    column.name ++ " = " ++ column.literal ++ "\n"
  String.join lines ++ "\n" ++ note encoding.summaryLine ++
    if settings.literals then String.join literals else ""

structure Outcome where
  output : String
  errors : String
  directory : Directory
  failure : Option Failure
  /-- A session to go on with. -/
  session : Option Session

namespace Outcome

def printed (directory : Directory) (output : String) : Outcome :=
  ⟨output, "", directory, none, none⟩

def failed (directory : Directory) (output : String) (failure : Failure) : Outcome :=
  ⟨output, complaint failure, directory, some failure, none⟩

def refused (directory : Directory) (failure : Failure) : Outcome :=
  failed directory (shownComplaint failure) failure

end Outcome

def runGenerate (settings : Settings) (directory : Directory) (path : String) : Outcome :=
  match generate settings directory path with
  | .error failure => .refused directory failure
  | .ok source =>
    if settings.output.isEmpty || settings.output = "-" then .printed directory source
    else match directory.write settings.output source with
      | .error failure => .failed directory "" failure
      | .ok after => .printed after <| note <| "wrote " ++ settings.output ++ " (" ++
          toString source.utf8ByteSize ++ " bytes)"

def runTables (settings : Settings) (directory : Directory) (path : String) : Outcome :=
  match loadEncoding settings directory path with
  | .error failure => .refused directory failure
  | .ok encoding => .printed directory (tablesText settings encoding)

def runDot (directory : Directory) (path : String) : Outcome :=
  match loadGraph directory path with
  | .error failure => .refused directory failure
  | .ok graph => .printed directory graph.dot

def startFailure (encoding : Encoding) : Session.StartError → Failure
  | .unnamed => .plain "binding without a name"
  | .machine problem => problem.failure encoding.name

def runScan (settings : Settings) (driver : String) (directory : Directory) (path : String) :
    Outcome :=
  match loadEncoding settings directory path with
  | .error failure => .refused directory failure
  | .ok encoding =>
    match DriverKind.read driver with
    | .error problem => .failed directory "" problem.failure
    | .ok driver =>
      match Session.start encoding driver (settings.trace == "Debug") with
      | .error problem => .refused directory (startFailure encoding problem)
      | .ok session =>
        { Outcome.printed directory (note ("scanning with " ++ encoding.name ++ " (" ++
            driver.name ++ " driver), quit with <ctrl>D")) with session := some session }

/-! ## Command lines -/

/-- The settings of a run: those of the flags, and those of a configuration file if
the flags name one. -/
def settingsOf (given : Assignments) (directory : Directory) : Except Failure Settings :=
  let settings := Settings.ofAssignments given
  if settings.configuration.isEmpty then .ok settings
  else do
    let text ← directory.read settings.configuration
    let configuration ← Configuration.read settings.configuration text
    return configuration.apply given settings

def Invocation.inputs : Invocation → List String
  | .perform _ given path => [path, (Settings.ofAssignments given).configuration]
  | .explain given _ => [(Settings.ofAssignments given).configuration]
  | .describe _ => []

def Invocation.result : Invocation → String
  | .perform _ given _ => (Settings.ofAssignments given).output
  | _ => ""

def backQuoted (word : String) : String :=
  let plain (character : Char) := character = '\t' || character.toNat != 0x60 &&
    character.toNat ≥ 0x20 && character.toNat != 0x7f && character.toNat != 0xfeff
  if word.toList.all plain then "`" ++ word ++ "`" else Text.Quoted.text word

def runExplain (directory : Directory) (words : List String) : Outcome :=
  match findTopic words with
  | .ok (topic, _) => .printed directory topic.manual
  | .error _ =>
    { Outcome.printed directory "" with
      errors := "Unknown help topic [" ++ " ".intercalate (words.map backQuoted) ++ "]\n" ++
        Topic.program.usage }

/-- Run an invocation. A configuration file chooses a driver for generated source
only. -/
def Invocation.run (directory : Directory) : Invocation → Outcome
  | .describe topic => .printed directory topic.manual
  | .explain given words =>
    match settingsOf given directory with
    | .error failure => .failed directory "" failure
    | .ok _ => runExplain directory words
  | .perform task given path =>
    match settingsOf given directory with
    | .error failure => .failed directory "" failure
    | .ok settings =>
      match task with
      | .generate => runGenerate settings directory path
      | .tables => runTables settings directory path
      | .dot => runDot directory path
      | .scan => runScan settings (Settings.ofAssignments given).driver directory path

def UsageError.outcome (directory : Directory) (problem : UsageError) : Outcome :=
  let failed := Outcome.failed directory "" (.plain problem.message)
  match problem with
  | .unknownTopic _ =>
    { failed with errors := failed.errors ++ "Run '" ++ program ++ " --help' for usage.\n" }
  | _ => failed

def run (arguments : List String) (directory : Directory) : Outcome :=
  match Invocation.parse arguments with
  | .error problem => problem.outcome directory
  | .ok invocation => invocation.run directory

end StateTables.Command
