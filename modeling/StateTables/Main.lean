import StateTables.Command.Run

/-! # The program

Reads the files a command line names, runs it, and writes what came of it.
-/

namespace StateTables.Command.Console

def fuel : Nat := 1000000000

def readFile? (path : String) : IO (Option String) := do
  if path.isEmpty then return none
  try
    let bytes ← IO.FS.readBinFile path
    return some (Text.Utf8.decodeLossy bytes.toList)
  catch _ => return none

def isFolder (name : String) : IO Bool := do
  try
    (← IO.FS.realPath name).isDir
  catch _ => return false

def waypoints (path : String) : List String :=
  let start : Location := if path.startsWith "/" then ["/"] else []
  let names := (path.splitOn "/").filter (!·.isEmpty)
  (List.range (names.length + 1)).map fun count =>
    ((names.take count).foldl Location.enter start).name

def directoryFor (invocation : Invocation) : IO Directory := do
  let mut files := []
  let mut folders := []
  for path in invocation.result :: invocation.inputs do
    for name in waypoints path do
      if ← isFolder name then folders := name :: folders
      else match ← readFile? name with
        | some text => files := (name, text) :: files
        | none => pure ()
  return ⟨files, folders⟩

def writeFiles (before after : Directory) : IO Unit := do
  for (name, text) in before.changes after do
    IO.FS.writeFile name text

partial def converse (session : Session) : IO Unit := do
  let output ← IO.getStdout
  output.putStr (session.encoding.name ++ "> ")
  output.flush
  let line ← (← IO.getStdin).getLine
  if line.isEmpty then output.putStr "Good bye!\n"
  else
    let request := Text.trim line
    if request.isEmpty then converse session
    else match session.respond fuel request with
      | .error _ => output.putStr "Good bye!\n"
      | .ok (session, response) =>
        output.putStr response.output
        match response.refusal with
        | some refusal => output.putStr (shownComplaint refusal.failure)
        | none => pure ()
        if response.quits then output.putStr "Good bye!\n" else converse session

def conclude (before : Directory) (outcome : Outcome) : IO UInt32 := do
  writeFiles before outcome.directory
  (← IO.getStdout).putStr outcome.output
  (← IO.getStderr).putStr outcome.errors
  match outcome.session with
  | some session => converse session
  | none => pure ()
  return if outcome.failure.isSome then 1 else 0

end StateTables.Command.Console

open StateTables.Command Console in
def main (arguments : List String) : IO UInt32 := do
  match Invocation.parse arguments with
  | .error problem => conclude ⟨[], []⟩ (problem.outcome ⟨[], []⟩)
  | .ok invocation =>
    let directory ← directoryFor invocation
    conclude directory (invocation.run directory)
