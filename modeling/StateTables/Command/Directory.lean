import StateTables.Failure

/-! # Files

The files that a run of the program can see, by their names from the folder it
runs in. A path is followed name by name: all but its last name must be folders.
-/

namespace StateTables.Command

/-- Files by name, and the folders there are besides those that hold a file. -/
structure Directory where
  files : List (String × String)
  folders : List String
deriving DecidableEq, Repr

inductive PathError where
  | missing
  | notFolder
  | folder
  | tooLong
  | malformed
deriving DecidableEq, Repr

def PathError.message : PathError → String
  | .missing => "no such file or directory"
  | .notFolder => "not a directory"
  | .folder => "is a directory"
  | .tooLong => "file name too long"
  | .malformed => "invalid argument"

inductive Entry where
  | file (text : String)
  | folder
  /-- Takes all that is written to it and has nothing to read. -/
  | sink
  /-- Nothing yet, in a folder that exists. -/
  | vacant
deriving DecidableEq, Repr

/-- Names from the outermost folder on. A location starts at the folder the program
runs in, or at the root if its first name is a slash. -/
abbrev Location := List String

namespace Location

def name : Location → String
  | "/" :: names => "/" ++ "/".intercalate names
  | names => "/".intercalate names

/-- One folder up. There is nothing above the root. -/
def parent (location : Location) : Location :=
  match location.getLast? with
  | none => [".."]
  | some ".." => location ++ [".."]
  | some "/" => location
  | some _ => location.dropLast

def enter (location : Location) : String → Location
  | "." => location
  | ".." => location.parent
  | name => location ++ [name]

def isAbove (location : Location) : Bool :=
  location.all (· == "..") || location == ["/"] || location == ["/", "dev"]

end Location

namespace Directory

def nameLimit : Nat := 255

def pathLimit : Nat := 4095

def entry (directory : Directory) (location : Location) : Entry :=
  let name := location.name
  if location.isAbove || directory.folders.contains name ||
      directory.files.any fun (other, _) => other.startsWith (name ++ "/") then .folder
  else if name = "/dev/null" then .sink
  else match directory.files.lookup name with
    | some text => .file text
    | none => .vacant

def follow (directory : Directory) (location : Location) :
    List String → Except PathError Location
  | [] => .ok location
  | name :: rest =>
    match directory.entry location with
    | .vacant => .error .missing
    | .folder =>
      if name.utf8ByteSize > nameLimit then .error .tooLong
      else directory.follow (location.enter name) rest
    | _ => .error .notFolder

def locate (directory : Directory) (path : String) : Except PathError Location :=
  let names := (path.splitOn "/").filter (!·.isEmpty)
  if path.isEmpty then .error .missing
  else if path.contains '\x00' then .error .malformed
  else if path.utf8ByteSize > pathLimit then .error .tooLong
  else directory.follow (if path.startsWith "/" then ["/"] else []) names

def failure (deed path : String) (problem : PathError) : Failure :=
  .plain (deed ++ " " ++ path ++ ": " ++ problem.message)

/-- Read the file that a path leads to. A path to a file does not end in a slash. -/
def read (directory : Directory) (path : String) : Except Failure String :=
  match directory.locate path with
  | .error problem => .error (failure "open" path problem)
  | .ok location =>
    match directory.entry location with
    | .folder => .error (failure "read" path .folder)
    | .vacant => .error (failure "open" path .missing)
    | .sink => if path.endsWith "/" then .error (failure "open" path .notFolder) else .ok ""
    | .file text =>
      if path.endsWith "/" then .error (failure "open" path .notFolder) else .ok text

def write (directory : Directory) (path text : String) : Except Failure Directory :=
  match directory.locate path with
  | .error problem => .error (failure "open" path problem)
  | .ok location =>
    if path.endsWith "/" then .error (failure "open" path .folder)
    else match directory.entry location with
      | .folder => .error (failure "open" path .folder)
      | .sink => .ok directory
      | _ =>
        let name := location.name
        .ok { directory with
          files := (name, text) :: directory.files.filter fun (other, _) => other != name }

def changes (before after : Directory) : List (String × String) :=
  after.files.filter fun (name, text) => before.files.lookup name != some text

/-- The changes in the folder the program runs in, and below. -/
def innerChanges (before after : Directory) : List (String × String) :=
  (before.changes after).filter fun (name, _) =>
    !name.startsWith "/" && !name.startsWith "../"

end Directory

end StateTables.Command
