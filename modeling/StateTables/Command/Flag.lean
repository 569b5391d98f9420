import StateTables.Literal.Integer
import StateTables.Text.Quoted

/-! # Command-line flags

A flag is given by its name behind two dashes or by its letter behind one. Its
value follows, on the same argument behind an equals sign or as the next
argument; a switch needs none. Letters of switches may share a dash. Everything
else is an argument, and so is all that follows two dashes alone.
-/

namespace StateTables.Command

inductive FlagKind where
  | text
  | switch
  | word
  | number
deriving DecidableEq, Repr

structure Flag where
  name : String
  letter : Option Char
  kind : FlagKind
  /-- What the flag is for. -/
  purpose : String
  /-- The value without the flag. -/
  initial : String
deriving DecidableEq, Repr

def truth? : String → Option Bool
  | "1" | "t" | "T" | "true" | "TRUE" | "True" => some true
  | "0" | "f" | "F" | "false" | "FALSE" | "False" => some false
  | _ => none

namespace FlagKind

def implied? : FlagKind → Option String
  | .switch => some "true"
  | _ => none

def fault? (kind : FlagKind) (value : String) : Option (String × String) :=
  let ofInteger {α : Type} : Except Literal.IntegerError α → Option String
    | .ok _ => none
    | .error .malformed => some "invalid syntax"
    | .error .tooLarge => some "value out of range"
  match kind with
  | .text => none
  | .switch => if (truth? value).isSome then none else some ("ParseBool", "invalid syntax")
  | .word => (ofInteger (Literal.Integer.readUnsigned value.toList)).map ("ParseUint", ·)
  | .number =>
    (ofInteger (Literal.Integer.readSigned Literal.Integer.readUnsigned value.toList)).map
      ("ParseInt", ·)

end FlagKind

inductive FlagError where
  | malformed (argument : String)
  | unknown (name : String)
  | unknownLetter (letter : Char) (group : String)
  | valueMissing (argument : String)
  | letterValueMissing (letter : Char) (group : String)
  | invalid (flag : Flag) (value reader fault : String)
deriving DecidableEq, Repr

def firstByte (letter : Char) : Char :=
  ((String.singleton letter).toUTF8.toList.head?.map fun byte => Char.ofNat byte.toNat).getD letter

def FlagError.message : FlagError → String
  | .malformed argument => "bad flag syntax: " ++ argument
  | .unknown name => "unknown flag: --" ++ name
  | .unknownLetter letter group =>
    "unknown shorthand flag: " ++ Text.Quoted.character (firstByte letter) ++ " in -" ++ group
  | .valueMissing argument => "flag needs an argument: " ++ argument
  | .letterValueMissing letter group =>
    "flag needs an argument: " ++ Text.Quoted.character letter ++ " in -" ++ group
  | .invalid flag value reader fault =>
    let name := match flag.letter with
      | some letter => "-" ++ String.singleton letter ++ ", --" ++ flag.name
      | none => "--" ++ flag.name
    "invalid argument " ++ Text.Quoted.text value ++ " for " ++ Text.Quoted.text name ++
      " flag: strconv." ++ reader ++ ": parsing " ++ Text.Quoted.text value ++ ": " ++ fault

abbrev Assignments := List (String × String)

/-- The value given to a flag: the last one counts. -/
def Assignments.value? (assignments : Assignments) (name : String) : Option String :=
  assignments.reverse.lookup name

def Assignments.gives (assignments : Assignments) (name : String) : Bool :=
  (assignments.value? name).isSome

def assign (flag : Flag) (value : String) : Except FlagError (String × String) :=
  match flag.kind.fault? value with
  | some (reader, fault) => .error (.invalid flag value reader fault)
  | none => .ok (flag.name, value)

def findFlag (flags : List Flag) (name : String) : Option Flag :=
  flags.find? fun flag => flag.name == name

def findLetter (flags : List Flag) (letter : Char) : Option Flag :=
  flags.find? fun flag => flag.letter == some letter

/-- Read a flag given by name. The next argument may be its value; the result
tells whether it is. -/
def readNamed (flags : List Flag) (argument : String) (written : List Char)
    (next : Option String) : Except FlagError ((String × String) × Bool) :=
  match written with
  | '-' :: _ => .error (.malformed argument)
  | '=' :: _ => .error (.malformed argument)
  | _ =>
    let name := String.ofList (written.takeWhile (· != '='))
    match findFlag flags name, written.dropWhile (· != '=') with
    | none, _ => .error (.unknown name)
    | some flag, '=' :: value => (assign flag (String.ofList value)).map (·, false)
    | some flag, _ =>
      match flag.kind.implied?, next with
      | some value, _ => (assign flag value).map (·, false)
      | none, some value => (assign flag value).map (·, true)
      | none, none => .error (.valueMissing argument)

/-- Read flags given by letters. The next argument may be the value of the last
one; the result tells whether it is. -/
def readLetters (flags : List Flag) (next : Option String) :
    List Char → Except FlagError (Assignments × Bool)
  | [] => .ok ([], false)
  | letter :: rest =>
    let group := String.ofList (letter :: rest)
    match findLetter flags letter with
    | none => .error (.unknownLetter letter group)
    | some flag =>
      match rest, flag.kind.implied?, next with
      | '=' :: first :: more, _, _ =>
        (assign flag (String.ofList (first :: more))).map ([·], false)
      | _, some value, _ => do
        let assignment ← assign flag value
        let (assignments, taken) ← readLetters flags next rest
        return (assignment :: assignments, taken)
      | first :: more, none, _ => (assign flag (String.ofList (first :: more))).map ([·], false)
      | [], none, some value => (assign flag value).map ([·], true)
      | [], none, none => .error (.letterValueMissing letter group)

/-- Read the flags at the head of an argument: what they are given, and whether
the next argument was taken. Without flags the argument is an argument. -/
def readArgument (flags : List Flag) (argument : String) (next : Option String) :
    Except FlagError (Option (Assignments × Bool)) :=
  match argument.toList with
  | '-' :: '-' :: written => do
    let (assignment, taken) ← readNamed flags argument written next
    return some ([assignment], taken)
  | '-' :: first :: more => do
    let read ← readLetters flags next (first :: more)
    return some read
  | _ => .ok none

def readFlags (flags : List Flag) :
    List String → Except FlagError (Assignments × List String)
  | [] => .ok ([], [])
  | argument :: rest =>
    if argument = "--" then .ok ([], rest)
    else do
      match ← readArgument flags argument rest.head? with
      | none =>
        let (assignments, arguments) ← readFlags flags rest
        return (assignments, argument :: arguments)
      | some (given, taken) =>
        let (assignments, arguments) ← readFlags flags (rest.drop taken.toNat)
        return (given ++ assignments, arguments)
termination_by arguments => arguments.length
decreasing_by all_goals simp only [List.length_drop, List.length_cons]; omega

end StateTables.Command
