import StateTables.Command.Topic

/-! # Invocations

A command line names a topic and gives flags and arguments; flags may stand before
the topic. Names that are no topic are answered with those that come close.
-/

namespace StateTables.Command

/-! ## Finding the topic -/

def takesNext (flags : List Flag) (argument : String) : Bool :=
  let needsValue (flag : Option Flag) := (flag.bind fun flag => flag.kind.implied?).isNone
  match argument.toList with
  | '-' :: '-' :: name =>
    !name.isEmpty && !name.contains '=' && needsValue (findFlag flags (String.ofList name))
  | ['-', letter] => letter != '=' && needsValue (findLetter flags letter)
  | _ => false

def isWord (argument : String) : Bool :=
  !argument.isEmpty && argument.toList.head? != some '-'

/-- The first word among arguments: those before it, the word, those behind it.
Values of flags are no words; a flag with fewer than two arguments behind it
ends the search. -/
def firstWord (flags : List Flag) : List String → Option (List String × String × List String)
  | [] => none
  | argument :: rest =>
    if argument = "--" then none
    else if takesNext flags argument then
      match rest with
      | value :: next :: more =>
        (firstWord flags (next :: more)).map fun (before, word, behind) =>
          (argument :: value :: before, word, behind)
      | _ => none
    else if isWord argument then some ([], argument, rest)
    else (firstWord flags rest).map fun (before, word, behind) =>
      (argument :: before, word, behind)

def isNear : Nat → List UInt8 → List UInt8 → Bool
  | limit, [], other => other.length ≤ limit
  | limit, word, [] => word.length ≤ limit
  | limit, letter :: word, other :: others =>
    if letter = other then isNear limit word others
    else match limit with
      | 0 => false
      | limit + 1 => isNear limit word others || isNear limit word (other :: others) ||
          isNear limit (letter :: word) others
termination_by _ word other => word.length + other.length

/-- The largest distance at which words are taken for mistyped. -/
def suggestionDistance : Nat := 2

/-- The topics a word may have been meant for: those close to it and those that
start with it. Help is left out. -/
def suggestions (word : String) : List String :=
  let typed := (word.map Char.toLower).toUTF8.toList
  let names := (Topic.program.subtopics.filter (· != .help)).map Topic.name
  names.filter fun name =>
    let letters := name.toUTF8.toList
    typed.isPrefixOf letters || isNear suggestionDistance typed letters

def descend (topic : Topic) (arguments : List String) : Topic × List String :=
  match firstWord commonFlags arguments with
  | none => (topic, arguments)
  | some (before, word, behind) =>
    match topic.subtopic? word with
    | some topic => (topic, before ++ behind)
    | none => (topic, arguments)

/-- The topic that arguments name, and the other arguments. A word that leads nowhere
is no topic of the program. -/
def findTopic (arguments : List String) : Except String (Topic × List String) :=
  match descend .program arguments with
  | (.program, rest) =>
    match firstWord commonFlags rest with
    | some (_, word, _) => .error word
    | none => .ok (.program, rest)
  | (topic, rest) => .ok (descend topic rest)

/-! ## Reading command lines -/

inductive UsageError where
  | unknownTopic (word : String)
  | flag (problem : FlagError)
  | argumentCount (count : Nat)
  /-- An argument where none is taken. -/
  | unknownArgument (topic : Topic) (word : String)
deriving DecidableEq, Repr

def UsageError.message : UsageError → String
  | .unknownTopic word =>
    let meant := match suggestions word with
      | [] => ""
      | names => "\n\nDid you mean this?\n" ++ String.join (names.map fun name => s!"\t{name}\n")
    "unknown command " ++ Text.Quoted.text word ++ " for " ++ Text.Quoted.text program ++ meant
  | .flag problem => problem.message
  | .argumentCount count => s!"accepts 1 arg(s), received {count}"
  | .unknownArgument topic word =>
    "unknown command " ++ Text.Quoted.text word ++ " for " ++ Text.Quoted.text topic.path

inductive Invocation where
  /-- Tell about a topic. -/
  | describe (topic : Topic)
  /-- Tell about the topic that words name. -/
  | explain (given : Assignments) (words : List String)
  /-- Do something with a graph file. -/
  | perform (task : Task) (given : Assignments) (path : String)
deriving DecidableEq, Repr

namespace Invocation

def asksHelp (given : Assignments) : Bool :=
  ((given.value? "help").bind truth?).getD false

def ofTopic (topic : Topic) (arguments : List String) : Except UsageError Invocation :=
  match readFlags topic.flags arguments with
  | .error problem => .error (.flag problem)
  | .ok (given, words) =>
    if asksHelp given then .ok (.describe topic)
    else match topic, words with
      | .task task, [path] => .ok (.perform task given path)
      | .task _, _ => .error (.argumentCount words.length)
      | .help, _ => .ok (.explain given words)
      | .script shell, word :: _ => .error (.unknownArgument (.script shell) word)
      | _, _ => .ok (.describe topic)

def parse (arguments : List String) : Except UsageError Invocation :=
  match findTopic arguments with
  | .error word => .error (.unknownTopic word)
  | .ok (topic, rest) => ofTopic topic rest

end Invocation

end StateTables.Command
