import StateTables.Command.Settings

/-! # Topics

What can be named on a command line: the tasks of the program, help on something,
and scripts that let a shell complete command lines.
-/

namespace StateTables.Command

inductive Task where
  /-- Generate source. -/
  | generate
  /-- Print the tables of an encoding. -/
  | tables
  /-- Print a graph for drawing. -/
  | dot
  /-- Scan interactively. -/
  | scan
deriving DecidableEq, Repr

namespace Task

def all : List Task :=
  [.generate, .tables, .dot, .scan]

def name : Task → String
  | .generate => "gen"
  | .tables => "tables"
  | .dot => "dot"
  | .scan => "scan"

def purpose : Task → String
  | .generate => "Generate Go source for a state machine"
  | .tables => "Print the tables of an encoded state machine"
  | .dot => "Write a state machine graph in Graphviz format"
  | .scan => "Run a state machine interactively"

def flags : Task → List Flag
  | .generate => generateFlags
  | .tables => tablesFlags
  | .dot => []
  | .scan => scanFlags

end Task

inductive Shell where
  | bash
  | fish
  | powershell
  | zsh
deriving DecidableEq, Repr

namespace Shell

def all : List Shell :=
  [.bash, .fish, .powershell, .zsh]

def name : Shell → String
  | .bash => "bash"
  | .fish => "fish"
  | .powershell => "powershell"
  | .zsh => "zsh"

end Shell

inductive Topic where
  | program
  | task (task : Task)
  | help
  | completion
  | script (shell : Shell)
deriving DecidableEq, Repr

def program : String := "gorgel"

namespace Topic

def name : Topic → String
  | .program => Command.program
  | .task chosen => chosen.name
  | .help => "help"
  | .completion => "completion"
  | .script shell => shell.name

def path : Topic → String
  | .program => Command.program
  | .script shell => Command.program ++ " completion " ++ shell.name
  | topic => Command.program ++ " " ++ topic.name

def purpose : Topic → String
  | .program => Command.program ++ " - table and code generator for state machine graphs"
  | .task chosen => chosen.purpose
  | .help => "Help about any command"
  | .completion => "Generate the autocompletion script for the specified shell"
  | .script shell => "Generate the autocompletion script for " ++ shell.name

def subtopics : Topic → List Topic
  | .program =>
    (.help :: .completion :: Task.all.map .task).mergeSort fun topic other =>
      !decide (other.name < topic.name)
  | .completion => Shell.all.map .script
  | _ => []

def subtopic? (topic : Topic) (name : String) : Option Topic :=
  topic.subtopics.find? fun other => other.name == name

def helpFlag (topic : Topic) : Flag :=
  ⟨"help", some 'h', .switch, "help for " ++ topic.name, "false"⟩

def ownFlags (topic : Topic) : List Flag :=
  let further := match topic with
    | .task chosen => chosen.flags
    | .script _ =>
      [⟨"no-descriptions", none, .switch, "disable completion descriptions", "false"⟩]
    | _ => []
  topic.helpFlag :: further

def flags (topic : Topic) : List Flag :=
  topic.ownFlags ++ commonFlags

end Topic

end StateTables.Command
