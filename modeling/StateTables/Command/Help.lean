import StateTables.Command.Invocation

/-! # Help

What the topics of a command line say about themselves.
-/

namespace StateTables.Command

def padded (width : Nat) (text : String) : String :=
  text.pushn ' ' (width - text.length)

namespace Flag

def usage (flag : Flag) : String :=
  let letter := match flag.letter with
    | some letter => "  -" ++ String.singleton letter ++ ", "
    | none => "      "
  let value := match flag.kind with
    | .text => " string"
    | .switch => ""
    | .word => " uint"
    | .number => " int"
  letter ++ "--" ++ flag.name ++ value

def remark (flag : Flag) : String :=
  match flag.kind, flag.initial with
  | .switch, _ => ""
  | _, "" => ""
  | _, "0" => ""
  | .text, initial => " (default " ++ Text.Quoted.text initial ++ ")"
  | _, initial => " (default " ++ initial ++ ")"

end Flag

def flagLines (flags : List Flag) : String :=
  let sorted := flags.mergeSort fun flag other => !decide (other.name < flag.name)
  let width := (sorted.map fun flag => flag.usage.length).foldl max 0
  String.join <| sorted.map fun flag =>
    padded width flag.usage ++ "   " ++ flag.purpose ++ flag.remark ++ "\n"

namespace Shell

def description : Shell → String
  | .bash =>
    "Generate the autocompletion script for the bash shell.\n\n" ++
    "This script depends on the 'bash-completion' package.\n" ++
    "If it is not installed already, you can install it via your OS's package manager.\n\n" ++
    "To load completions in your current shell session:\n\n" ++
    "\tsource <(" ++ program ++ " completion bash)\n\n" ++
    "To load completions for every new session, execute once:\n\n" ++
    "#### Linux:\n\n" ++
    "\t" ++ program ++ " completion bash > /etc/bash_completion.d/" ++ program ++ "\n\n" ++
    "#### macOS:\n\n" ++
    "\t" ++ program ++ " completion bash > $(brew --prefix)/etc/bash_completion.d/" ++
      program ++ "\n\n" ++
    "You will need to start a new shell for this setup to take effect."
  | .fish =>
    "Generate the autocompletion script for the fish shell.\n\n" ++
    "To load completions in your current shell session:\n\n" ++
    "\t" ++ program ++ " completion fish | source\n\n" ++
    "To load completions for every new session, execute once:\n\n" ++
    "\t" ++ program ++ " completion fish > ~/.config/fish/completions/" ++ program ++
      ".fish\n\n" ++
    "You will need to start a new shell for this setup to take effect."
  | .powershell =>
    "Generate the autocompletion script for powershell.\n\n" ++
    "To load completions in your current shell session:\n\n" ++
    "\t" ++ program ++ " completion powershell | Out-String | Invoke-Expression\n\n" ++
    "To load completions for every new session, add the output of the above command\n" ++
    "to your powershell profile."
  | .zsh =>
    "Generate the autocompletion script for the zsh shell.\n\n" ++
    "If shell completion is not already enabled in your environment you will need\n" ++
    "to enable it.  You can execute the following once:\n\n" ++
    "\techo \"autoload -U compinit; compinit\" >> ~/.zshrc\n\n" ++
    "To load completions in your current shell session:\n\n" ++
    "\tsource <(" ++ program ++ " completion zsh)\n\n" ++
    "To load completions for every new session, execute once:\n\n" ++
    "#### Linux:\n\n" ++
    "\t" ++ program ++ " completion zsh > \"$\x7bfpath[1]\x7d/_" ++ program ++ "\"\n\n" ++
    "#### macOS:\n\n" ++
    "\t" ++ program ++ " completion zsh > $(brew --prefix)/share/zsh/site-functions/_" ++
      program ++ "\n\n" ++
    "You will need to start a new shell for this setup to take effect."

end Shell

namespace Topic

def description : Topic → String
  | .task .scan =>
    "Run a state machine interactively. Every input line is scanned from the\n" ++
    "start state to EOF. Lines starting with ':' are commands:\n\n" ++
    "  :feed <text>      scan text as a chunk, without EOF\n" ++
    "  :keys <k1, k2…>   scan keys given as key expressions, without EOF\n" ++
    "  :eof              signal EOF\n" ++
    "  :cond <name> on|off\n" ++
    "  :reset            return to the start state\n" ++
    "  :quit"
  | .help =>
    "Help provides help for any command in the application.\n" ++
    "Simply type " ++ Command.program ++ " help [path to command] for full details."
  | .completion =>
    "Generate the autocompletion script for " ++ Command.program ++
      " for the specified shell.\n" ++
    "See each sub-command's help for details on how to use the generated script."
  | .script shell => shell.description
  | topic => topic.purpose

def pattern (topic : Topic) : String :=
  topic.path ++ match topic with
    | .task _ => " <graph.yaml> [flags]"
    | .help => " [command] [flags]"
    | .script .bash => ""
    | .script _ => " [flags]"
    | .program | .completion => " [command]"

/-- How a topic is used. The flags of all topics are set apart from those of one. -/
def usage (topic : Topic) : String :=
  let lines := topic.subtopics.map fun other =>
    "  " ++ padded 11 other.name ++ " " ++ other.purpose ++ "\n"
  let commands := if lines.isEmpty then ""
    else "\nAvailable Commands:\n" ++ String.join lines
  let flags := if topic = .program then "\nFlags:\n" ++ flagLines topic.flags
    else "\nFlags:\n" ++ flagLines topic.ownFlags ++ "\nGlobal Flags:\n" ++ flagLines commonFlags
  let hint := if lines.isEmpty then ""
    else "\nUse \"" ++ topic.path ++ " [command] --help\" for more information about a command.\n"
  "Usage:\n  " ++ topic.pattern ++ "\n" ++ commands ++ flags ++ hint

def manual (topic : Topic) : String :=
  topic.description ++ "\n\n" ++ topic.usage

end Topic

end StateTables.Command
