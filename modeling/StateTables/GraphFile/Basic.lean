import StateTables.Graph.Draft
import StateTables.Yaml.Shape

/-! # Graph files

A graph file is a document that describes a graph: its alphabet, actions and
condition spaces, and its states with all they do.
-/

namespace StateTables

/-- The host type of keys, and the lowest and the highest key if there are fewer. -/
structure AlphabetEntry where
  type : String
  range : List String
deriving DecidableEq, Repr

/-- A declared action. Without a kind it is a hook. -/
structure ActionEntry where
  name : String
  kind : String
  code : String
  target : String
deriving DecidableEq, Repr

/-- What a transition does: one target or, if it names a condition space, an
outcome for each condition value. -/
structure BranchEntry where
  guard : String
  outcomes : List OutcomeDraft
  target : Target
deriving DecidableEq, Repr

structure TransitionEntry where
  keys : String
  branch : BranchEntry
deriving DecidableEq, Repr

structure EofGuardEntry where
  space : String
  values : List ConditionValue
deriving DecidableEq, Repr

structure StateEntry where
  name : String
  transitions : List TransitionEntry
  fallback : Option BranchEntry
  toState : List String
  fromState : List String
  eofActions : List String
  eofGuard : Option EofGuardEntry
  eofTarget : Option Target
  alternates : List AlternateDraft
deriving DecidableEq, Repr

structure GraphFile where
  name : String
  alphabet : AlphabetEntry
  start : String
  final : List String
  errorRequired : Bool
  actions : List ActionEntry
  /-- Condition spaces by name. -/
  spaces : List (String × List String)
  states : List StateEntry
deriving DecidableEq, Repr

namespace GraphFile

open Yaml (Shape FieldShape)

/-! ## The shape of the document -/

def names : Shape (List String) :=
  .list .text

def targetFieldsOf {Record : Type} (change : (Target → Target) → Record → Record) :
    List (FieldShape Record) :=
  [.of "to" .text fun state => change fun target => { target with state := state },
    .of "do" names fun actions => change fun target => { target with actions := actions }]

def target : Shape Target :=
  .record "graphfile.Target" false ⟨"", []⟩ (targetFieldsOf id)

def alphabetEntry : Shape AlphabetEntry :=
  .record "graphfile.Alphabet" false ⟨"", []⟩
    [.of "type" .text fun type entry => { entry with type := type },
      .of "range" names fun range entry => { entry with range := range }]

def actionEntry : Shape ActionEntry :=
  .record "graphfile.Action" false ⟨"", "", "", ""⟩
    [.of "name" .text fun name entry => { entry with name := name },
      .of "kind" .text fun kind entry => { entry with kind := kind },
      .of "code" .text fun code entry => { entry with code := code },
      .of "target" .text fun target entry => { entry with target := target }]

def outcome : Shape OutcomeDraft :=
  .record "graphfile.Out" false ⟨0, ⟨"", []⟩⟩ <|
    .of "value" .word (fun value outcome => { outcome with value := value }) ::
      targetFieldsOf fun change outcome => { outcome with target := change outcome.target }

def branchFieldsOf {Record : Type} (change : (BranchEntry → BranchEntry) → Record → Record) :
    List (FieldShape Record) :=
  .of "when" .text (fun guard => change fun branch => { branch with guard := guard }) ::
    .of "outs" (.list outcome)
      (fun outcomes => change fun branch => { branch with outcomes := outcomes }) ::
    targetFieldsOf fun inner => change fun branch => { branch with target := inner branch.target }

def emptyBranch : BranchEntry :=
  ⟨"", [], ⟨"", []⟩⟩

def transitionEntry : Shape TransitionEntry :=
  .record "graphfile.Trans" false ⟨"", emptyBranch⟩ <|
    .of "on" .text (fun keys entry => { entry with keys := keys }) ::
      branchFieldsOf fun change entry => { entry with branch := change entry.branch }

def fallbackEntry : Shape BranchEntry :=
  .record "graphfile.Default" false emptyBranch (branchFieldsOf id)

def eofGuardEntry : Shape EofGuardEntry :=
  .record "graphfile.EOFCond" false ⟨"", []⟩
    [.of "space" .text fun space entry => { entry with space := space },
      .of "values" (.list .word) fun values entry => { entry with values := values }]

def alternateEntry : Shape AlternateDraft :=
  .record "graphfile.NFA" false ⟨"", [], []⟩
    [.of "to" .text fun state entry => { entry with state := state },
      .of "push" names fun push entry => { entry with push := push },
      .of "pop" names fun popTest entry => { entry with popTest := popTest }]

def stateEntry : Shape StateEntry :=
  .record "graphfile.State" false ⟨"", [], none, [], [], [], none, none, []⟩
    [.of "name" .text fun name entry => { entry with name := name },
      .of "trans" (.list transitionEntry) fun transitions entry =>
        { entry with transitions := transitions },
      .of "default" (.optional fallbackEntry) fun fallback entry =>
        { entry with fallback := fallback },
      .of "to_state" names fun actions entry => { entry with toState := actions },
      .of "from_state" names fun actions entry => { entry with fromState := actions },
      .of "eof" names fun actions entry => { entry with eofActions := actions },
      .of "eof_when" (.optional eofGuardEntry) fun guard entry => { entry with eofGuard := guard },
      .of "eof_trans" (.optional target) fun target entry => { entry with eofTarget := target },
      .of "nfa" (.list alternateEntry) fun alternates entry =>
        { entry with alternates := alternates }]

def shape : Shape GraphFile :=
  .record "graphfile.File" false ⟨"", ⟨"", []⟩, "", [], false, [], [], []⟩
    [.of "name" .text fun name file => { file with name := name },
      .of "alphabet" alphabetEntry fun alphabet file => { file with alphabet := alphabet },
      .of "start" .text fun start file => { file with start := start },
      .of "final" names fun final file => { file with final := final },
      .of "error" .flag fun required file => { file with errorRequired := required },
      .of "actions" (.list actionEntry) fun actions file => { file with actions := actions },
      .of "conds" (.table names) fun spaces file => { file with spaces := spaces },
      .of "states" (.list stateEntry) fun states file => { file with states := states }]

def parse (text : String) : Except Yaml.DocumentError GraphFile :=
  shape.ofDocument text

end GraphFile

end StateTables
