import StateTables.Graph.Build
import StateTables.GraphFile.Basic
import StateTables.KeyExpression.Parser

/-! # Graphs of graph files

The entries of a file are handed to a draft one after the other. What cannot be
handed over is reported. If anything was reported there is no graph, whatever
became of the draft.
-/

namespace StateTables

inductive GraphFileError where
  | unreadable (problem : Yaml.DocumentError)
  | unknownAlphabet (type : String)
  | diagnosed (diagnostics : Diagnostics)
  | rejected (problems : List GraphError)
deriving Repr

def GraphFileError.failure : GraphFileError → Failure
  | .unreadable problem => .because .graphFile problem.message
  | .unknownAlphabet type =>
    .because .graphFile ("unknown alphabet type " ++ Text.Quoted.text type)
  | .diagnosed diagnostics =>
    .because .graphFile ((diagnostics.failure?.map Failure.message).getD "")
  | .rejected problems =>
    .gather (problems.map GraphError.failure ++ [⟨[.graphFile], Reason.graphFile.sentence⟩])

structure Assembly where
  draft : Draft
  diagnostics : Diagnostics
  /-- Condition spaces by name. -/
  spaces : List (String × ConditionSpace)
deriving Repr

namespace Assembly

def report (assembly : Assembly) (message : String) : Assembly :=
  { assembly with diagnostics := assembly.diagnostics.report message }

def change (assembly : Assembly) (step : Draft → Draft) : Assembly :=
  { assembly with draft := step assembly.draft }

/-- Nothing but an alphabet, narrowed if the file says so. -/
def start (file : GraphFile) (host : IntegerType) : Assembly :=
  let alphabet := Alphabet.full host
  let name := if file.name.isEmpty then "fsm" else file.name
  match file.alphabet.range with
  | [] => ⟨.empty name alphabet, .none, []⟩
  | [low, high] =>
    let (alphabet, diagnostics) := alphabet.narrow low high .none
    ⟨.empty name alphabet, diagnostics, []⟩
  | range => ⟨.empty name alphabet, Diagnostics.none.report
      ("alphabet range needs two keys, has " ++ toString range.length), []⟩

def addAction (assembly : Assembly) (entry : ActionEntry) : Assembly :=
  let kind := if entry.kind.isEmpty then some .hook else ActionKind.named? entry.kind
  match kind with
  | some kind => assembly.change fun draft =>
      draft.defineAction ⟨entry.name, kind, entry.code, entry.target⟩
  | none => assembly.report <|
      "action " ++ entry.name ++ ": unknown kind " ++ Text.Quoted.text entry.kind

def addSpace (assembly : Assembly) (entry : String × List String) : Assembly :=
  let (draft, space) := assembly.draft.internSpace entry.2
  { assembly with draft := draft, spaces := (entry.1, space) :: assembly.spaces }

/-- Set the start state, which there must be. -/
def setStart (assembly : Assembly) (name : String) : Assembly :=
  if name.isEmpty then assembly.report "no start state"
  else assembly.change fun draft => draft.setStart name

def reportSpace (assembly : Assembly) (state space : String) : Assembly :=
  assembly.report <|
    "state " ++ state ++ ": unknown condition space " ++ Text.Quoted.text space

/-- Hand over a branch of a state, unless its condition space is unknown. -/
def withBranch (assembly : Assembly) (state : String) (entry : BranchEntry)
    (step : Branch → Draft → Draft) : Assembly :=
  if entry.guard.isEmpty then assembly.change (step (.plain entry.target))
  else match assembly.spaces.lookup entry.guard with
    | some space => assembly.change (step ⟨some space, entry.outcomes⟩)
    | none => assembly.reportSpace state entry.guard

/-- Add a transition: one claim for each range of keys. -/
def addTransition (state : String) (assembly : Assembly) (entry : TransitionEntry) : Assembly :=
  match assembly.draft.alphabet.readKeyList entry.keys with
  | .error problem => assembly.report <|
      "state " ++ state ++ ": " ++ (problem.failure entry.keys).message
  | .ok ranges => assembly.withBranch state entry.branch fun branch draft =>
      ranges.foldl (fun draft range => draft.addClaim state ⟨range.low, range.high, branch⟩) draft

def addActions (assembly : Assembly) (actions : List String)
    (step : List String → Draft → Draft) : Assembly :=
  if actions.isEmpty then assembly else assembly.change (step actions)

def addGuard (state : String) (assembly : Assembly) (entry : EofGuardEntry) : Assembly :=
  match assembly.spaces.lookup entry.space with
  | some space => assembly.change fun draft => draft.guardEof state space entry.values
  | none => assembly.reportSpace state entry.space

def addState (assembly : Assembly) (entry : StateEntry) : Assembly :=
  let state := entry.name
  let assembly := entry.transitions.foldl (addTransition state) assembly
  let assembly := entry.fallback.toList.foldl (fun assembly branch =>
    assembly.withBranch state branch fun branch draft => draft.setFallback state branch) assembly
  let assembly := assembly.addActions entry.toState fun names draft => draft.setToState state names
  let assembly := assembly.addActions entry.fromState fun names draft =>
    draft.setFromState state names
  let assembly := assembly.addActions entry.eofActions fun names draft =>
    draft.setEofActions state names
  let assembly := entry.eofGuard.toList.foldl (addGuard state) assembly
  let assembly := entry.eofTarget.toList.foldl (fun assembly target =>
    assembly.change fun draft => draft.setEofTransition state target) assembly
  entry.alternates.foldl (fun assembly alternate =>
    assembly.change fun draft => draft.addAlternate state alternate) assembly

end Assembly

namespace GraphFile

/-- Hand over all entries of a file. Condition spaces come in the order of their
names. -/
def assemble (file : GraphFile) (host : IntegerType) : Assembly :=
  let assembly := file.actions.foldl Assembly.addAction (.start file host)
  let spaces := file.spaces.mergeSort fun (name, _) (other, _) => !decide (other < name)
  let assembly := (spaces.foldl Assembly.addSpace assembly).setStart file.start
  let assembly := assembly.change fun draft =>
    (file.states.foldl (fun draft state => draft.declareState state.name) draft).markFinal file.final
  let assembly := if file.errorRequired then assembly.change Draft.requireError else assembly
  file.states.foldl Assembly.addState assembly

def build (file : GraphFile) : Except GraphFileError Graph :=
  match IntegerType.declared? file.alphabet.type with
  | none => .error (.unknownAlphabet file.alphabet.type)
  | some host =>
    let assembly := file.assemble host
    if assembly.diagnostics.count ≠ 0 then .error (.diagnosed assembly.diagnostics)
    else match assembly.draft.build.2 with
      | .ok graph => .ok graph
      | .error problems => .error (.rejected problems)

def load (text : String) : Except GraphFileError Graph :=
  match parse text with
  | .error problem => .error (.unreadable problem)
  | .ok file => file.build

end GraphFile

end StateTables
